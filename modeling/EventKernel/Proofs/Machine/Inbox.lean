import EventKernel.Proofs.Machine.Observer
import EventKernel.Proofs.Machine.Stack
import EventKernel.Proofs.Simulator.Inbox

/-!
# The inbox in a run

The loop empties the inbox and teardown closes and clears it; all other steps can only hand in more.
The observer hands in events too, before the callback starts: its messages are as good as steps of
their own behind the step that takes the event off the queue.
-/

namespace EventKernel

open Simulator (Course EventCourse Timely)

variable {K U : Type} {s t : Simulator K} {turns : List (Turn K)} {keys : List EventKey}

/-! ### Handing in -/

/-- The events a request hands in, accepted or not. Negative delays do not get that far. -/
def InboxRequest.handsIn : InboxRequest K → List (RemoteEvent (Task K))
  | schedule context delay k => if delay.isNegative then [] else [⟨context, delay, .user k⟩]
  | stop | isClosed | describe => []

/-- The events a request hands in at the simulator with the given identity. -/
def Request.handsIn (identity : Nat) : Request K U → List (RemoteEvent (Task K))
  | inbox target r => if target = identity then r.handsIn else []
  | _ => []

def Message.request : Message K → Nat × InboxRequest K
  | schedule target context delay k => (target, .schedule context delay k)
  | stop target => (target, .stop)

/-- The events a message hands in at the simulator with the given identity. -/
def Message.handsIn (identity : Nat) (msg : Message K) : List (RemoteEvent (Task K)) :=
  if msg.request.1 = identity then msg.request.2.handsIn else []

lemma InboxRequest.gains_apply (r : InboxRequest K) (b : Inbox (Task K)) :
    b.Gains r.handsIn (r.apply b).2 := by
  cases r with
  | schedule context delay k =>
    rw [handsIn, apply]
    split
    · next hneg =>
      rw [Inbox.push_of_isNegative hneg]
      exact .refl b
    · next hneg => exact Inbox.gains_push (Bool.eq_false_iff.mpr hneg) b
  | stop => exact ⟨rfl, (Inbox.Gains.refl b).events⟩
  | isClosed | describe => exact .refl b

lemma Memory.gains_askInbox (target : Nat) (r : InboxRequest K) (s : Simulator K)
    (m : Memory K U) :
    s.inbox.Gains (if target = s.identity then r.handsIn else [])
      (m.askInbox target r s).2.1.inbox := by
  rw [askInbox]
  split
  · exact r.gains_apply s.inbox
  · exact .refl s.inbox

lemma Simulator.EventCourse.inbox_eq (h : EventCourse s turns t) : t.inbox = s.inbox := by
  rw [h.unchanged]

lemma SimRequest.inbox_apply (r : SimRequest K) (s : Simulator K) :
    (r.apply s).2.inbox = s.inbox := by
  rcases r.effect_apply s with h | ⟨-, stop, sync, observer, -, h⟩
  · exact h.inbox_eq
  · rw [h]

lemma Request.gains_apply (r : Request K U) (s : Simulator K) (m : Memory K U) :
    s.inbox.Gains (r.handsIn s.identity) (r.apply s m).2.1.inbox := by
  cases r with
  | sim r =>
    rw [apply, r.inbox_apply]
    exact .refl s.inbox
  | inbox target r => exact m.gains_askInbox target r s
  | _ =>
    rw [(eventCourse_apply _ s m (by simp) (by simp)).inbox_eq]
    exact .refl s.inbox

/-! ### What frames do with the inbox -/

/-- The events that emptying the inbox stores. -/
def Simulator.drainInsertions (s : Simulator K) : List (Insertion K) :=
  insertions s.inbox.events.toList { s with inbox := s.inbox.clear }

namespace Simulator

lemma map_event_drainInsertions (s : Simulator K) :
    s.drainInsertions.map (·.event) = s.inbox.events.toList :=
  map_event_insertions ..

lemma now_of_mem_drainInsertions {x : Insertion K} (hx : x ∈ s.drainInsertions) : x.now = s.now :=
  now_of_mem_insertions (s := { s with inbox := s.inbox.clear }) hx

lemma queued_of_mem_drainInsertions {x : Insertion K} (hx : x ∈ s.drainInsertions) :
    ∃ slot n, x.id = .queued slot n :=
  queued_of_mem_insertions hx

section

variable (h : s.Sound) (hdelay : ∀ ev ∈ s.inbox.events, ev.delay.isNegative = false)
include h hdelay

/-- The events in the inbox are issued in order. -/
lemma Sound.drainTurns_eq : s.drainTurns = s.drainInsertions.map Insertion.turn := by
  have hfront : Simulator.Sound { s with inbox := s.inbox.clear } := { h with }
  exact (hfront.map_turn_insertions fun ev hev => hdelay ev (Array.mem_toList_iff.mp hev)).symm

/-- Each event from the inbox is held under a handle of its own once the inbox is empty. -/
lemma Sound.find?_drainInsertions {x : Insertion K} (hx : x ∈ s.drainInsertions) :
    s.find? x.id = none ∧ s.drainInbox.find? x.id = some x.stored := by
  have hfront : Simulator.Sound { s with inbox := s.inbox.clear } := { h with }
  rw [drainInbox_eq]
  exact hfront.find?_insertions (fun ev hev => hdelay ev (Array.mem_toList_iff.mp hev)) hx

lemma Sound.pairwise_drainInsertions :
    s.drainInsertions.Pairwise fun x y => x.now ≤ y.now ∧ x.id.sequence < y.id.sequence := by
  have hfront : Simulator.Sound { s with inbox := s.inbox.clear } := { h with }
  exact hfront.pairwise_insertions fun ev hev => hdelay ev (Array.mem_toList_iff.mp hev)

lemma Sound.le_sequence_drainInsertions {x : Insertion K} (hx : x ∈ s.drainInsertions) :
    s.sequences.next ≤ x.id.sequence := by
  have hfront : Simulator.Sound { s with inbox := s.inbox.clear } := { h with }
  exact hfront.le_sequence_insertions (fun ev hev => hdelay ev (Array.mem_toList_iff.mp hev)) hx

end

end Simulator

namespace Frame

/-- The events a frame hands in at its own simulator. -/
def handsIn (s : Simulator K) : Frame K U → List (RemoteEvent (Task K))
  | .exec (.ask r _) => r.handsIn s.identity
  | _ => []

/-- The events from the inbox that a frame stores. -/
def inserts (s : Simulator K) : Frame K U → List (Insertion K)
  | .loop => s.drainInsertions
  | _ => []

/-- The events in the inbox that a frame drops. -/
def discards (s : Simulator K) : Frame K U → List (RemoteEvent (Task K))
  | .clear => s.inbox.events.toList
  | _ => []

/-- Whether a frame looks into the inbox, or takes events out of it. -/
def opens (s : Simulator K) : Frame K U → Bool
  | .loop | .clear => true
  | .exec (.ask (.sim .isFinished) _) => !s.stopPending && s.scheduler.isEmpty
  | _ => false

/-- Whether a frame takes the lock of the inbox of its simulator. -/
def locks (s : Simulator K) (f : Frame K U) : Bool := f.opens s || !(f.handsIn s).isEmpty

end Frame

/-- The same code with an observer that sends no messages. -/
def Code.mute (code : Code K U) : Code K U where
  routine := code.routine
  observe k identity info u := ((code.observe k identity info u).1, [])

namespace Machine

/-- Whatever waits in the inbox or is accepted is stored, or dropped, or waits now, in this order;
and a closed inbox stays closed. -/
structure Passes (f : Frame K U) (s t : Simulator K) : Prop where
  events : s.inbox.events.toList ++ (if s.inbox.closed then [] else f.handsIn s) =
    (f.inserts s).map (·.event) ++ f.discards s ++ t.inbox.events.toList
  closed : s.inbox.closed = true → t.inbox.closed = true

variable {f : Frame K U}

lemma Passes.of_gains (h : s.inbox.Gains (f.handsIn s) t.inbox) (hinserts : f.inserts s = [])
    (hdiscards : f.discards s = []) : Passes f s t where
  events := by
    rw [hinserts, hdiscards, h.events]
    rfl
  closed := by
    rw [h.closed]
    exact id

lemma passes_exec (p : Program K U PUnit) (s : Simulator K) (m : Memory K U)
    (rest : List (Frame K U)) : Passes (.exec p : Frame K U) s (exec p s m rest).sim := by
  refine .of_gains ?_ rfl rfl
  cases p with
  | done | perform => exact .refl s.inbox
  | ask r next => exact r.gains_apply s m
  | run next | destroy next =>
    rw [exec]
    split <;> exact .refl s.inbox

lemma notify_mute (code : Code K U) (info : EventInfo) (s : Simulator K) (m : Memory K U) :
    notify code.mute info s m = (s, { m with user := observed code s info m.user }) := by
  rw [notify, observed]
  cases s.observer <;> rfl

lemma gains_takeNext (code : Code K U) (s : Simulator K) (m : Memory K U)
    (rest : List (Frame K U)) : s.inbox.Gains [] (takeNext code.mute s m rest).sim.inbox := by
  have hsame := Inbox.Gains.refl s.inbox
  rw [takeNext]
  split
  · exact ⟨rfl, hsame.events⟩
  · rcases s.scheduler.removeNext with ⟨_ | ⟨id, ev⟩, q⟩
    · exact ⟨rfl, hsame.events⟩
    · dsimp only
      rw [dispatch]
      split
      · exact hsame
      · split
        · exact hsame
        · dsimp only
          rw [notify_mute]
          exact hsame

lemma passes_stepFrame (code : Code K U) (f : Frame K U) (s : Simulator K) (m : Memory K U)
    (rest : List (Frame K U)) : Passes f s (stepFrame code.mute f s m rest).sim := by
  have hsame := Inbox.Gains.refl s.inbox
  cases f with
  | exec p => exact passes_exec p s m rest
  | task t =>
    refine .of_gains ?_ rfl rfl
    cases t with
    | stop => exact hsame
    | _ =>
      rw [stepFrame, (eventCourse_start code.mute _ s m rest (by simp)).inbox_eq]
      exact hsame
  | loop =>
    refine ⟨?_, ?_⟩
    · rw [stepFrame, s.inbox_drainInbox.1]
      show _ ++ _ = s.drainInsertions.map (·.event) ++ [] ++ []
      rw [s.map_event_drainInsertions]
      simp [Frame.handsIn]
    · rw [stepFrame, s.inbox_drainInbox.1]
      exact id
  | next => exact .of_gains (gains_takeNext code s m rest) rfl rfl
  | teardown =>
    refine .of_gains ?_ rfl rfl
    rw [stepFrame, nextTeardown]
    dsimp only
    split <;> exact hsame
  | close => exact ⟨hsame.events.symm, fun _ => rfl⟩
  | clear =>
    refine ⟨?_, id⟩
    simp [Frame.handsIn, Frame.inserts, Frame.discards, stepFrame, Inbox.clear]
  | restore | rearmWatchdog | rearmTrickle => exact .of_gains hsame rfl rfl

/-- Only the step that closes the inbox ends the life of a simulator and goes on to clear it. -/
lemma Leaves.of_ne_close {phase : Phase} {top : List (Frame K U)} (h : Leaves s f phase top)
    (hf : f ≠ .close) : .clear ∉ top ∧ (phase = .destroyed → s.phase = .destroyed) := by
  cases h with
  | closed => exact absurd rfl hf
  | run | finishRun => simp
  | _ => exact ⟨by simp, id⟩

/-! ### The messages of the observer -/

/-- Send messages in this state. -/
def post (ms : List (Message K)) (a : Machine K U) : Machine K U :=
  let (s, m) := send a.sim a.memory ms
  { a with sim := s, memory := m }

/-- The messages that the observer sends in the next step. -/
def messages (code : Code K U) (a : Machine K U) : List (Message K) :=
  match a.taken? with
  | none => []
  | some p => if p.2.cancelled then [] else observerMessages code a.sim (infoOf p) a.memory.user

lemma send_cons (msg : Message K) (ms : List (Message K)) (s : Simulator K) (m : Memory K U) :
    send s m (msg :: ms) =
      let r := m.askInbox msg.request.1 msg.request.2 s
      send r.2.1 r.2.2 ms := by
  cases msg <;> rfl

lemma post_cons (msg : Message K) (ms : List (Message K)) (a : Machine K U) :
    a.post (msg :: ms) = (a.post [msg]).post ms := by
  simp only [post, send_cons]
  rfl

/-- The observer sends its messages whatever the context and the count are. -/
lemma send_setContext (context : ContextId) (count : Nat) (ms : List (Message K))
    (s : Simulator K) (m : Memory K U) :
    send { s with context := context, eventCount := count } m ms =
      ({ (send s m ms).1 with context := context, eventCount := count }, (send s m ms).2) := by
  induction ms generalizing s m with
  | nil => rfl
  | cons msg ms ih =>
    have hask : ∀ target r,
        m.askInbox target r { s with context := context, eventCount := count } =
          ((m.askInbox target r s).1,
            { (m.askInbox target r s).2.1 with context := context, eventCount := count },
            (m.askInbox target r s).2.2) := by
      intro target r
      simp only [Memory.askInbox]
      split <;> rfl
    rw [send_cons, send_cons]
    simp only [hask]
    exact ih _ _

lemma launch_eq_post (code : Code K U) (id : EventId) (ev : Event (Task K)) (s : Simulator K)
    (m : Memory K U) (rest : List (Frame K U)) :
    launch code id ev s m rest = (launch code.mute id ev s m rest).post
      (observerMessages code s (infoOf (id, ev)) m.user) := by
  have hsend := (send_unchanged (observerMessages code s (infoOf (id, ev)) m.user) s
    { m with user := observed code s (infoOf (id, ev)) m.user }).1
  have hnotify := notify_eq_send code (infoOf (id, ev)) s m
  have hmute := notify_mute code (infoOf (id, ev)) s m
  rw [infoOf] at hnotify hmute hsend ⊢
  rw [launch, launch, post, hnotify, hmute]
  dsimp only
  rw [send_setContext ev.context (s.eventCount + 1)]
  generalize send s _ _ = r at hsend ⊢
  obtain ⟨s', m'⟩ := r
  dsimp only at hsend ⊢
  rw [hsend]

/-- A step is a step in which the observer keeps silent, followed by its messages. -/
theorem step_eq_post (code : Code K U) {a : Machine K U} (h : a.sim.Timely keys) :
    step code a = (step code.mute a).post (a.messages code) := by
  obtain ⟨s, m, stack, broken⟩ := a
  cases stack with
  | nil => rfl
  | cons f rest =>
    by_cases hf : f = .next
    · subst hf
      rw [step, step, stepFrame, stepFrame, takeNext, takeNext, messages, taken?]
      split
      · rfl
      · rcases hnext : s.scheduler.removeNext with ⟨_ | ⟨id, ev⟩, q⟩
        · rfl
        · have hnot : ¬ev.key.time < s.now := Int.not_lt.mpr (h.take hnext).1
          dsimp only
          rw [dispatch, dispatch, if_neg hnot, if_neg hnot]
          cases ev.cancelled with
          | true => rfl
          | false =>
            exact launch_eq_post code id ev { s with scheduler := q, now := ev.key.time } m rest
    · cases f with
      | next => exact absurd rfl hf
      | _ => rfl

lemma course_post (ms : List (Message K)) (a : Machine K U) : Course a.sim [] (a.post ms).sim :=
  course_send ms a.sim a.memory

lemma gains_post (msg : Message K) (a : Machine K U) :
    a.sim.inbox.Gains (msg.handsIn a.sim.identity) (a.post [msg]).sim.inbox := by
  rw [post, send_cons]
  exact a.memory.gains_askInbox msg.request.1 msg.request.2 a.sim

end Machine

end EventKernel
