import EventKernel.Machine.Basic
import EventKernel.Proofs.Machine.Run
import EventKernel.Proofs.Timer.Turn

/-!
# The turns of events in a run

Each step of a machine tells the turns it brings to the events of its simulator. A step that does
not take an event off the queue is a course of elementary changes with these turns.
-/

namespace EventKernel

open Simulator (Chain Course EventCourse issueTurns)

variable {K U : Type}

/-! ### Requests -/

namespace SimRequest

def turns : SimRequest K → Simulator K → List (Turn K)
  | schedule delay k, s => issueTurns (s.schedule delay (.user k))
  | scheduleNow k, s => issueTurns (s.scheduleNow (.user k))
  | scheduleWith c delay k, s => issueTurns (s.scheduleWith c delay (.user k))
  | scheduleDestroy k, s => issueTurns (s.scheduleDestroy (.user k))
  | stopAfter delay, s => issueTurns (s.stopAfter delay)
  | cancel id, s => s.cancelTurns id
  | remove id, s => s.removeTurns id
  | isExpired _, _ | delayLeft _, _ | identity, _ | now, _ | context, _ | phase, _ | eventCount, _
  | pendingEvents, _ | isFinished, _ | stop, _ | kind, _ | setScheduler _, _ | sync, _
  | boundLookahead _, _ | observe _, _ | describe, _ => []

/-- A request concerns events, or it changes settings and perhaps asks for a stop. -/
lemma effect_apply (r : SimRequest K) (s : Simulator K) :
    EventCourse s (r.turns s) (r.apply s).2 ∨
      r.turns s = [] ∧ ∃ stop sync observer, (stop = s.stopRequested ∨ r = .stop) ∧
        (r.apply s).2 = { s with stopRequested := stop, sync := sync, observer := observer } := by
  cases r with
  | schedule delay k => exact Or.inl (s.course_schedule delay (.user k))
  | scheduleNow k => exact Or.inl (s.course_schedule .zero (.user k))
  | scheduleWith context delay k => exact Or.inl (s.course_scheduleWith context delay (.user k))
  | scheduleDestroy k => exact Or.inl (s.course_scheduleDestroy k)
  | stopAfter delay => exact Or.inl (s.course_scheduleWith .none delay .stop)
  | cancel id => exact Or.inl (s.course_cancel id)
  | remove id => exact Or.inl (.single (.remove s id))
  | setScheduler kind => exact Or.inl (.single (.setKind s kind))
  | stop => exact Or.inr ⟨rfl, true, s.sync, s.observer, Or.inr rfl, rfl⟩
  | boundLookahead | observe => exact Or.inr ⟨rfl, s.stopRequested, _, _, Or.inl rfl, rfl⟩
  | isExpired | delayLeft | identity | now | context | phase | eventCount | pendingEvents
  | isFinished | kind | sync | describe => exact Or.inl (.refl s)

lemma course_apply (r : SimRequest K) (s : Simulator K) : Course s (r.turns s) (r.apply s).2 := by
  rcases r.effect_apply s with h | ⟨hnil, stop, sync, observer, -, h⟩
  · exact h.course
  · rw [hnil, h]
    exact .single (.other ..)

end SimRequest

lemma InboxRequest.course_apply (r : InboxRequest K) (s : Simulator K) :
    Course s [] { s with inbox := (r.apply s.inbox).2 } := by
  cases r with
  | schedule context delay k => exact s.course_push context delay k
  | stop => exact Simulator.course_inbox fun _ hev => hev
  | isClosed | describe => exact .refl s

namespace WatchdogRequest

def turns (self : Nat) : WatchdogRequest K → Watchdog K → Simulator K → List (Turn K)
  | ping delay, w, s => w.pingTurns self delay s
  | setFunction _, _, _ | cancel, _, _ | info, _, _ => []

lemma course_apply (self : Nat) (r : WatchdogRequest K) (w : Watchdog K) (s : Simulator K) :
    EventCourse s (r.turns self w s) (r.apply self w s).2.2 := by
  cases r with
  | ping delay => exact w.course_ping self delay s
  | setFunction | cancel | info => exact .refl s

end WatchdogRequest

namespace TrickleRequest

def turns (self : Nat) : TrickleRequest K → Trickle K → Simulator K → List (Turn K)
  | enable, t, s => t.drawn.beginTurns self s
  | reset, t, s => t.resetTurns self s
  | inconsistent, t, s => t.inconsistentTurns self s
  | stop, t, s => t.stopTurns s
  | setFunction _, _, _ | consistent, _, _ | info, _, _ => []

lemma course_apply (self : Nat) (r : TrickleRequest K) (t : Trickle K) (s : Simulator K) :
    EventCourse s (r.turns self t s) (r.apply self t s).2.2 := by
  cases r with
  | enable => exact t.course_enable self s
  | reset => exact t.course_reset self s
  | inconsistent => exact t.course_inconsistent self s
  | stop => exact t.course_stop s
  | setFunction | consistent | info => exact .refl s

end TrickleRequest

lemma Memory.course_askInbox (target : Nat) (r : InboxRequest K) (s : Simulator K)
    (m : Memory K U) : Course s [] (m.askInbox target r s).2.1 := by
  rw [askInbox]
  split
  · exact r.course_apply s
  · exact .refl s

lemma Memory.askInbox_unchanged (target : Nat) (r : InboxRequest K) (s : Simulator K)
    (m : Memory K U) :
    (m.askInbox target r s).2.1 = { s with inbox := (m.askInbox target r s).2.1.inbox } ∧
      (m.askInbox target r s).2.2 = { m with inboxes := (m.askInbox target r s).2.2.inboxes } := by
  rw [askInbox]
  split <;> exact ⟨rfl, rfl⟩

namespace Request

def turns : Request K U → Simulator K → Memory K U → List (Turn K)
  | sim r, s, _ => r.turns s
  | watchdog w r, s, m => (m.watchdog? w).toList.flatMap fun d => r.turns w d s
  | trickle t r, s, m => (m.trickle? t).toList.flatMap fun d => r.turns t d s
  | inbox .., _, _ | newWatchdog _, _, _ | dropWatchdog _, _, _ | newTrickle .., _, _
  | dropTrickle _, _, _ | load, _, _ | update _, _, _ => []

/-- What is asked of timers concerns events. -/
lemma eventCourse_apply (r : Request K U) (s : Simulator K) (m : Memory K U)
    (hsim : ∀ r', r ≠ .sim r') (hinbox : ∀ target r', r ≠ .inbox target r') :
    EventCourse s (r.turns s m) (r.apply s m).2.1 := by
  cases r with
  | sim r => exact absurd rfl (hsim r)
  | inbox target r => exact absurd rfl (hinbox target r)
  | watchdog w r =>
    simp only [apply, turns]
    cases m.watchdog? w with
    | none => exact .refl s
    | some d =>
      rw [Option.toList_some, List.flatMap_singleton]
      exact r.course_apply w d s
  | trickle t r =>
    simp only [apply, turns]
    cases m.trickle? t with
    | none => exact .refl s
    | some d =>
      rw [Option.toList_some, List.flatMap_singleton]
      exact r.course_apply t d s
  | newWatchdog | dropWatchdog | newTrickle | dropTrickle | load | update => exact .refl s

lemma course_apply (r : Request K U) (s : Simulator K) (m : Memory K U) :
    Course s (r.turns s m) (r.apply s m).2.1 := by
  cases r with
  | sim r => exact r.course_apply s
  | inbox target r => exact m.course_askInbox target r s
  | _ => exact (eventCourse_apply _ s m (by simp) (by simp)).course

end Request

/-! ### Steps -/

/-- The turns in the start of a task. -/
def Task.turns : Task K → Simulator K → Memory K U → List (Turn K)
  | .watchdog w, s, m => (m.watchdog? w).toList.flatMap fun d => d.expireTurns w s
  | .trickleInterval t, s, m => (m.trickle? t).toList.flatMap fun d => d.endTurns t s
  | .user _, _, _ | .stop, _, _ | .trickleFire _, _, _ => []

/-- The event that the loop takes off the queue next, unless it was asked to stop. -/
def Simulator.upcoming? (s : Simulator K) : Option (EventId × Event (Task K)) :=
  if s.stopPending then none else s.scheduler.removeNext.1

lemma Simulator.upcoming?_eq_some_iff {s : Simulator K} {p : EventId × Event (Task K)} :
    s.upcoming? = some p ↔
      s.stopPending = false ∧ ∃ q, s.scheduler.removeNext = (some p, q) := by
  rw [upcoming?]
  cases s.stopPending with
  | true => simp
  | false =>
    rcases s.scheduler.removeNext with ⟨found, q⟩
    simp

/-- The turns in what a frame asks for. -/
def Frame.turns : Frame K U → Simulator K → Memory K U → List (Turn K)
  | .exec (.ask r _), s, m => r.turns s m
  | .task t, s, m => t.turns s m
  | .loop, s, _ => s.drainTurns
  | .next, s, _ => s.upcoming?.toList.flatMap fun p => s.takeTurn p.1
  | .teardown, s, _ => s.teardownTurns
  | .clear, s, _ => s.dropTurns
  | .exec _, _, _ | .restore _, _, _ | .rearmWatchdog .., _, _ | .rearmTrickle .., _, _
  | .close, _, _ => []

namespace Machine

/-- The turns of a move. -/
def turns (a : Machine K U) : Move K U → List (Turn K)
  | .step => a.stack.head?.toList.flatMap fun f => f.turns a.sim a.memory
  | .remote _ | .enter .. => []

lemma turns_step (f : Frame K U) (s : Simulator K) (m : Memory K U) (rest : List (Frame K U))
    (broken : Bool) : turns ⟨s, m, f :: rest, broken⟩ .step = f.turns s m :=
  List.flatMap_singleton ..

/-- A step does what the frame on top asks for. -/
lemma step_of_stack (code : Code K U) {a : Machine K U} {f : Frame K U} {rest : List (Frame K U)}
    (hstack : a.stack = f :: rest) : step code a = stepFrame code f a.sim a.memory rest := by
  obtain ⟨s, m, stack, broken⟩ := a
  obtain rfl : stack = f :: rest := hstack
  rfl

lemma turns_of_stack {a : Machine K U} {f : Frame K U} {rest : List (Frame K U)}
    (hstack : a.stack = f :: rest) : a.turns .step = f.turns a.sim a.memory := by
  rw [turns, hstack]
  exact List.flatMap_singleton ..

lemma upcoming?_of_taken? {a : Machine K U} {p : EventId × Event (Task K)}
    (htaken : a.taken? = some p) : a.sim.upcoming? = some p := by
  obtain ⟨rest, hstack⟩ := stack_of_taken? htaken
  rw [← htaken, taken?, hstack]
  rfl

/-- The turns of a run, in order. -/
def chronicle (code : Code K U) : List (Move K U) → Machine K U → List (Turn K)
  | [], _ => []
  | mv :: moves, a => a.turns mv ++ chronicle code moves (move code a mv)

lemma course_send (ms : List (Message K)) (s : Simulator K) (m : Memory K U) :
    Course s [] (send s m ms).1 := by
  induction ms generalizing s m with
  | nil => exact .refl s
  | cons msg ms ih =>
    cases msg with
    | schedule target context delay k =>
      exact (m.course_askInbox target (.schedule context delay k) s).trans (ih _ _)
    | stop target => exact (m.course_askInbox target .stop s).trans (ih _ _)

lemma course_notify (code : Code K U) (info : EventInfo) (s : Simulator K) (m : Memory K U) :
    Course s [] (notify code info s m).1 := by
  rw [notify]
  split
  · exact .refl s
  · exact course_send _ s _

/-- Messages reach inboxes and nothing else. -/
lemma send_unchanged (ms : List (Message K)) (s : Simulator K) (m : Memory K U) :
    (send s m ms).1 = { s with inbox := (send s m ms).1.inbox } ∧
      (send s m ms).2 = { m with inboxes := (send s m ms).2.inboxes } := by
  induction ms generalizing s m with
  | nil => exact ⟨rfl, rfl⟩
  | cons msg ms ih =>
    cases msg with
    | schedule target context delay k =>
      obtain ⟨hs, hm⟩ := m.askInbox_unchanged target (.schedule context delay k) s
      rw [send, (ih _ _).1, (ih _ _).2, hs, hm]
      exact ⟨rfl, rfl⟩
    | stop target =>
      obtain ⟨hs, hm⟩ := m.askInbox_unchanged target .stop s
      rw [send, (ih _ _).1, (ih _ _).2, hs, hm]
      exact ⟨rfl, rfl⟩

/-- The observer reaches inboxes and the state of the user, and nothing else. -/
lemma notify_unchanged (code : Code K U) (info : EventInfo) (s : Simulator K) (m : Memory K U) :
    (notify code info s m).1 = { s with inbox := (notify code info s m).1.inbox } ∧
      (notify code info s m).2 = { m with
        inboxes := (notify code info s m).2.inboxes, user := (notify code info s m).2.user } := by
  rw [notify]
  split
  · exact ⟨rfl, rfl⟩
  · refine ⟨(send_unchanged _ _ _).1, ?_⟩
    rw [(send_unchanged _ _ _).2]

/-- All tasks but a stop concern events. -/
lemma eventCourse_start (code : Code K U) (t : Task K) (s : Simulator K) (m : Memory K U)
    (rest : List (Frame K U)) (ht : t ≠ .stop) :
    EventCourse s (t.turns s m) (start code t s m rest).sim := by
  cases t with
  | user k => exact .refl s
  | stop => exact absurd rfl ht
  | watchdog w =>
    rw [start, Task.turns]
    cases m.watchdog? w with
    | none => exact .refl s
    | some d =>
      rw [Option.toList_some, List.flatMap_singleton]
      dsimp only
      have h := d.course_expire w s
      split
      · next hd => rwa [hd] at h
      · next hd => rwa [hd] at h
  | trickleInterval t =>
    rw [start, Task.turns]
    cases m.trickle? t with
    | none => exact .refl s
    | some d =>
      rw [Option.toList_some, List.flatMap_singleton]
      exact d.course_endInterval t s
  | trickleFire t =>
    rw [start, Task.turns]
    split
    · exact .refl s
    · split
      · exact .refl s
      · exact .refl s

lemma broken_start (code : Code K U) (t : Task K) (s : Simulator K) (m : Memory K U)
    (rest : List (Frame K U)) : (start code t s m rest).broken = false := by
  cases t with
  | user | stop => rfl
  | watchdog w | trickleFire t =>
    rw [start]
    split
    · rfl
    · split <;> rfl
  | trickleInterval t =>
    rw [start]
    split <;> rfl

lemma course_start (code : Code K U) (t : Task K) (s : Simulator K) (m : Memory K U)
    (rest : List (Frame K U)) : Course s (t.turns s m) (start code t s m rest).sim := by
  cases t with
  | stop => exact .single (.other ..)
  | _ => exact (eventCourse_start code _ s m rest (by simp)).course

lemma course_finishRun (s : Simulator K) : Course s [] (finishRun s) := by
  have hstop : Course s [] { s with inbox := s.inbox.clearStop } :=
    Simulator.course_inbox fun _ hev => hev
  exact hstop.quiet (.other ..)

/-! ### Rounds of the loop -/

/-- The state in which the callback of an event is about to start. -/
def launch (code : Code K U) (id : EventId) (ev : Event (Task K)) (s : Simulator K)
    (m : Memory K U) (rest : List (Frame K U)) : Machine K U :=
  let (s, m) := notify code ⟨id, ev.key.time, ev.context⟩ s m
  ⟨{ s with context := ev.context, eventCount := s.eventCount + 1 }, m,
    .task ev.task :: .restore s.context :: .loop :: rest, false⟩

/-- What a round of the loop comes to once the inbox is empty. -/
inductive Round (code : Code K U) (s : Simulator K) (m : Memory K U) (rest : List (Frame K U)) :
    Machine K U → Prop where
  | finish (hnone : s.upcoming? = none)
      (hempty : s.stopPending = true ∨ s.scheduler.arena.entries = []) :
      Round code s m rest ⟨finishRun s, m, rest, false⟩
  | pass {id : EventId} {ev : Event (Task K)} {q : Scheduler (Task K)}
      (hsome : s.upcoming? = some (id, ev)) (hnext : s.scheduler.removeNext = (some (id, ev), q))
      (hcancelled : ev.cancelled = true) :
      Round code s m rest ⟨{ s with scheduler := q, now := ev.key.time }, m, .loop :: rest, false⟩
  | start {id : EventId} {ev : Event (Task K)} {q : Scheduler (Task K)}
      (hsome : s.upcoming? = some (id, ev)) (hnext : s.scheduler.removeNext = (some (id, ev), q))
      (hlive : ev.cancelled = false) :
      Round code s m rest (launch code id ev { s with scheduler := q, now := ev.key.time } m rest)

/-- A round goes well as long as no stored event lies before the clock. -/
lemma round_takeNext (code : Code K U) {s : Simulator K} (m : Memory K U) (rest : List (Frame K U))
    (hc : s.scheduler.Consistent) (hnow : ∀ e ∈ s.scheduler.arena.entries, s.now ≤ e.key.time) :
    Round code s m rest (takeNext code s m rest) := by
  rw [takeNext]
  split
  · next hstop => exact .finish (if_pos hstop) (Or.inl hstop)
  · next hstop =>
    have hup : s.upcoming? = s.scheduler.removeNext.1 := if_neg hstop
    rcases hnext : s.scheduler.removeNext with ⟨_ | ⟨id, ev⟩, q⟩
    · rw [hnext] at hup
      obtain ⟨hnil, hsame⟩ := hc.removeNext_eq_none (by rw [hnext])
      rw [hnext] at hsame
      obtain rfl : q = s.scheduler := hsame
      exact .finish hup (Or.inr hnil)
    · rw [hnext] at hup
      obtain ⟨hev, -⟩ := hc.get?_removeNext hnext
      have hle : s.now ≤ ev.key.time := by
        cases id with
        | queued slot n => exact hnow _ (Arena.mem_entries_of_get? hev)
        | destroy n => cases hev
      have hnot : ¬ev.key.time < s.now := Int.not_lt.mpr hle
      dsimp only
      rw [dispatch, if_neg hnot]
      cases hcancelled : ev.cancelled with
      | true => exact .pass hup hnext hcancelled
      | false => exact .start hup hnext hcancelled

/-- When a callback is about to start, only context and count differ from what a course leads to. -/
lemma course_launch (code : Code K U) (id : EventId) (ev : Event (Task K)) (s : Simulator K)
    (m : Memory K U) (rest : List (Frame K U)) :
    ∃ t, Course s [] t ∧ (launch code id ev s m rest).sim =
      { t with eventCount := s.eventCount + 1 } := by
  have hcourse := course_notify code ⟨id, ev.key.time, ev.context⟩ s m
  rw [launch]
  generalize notify code ⟨id, ev.key.time, ev.context⟩ s m = r at hcourse ⊢
  obtain ⟨t, m'⟩ := r
  refine ⟨{ t with context := ev.context }, hcourse.quiet ?_, ?_⟩
  · exact .other t ev.context t.phase t.stopRequested t.sync t.observer
  · rw [← hcourse.unchanged.2.2]

lemma launch_unchanged (code : Code K U) (id : EventId) (ev : Event (Task K)) (s : Simulator K)
    (m : Memory K U) (rest : List (Frame K U)) :
    (launch code id ev s m rest).sim = { s with
      inbox := (launch code id ev s m rest).sim.inbox, context := ev.context,
      eventCount := s.eventCount + 1 } ∧
    (launch code id ev s m rest).memory = { m with
      inboxes := (launch code id ev s m rest).memory.inboxes,
      user := (launch code id ev s m rest).memory.user } := by
  obtain ⟨hsim, hmemory⟩ := notify_unchanged code ⟨id, ev.key.time, ev.context⟩ s m
  rw [launch]
  generalize notify code ⟨id, ev.key.time, ev.context⟩ s m = r at hsim hmemory ⊢
  obtain ⟨t, m'⟩ := r
  dsimp only at hsim hmemory ⊢
  exact ⟨by rw [hsim], hmemory⟩

/-! ### Frames -/

lemma course_exec (p : Program K U PUnit) (s : Simulator K) (m : Memory K U)
    (rest : List (Frame K U)) :
    (exec p s m rest).broken = false ∧
      Course s ((Frame.exec p).turns s m) (exec p s m rest).sim := by
  cases p with
  | done a => exact ⟨rfl, .refl s⟩
  | ask r next => exact ⟨rfl, r.course_apply s m⟩
  | perform k next => exact ⟨rfl, .refl s⟩
  | run next =>
    rw [exec]
    split
    · exact ⟨rfl, .refl s⟩
    · exact ⟨rfl, .refl s⟩
    · exact ⟨rfl, .single (.other ..)⟩
    · exact ⟨rfl, .single (.other ..)⟩
  | destroy next =>
    rw [exec]
    split
    · exact ⟨rfl, .refl s⟩
    · exact ⟨rfl, .refl s⟩
    · exact ⟨rfl, .single (.other ..)⟩
    · exact ⟨rfl, .single (.other ..)⟩

lemma course_nextTeardown (s : Simulator K) (m : Memory K U) (rest : List (Frame K U)) :
    (nextTeardown s m rest).broken = false ∧
      Course s s.teardownTurns (nextTeardown s m rest).sim := by
  rw [nextTeardown]
  dsimp only
  split
  · exact ⟨rfl, .single (.events (.popLive s))⟩
  · exact ⟨rfl, .single (.events (.popLive s))⟩

/-- A frame that takes no event off the queue is a course of elementary changes. -/
lemma course_stepFrame (code : Code K U) (f : Frame K U) (s : Simulator K) (m : Memory K U)
    (rest : List (Frame K U)) (hf : f ≠ .next)
    (hinbox : ∀ ev ∈ s.inbox.events, ev.delay.isNegative = false) :
    (stepFrame code f s m rest).broken = false ∧
      Course s (f.turns s m) (stepFrame code f s m rest).sim := by
  cases f with
  | exec p => exact course_exec p s m rest
  | task t => exact ⟨broken_start code t s m rest, course_start code t s m rest⟩
  | loop => exact ⟨rfl, Simulator.course_drainInbox hinbox⟩
  | next => exact absurd rfl hf
  | restore context => exact ⟨rfl, .single (.other ..)⟩
  | rearmWatchdog w k => exact ⟨rfl, .refl s⟩
  | rearmTrickle t k => exact ⟨rfl, .refl s⟩
  | teardown => exact course_nextTeardown s m rest
  | close =>
    have hclose : Course s [] { s with inbox := s.inbox.close } :=
      Simulator.course_inbox fun _ hev => hev
    exact ⟨rfl, hclose.quiet (.other ..)⟩
  | clear =>
    refine ⟨rfl, (Chain.single (.events (.clear s))).quiet ?_⟩
    exact .inbox _ s.inbox.clear fun ev hev => by simp [Inbox.clear] at hev

end Machine

end EventKernel
