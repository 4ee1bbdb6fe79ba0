import EventKernel.Proofs.Machine.Alike
import EventKernel.Proofs.Machine.Run

/-!
# The kind of the queue does not show

Two machines that run the same code on simulators that differ in their queues make the same steps:
the same events are dispatched, requests are given the same answers, and the simulators go on to
differ in their queues only, whatever their kinds are and whenever they are exchanged. The code must
not depend on the queue.
-/

namespace EventKernel

variable {K U : Type} {R : U → U → Prop} {s t : Simulator K} {m m' : Memory K U}

/-! ### Machines -/

/-- Whether a frame is the rest of a program. -/
def Frame.isExec : Frame K U → Bool
  | .exec _ => true
  | _ => false

/-- Two frames that do the same as long as the same answers are given. -/
inductive Frame.Alike (R : U → U → Prop) : Frame K U → Frame K U → Prop where
  | exec {p p' : Program K U PUnit} (h : p.Alike R p') : Alike R (.exec p) (.exec p')
  | same (f : Frame K U) (hf : f.isExec = false) : Alike R f f

/-- Two machines that differ in the queues of their simulators and in what the user recorded about
them. -/
structure Machine.Alike (R : U → U → Prop) (a b : Machine K U) : Prop where
  sim : a.sim.Alike b.sim
  memory : a.memory.Alike R b.memory
  stack : List.Forall₂ (Frame.Alike R) a.stack b.stack
  broken : b.broken = a.broken

/-- What is seen of a move: the event it dispatches, the answer it gives, and the simulator
afterwards but for its queue. -/
structure Observation (K U : Type) where
  dispatched : Option EventInfo
  answer : Option ((r : Request K U) × r.Reply)
  sim : Simulator K

namespace Simulator

/-- The simulator without its queue. -/
def withoutQueue (s : Simulator K) : Simulator K :=
  { s with scheduler := ⟨s.scheduler.arena, .list [], 0⟩ }

lemma Alike.withoutQueue_eq (h : s.Alike t) : t.withoutQueue = s.withoutQueue := by
  obtain ⟨hr⟩ := h
  simp only [withoutQueue, hr.arena_eq]

end Simulator

/-- A move that does not depend on the queue. -/
def Move.Blind (R : U → U → Prop) : Move K U → Prop
  | .step => True
  | .remote _ => True
  | .enter f p => (∀ m m', m.Alike R m' → (f m).Alike R (f m')) ∧ p.Alike R p

namespace Machine

variable {rest rest' : List (Frame K U)} {a b : Machine K U} {code : Code K U}

/-- The event the next step dispatches. -/
def dispatched? (a : Machine K U) : Option EventInfo :=
  a.taken?.bind fun (id, ev) =>
    if ev.cancelled then none else some ⟨id, ev.key.time, ev.context⟩

/-- The answer the next step gives to a request, as far as it is shown. -/
def answer? (a : Machine K U) : Option ((r : Request K U) × r.Reply) :=
  match a.stack with
  | .exec (.ask r _) :: _ => r.shown (r.apply a.sim a.memory).1
  | _ => none

/-- What is seen of a move. -/
def observe (code : Code K U) (a : Machine K U) (mv : Move K U) : Observation K U where
  dispatched :=
    match mv with
    | .step => a.dispatched?
    | _ => none
  answer :=
    match mv with
    | .step => a.answer?
    | _ => none
  sim := (move code a mv).sim.withoutQueue

/-- What is seen of a run. -/
def observations (code : Code K U) : List (Move K U) → Machine K U → List (Observation K U)
  | [], _ => []
  | mv :: moves, a => observe code a mv :: observations code moves (move code a mv)

/-! ### Steps -/

lemma alike_send (hs : s.Alike t) (hm : m.Alike R m') (ms : List (Message K)) :
    ∃ s' t' n n', send s m ms = (s', n) ∧ send t m' ms = (t', n') ∧ s'.Alike t' ∧
      n.Alike R n' := by
  induction ms generalizing s t m m' with
  | nil => exact ⟨s, t, m, m', rfl, rfl, hs, hm⟩
  | cons msg ms ih =>
    cases msg with
    | schedule target context delay k =>
      obtain ⟨_, s', t', n, n', hs', ht', h', hn⟩ :=
        Memory.alike_askInbox hs hm target (.schedule context delay k)
      simp only [send, hs', ht']
      exact ih h' hn
    | stop target =>
      obtain ⟨_, s', t', n, n', hs', ht', h', hn⟩ := Memory.alike_askInbox hs hm target .stop
      simp only [send, hs', ht']
      exact ih h' hn

lemma alike_notify (hcode : code.Blind R) (hs : s.Alike t) (hm : m.Alike R m')
    (info : EventInfo) :
    ∃ s' t' n n', notify code info s m = (s', n) ∧ notify code info t m' = (t', n') ∧
      s'.Alike t' ∧ n.Alike R n' := by
  obtain ⟨hr⟩ := hs
  obtain @⟨u, hu⟩ := hm
  rw [notify, notify]
  dsimp only
  split
  · exact ⟨s, _, m, _, rfl, rfl, .intro s hr, .intro m hu⟩
  · next k _ =>
    obtain ⟨hstate, hmessages⟩ := hcode.observe k s.identity info m.user u hu
    rw [← hmessages]
    exact alike_send (.intro s hr)
      (.intro { m with user := (code.observe k s.identity info m.user).1 } hstate) _

lemma alike_start (hcode : code.Blind R) (hs : s.Alike t) (hm : m.Alike R m') (task : Task K)
    (hrest : List.Forall₂ (Frame.Alike R) rest rest') :
    (start code task s m rest).Alike R (start code task t m' rest') := by
  cases task with
  | user k => exact ⟨hs, hm, .cons (.exec (hcode.routine k)) hrest, rfl⟩
  | stop =>
    obtain ⟨hr⟩ := hs
    exact ⟨.intro s.stop hr, hm, hrest, rfl⟩
  | watchdog w =>
    obtain ⟨hu⟩ := hm
    rw [start, start]
    dsimp only [Memory.watchdog?]
    split
    · exact ⟨hs, .intro m hu, hrest, rfl⟩
    · next d _ =>
      obtain ⟨k, d', s', t', hs', ht', h'⟩ := Watchdog.alike_expire hs w d
      rw [hs', ht']
      cases k with
      | none => exact ⟨h', .intro (m.setWatchdog w (some d')) hu, hrest, rfl⟩
      | some k =>
        exact ⟨h', .intro (m.setWatchdog w (some d')) hu,
          .cons (.exec (hcode.routine k)) (.cons (.same _ rfl) hrest), rfl⟩
  | trickleInterval i =>
    obtain ⟨hu⟩ := hm
    rw [start, start]
    dsimp only [Memory.trickle?]
    split
    · exact ⟨hs, .intro m hu, hrest, rfl⟩
    · next d _ =>
      obtain ⟨d', s', t', hs', ht', h'⟩ := Trickle.alike_endInterval hs i d
      rw [hs', ht']
      exact ⟨h', .intro (m.setTrickle i (some d')) hu, hrest, rfl⟩
  | trickleFire i =>
    obtain ⟨hu⟩ := hm
    rw [start, start]
    dsimp only [Memory.trickle?]
    split
    · exact ⟨hs, .intro m hu, hrest, rfl⟩
    · split
      · next d' _ => exact ⟨hs, .intro (m.setTrickle i (some d')) hu, hrest, rfl⟩
      · next k d' _ =>
        exact ⟨hs, .intro (m.setTrickle i (some d')) hu,
          .cons (.exec (hcode.routine k)) (.cons (.same _ rfl) hrest), rfl⟩

lemma alike_finishRun (hs : s.Alike t) : (finishRun s).Alike (finishRun t) := by
  obtain ⟨hr⟩ := hs
  exact .intro (finishRun s) hr

lemma alike_dispatch (hcode : code.Blind R) (hs : s.Alike t) (hm : m.Alike R m') (id : EventId)
    (ev : Event (Task K)) (hrest : List.Forall₂ (Frame.Alike R) rest rest') :
    (dispatch code id ev s m rest).Alike R (dispatch code id ev t m' rest') := by
  have hloop : List.Forall₂ (Frame.Alike R) (.loop :: rest) (.loop :: rest') :=
    .cons (.same _ rfl) hrest
  have hset : { s with now := ev.key.time }.Alike { t with now := ev.key.time } := by
    obtain ⟨hr⟩ := hs
    exact .intro { s with now := ev.key.time } hr
  obtain ⟨s', t', n, n', hs', ht', h', hn⟩ :=
    alike_notify hcode hset hm ⟨id, ev.key.time, ev.context⟩
  rw [dispatch, dispatch]
  rw [hs.now_eq]
  split
  · exact ⟨hs, hm, .nil, rfl⟩
  · dsimp only
    split
    · exact ⟨hset, hm, hloop, rfl⟩
    · rw [hs', ht']
      obtain ⟨hr'⟩ := h'
      exact ⟨.intro { s' with context := ev.context, eventCount := s'.eventCount + 1 } hr', hn,
        .cons (.same _ rfl) (.cons (.same _ rfl) hloop), rfl⟩

lemma alike_takeNext (hcode : code.Blind R) (hs : s.Alike t) (hm : m.Alike R m')
    (hrest : List.Forall₂ (Frame.Alike R) rest rest') :
    (takeNext code s m rest).Alike R (takeNext code t m' rest') := by
  have hstop : t.stopPending = s.stopPending := by
    obtain ⟨-⟩ := hs
    rfl
  rw [takeNext, takeNext]
  rw [hstop]
  split
  · exact ⟨alike_finishRun hs, hm, hrest, rfl⟩
  · obtain ⟨hr⟩ := hs
    obtain ⟨found, q, r', hq, hr', h'⟩ := hr.removeNext
    have hleft : Simulator.Alike { s with scheduler := q } { s with scheduler := r' } :=
      .intro { s with scheduler := q } h'
    rw [hq, hr']
    cases found with
    | none => exact ⟨alike_finishRun hleft, hm, hrest, rfl⟩
    | some p => exact alike_dispatch hcode hleft hm p.1 p.2 hrest

lemma alike_exec {p p' : Program K U PUnit} (hp : p.Alike R p') (hs : s.Alike t)
    (hm : m.Alike R m') (hrest : List.Forall₂ (Frame.Alike R) rest rest') :
    (exec p s m rest).Alike R (exec p' t m' rest') := by
  have hphase : t.phase = s.phase := by
    obtain ⟨-⟩ := hs
    rfl
  cases hp with
  | done a => exact ⟨hs, hm, hrest, rfl⟩
  | ask r hr h =>
    obtain ⟨a, b, s', t', n, n', hs', ht', hab, h', hn⟩ := r.alike_apply hs hm hr
    simp only [exec, hs', ht']
    exact ⟨h', hn, .cons (.exec (h a b hab)) hrest, rfl⟩
  | @update f g _ _ hfg h =>
    obtain ⟨hu⟩ := hm
    exact ⟨hs, .intro { m with user := f m.user } (hfg _ _ hu), .cons (.exec h) hrest, rfl⟩
  | perform k h => exact ⟨hs, hm, .cons (.same _ rfl) (.cons (.exec h) hrest), rfl⟩
  | run h =>
    rw [exec, exec]
    rw [hphase]
    split
    · exact ⟨hs, hm, .cons (.exec (h _)) hrest, rfl⟩
    · exact ⟨hs, hm, .cons (.exec (h _)) hrest, rfl⟩
    all_goals
      obtain ⟨hr⟩ := hs
      exact ⟨.intro { s with phase := .running } hr, hm,
        .cons (.same _ rfl) (.cons (.exec (h _)) hrest), rfl⟩
  | destroy h =>
    rw [exec, exec]
    rw [hphase]
    split
    · exact ⟨hs, hm, .cons (.exec (h _)) hrest, rfl⟩
    · exact ⟨hs, hm, .cons (.exec (h _)) hrest, rfl⟩
    all_goals
      obtain ⟨hr⟩ := hs
      exact ⟨.intro { s with context := .none } hr, hm,
        .cons (.same _ rfl) (.cons (.exec (h _)) hrest), rfl⟩

lemma alike_nextTeardown (hs : s.Alike t) (hm : m.Alike R m')
    (hrest : List.Forall₂ (Frame.Alike R) rest rest') :
    (nextTeardown s m rest).Alike R (nextTeardown t m' rest') := by
  obtain ⟨hr⟩ := hs
  have hpop : Simulator.Alike { s with teardown := s.teardown.popLive.2 }
      { s with teardown := s.teardown.popLive.2, scheduler := _ } :=
    .intro { s with teardown := s.teardown.popLive.2 } hr
  rw [nextTeardown, nextTeardown]
  dsimp only
  split
  · exact ⟨hpop, hm, .cons (.same _ rfl) (.cons (.same _ rfl) hrest), rfl⟩
  · exact ⟨hpop, hm, .cons (.same _ rfl) hrest, rfl⟩

lemma alike_stepFrame (hcode : code.Blind R) {f f' : Frame K U} (hf : f.Alike R f')
    (hs : s.Alike t) (hm : m.Alike R m') (hrest : List.Forall₂ (Frame.Alike R) rest rest') :
    (stepFrame code f s m rest).Alike R (stepFrame code f' t m' rest') := by
  cases hf with
  | exec hp => exact alike_exec hp hs hm hrest
  | same f hf =>
    cases f with
    | exec p => cases hf
    | task task => exact alike_start hcode hs hm task hrest
    | loop => exact ⟨hs.drainInbox, hm, .cons (.same _ rfl) hrest, rfl⟩
    | next => exact alike_takeNext hcode hs hm hrest
    | teardown => exact alike_nextTeardown hs hm hrest
    | rearmWatchdog w k =>
      obtain ⟨hu⟩ := hm
      exact ⟨hs, .intro (m.setWatchdog w _) hu, hrest, rfl⟩
    | rearmTrickle i k =>
      obtain ⟨hu⟩ := hm
      exact ⟨hs, .intro (m.setTrickle i _) hu, hrest, rfl⟩
    | restore context =>
      obtain ⟨hr⟩ := hs
      exact ⟨.intro { s with context := context } hr, hm, hrest, rfl⟩
    | close =>
      obtain ⟨hr⟩ := hs
      exact ⟨.intro { s with phase := .destroyed, inbox := s.inbox.close } hr, hm,
        .cons (.same _ rfl) hrest, rfl⟩
    | clear =>
      obtain ⟨hr⟩ := hs
      exact ⟨.intro { s with inbox := s.inbox.clear, teardown := [], scheduler := _ } hr.clear, hm,
        hrest, rfl⟩

/-! ### Moves and runs -/

lemma Alike.taken?_eq (h : a.Alike R b) : b.taken? = a.taken? := by
  obtain ⟨s, m, stack, broken⟩ := a
  obtain ⟨t, m', stack', broken'⟩ := b
  obtain ⟨hs, -, hstack, -⟩ := h
  cases hstack with
  | nil => rfl
  | @cons f _ _ _ hf _ =>
    cases hf with
    | exec _ => rfl
    | same _ _ =>
      cases f with
      | next =>
        obtain ⟨hr⟩ := hs
        obtain ⟨found, q, r', hq, hr', -⟩ := hr.removeNext
        simp only [taken?, Simulator.stopPending, hq, hr']
      | _ => rfl

lemma Alike.answer?_eq (h : a.Alike R b) : b.answer? = a.answer? := by
  obtain ⟨s, m, stack, broken⟩ := a
  obtain ⟨t, m', stack', broken'⟩ := b
  obtain ⟨hs, hm, hstack, -⟩ := h
  cases hstack with
  | nil => rfl
  | @cons f _ _ _ hf _ =>
    cases hf with
    | exec hp =>
      cases hp with
      | ask r hr _ =>
        obtain ⟨a, b, _, _, _, _, hs', ht', hab, -⟩ := r.alike_apply hs hm hr
        simp only [answer?, hs', ht']
        exact Request.shown_eq hab
      | _ => rfl
    | same _ hf =>
      cases f with
      | exec p => cases hf
      | _ => rfl

lemma Alike.move (hcode : code.Blind R) {mv : Move K U} (hmv : mv.Blind R) (h : a.Alike R b) :
    (move code a mv).Alike R (Machine.move code b mv) := by
  obtain ⟨s, m, stack, broken⟩ := a
  obtain ⟨t, m', stack', broken'⟩ := b
  obtain ⟨hs, hm, hstack, hbroken⟩ := h
  cases mv with
  | step =>
    cases hstack with
    | nil => exact ⟨hs, hm, .nil, hbroken⟩
    | cons hf hrest => exact alike_stepFrame hcode hf hs hm hrest
  | remote r =>
    obtain ⟨hr⟩ := hs
    exact ⟨.intro { s with inbox := (r.apply s.inbox).2 } hr, hm, hstack, hbroken⟩
  | enter f p =>
    cases hstack with
    | nil => exact ⟨hs, hmv.1 m m' hm, .cons (.exec hmv.2) .nil, hbroken⟩
    | cons hf hrest => exact ⟨hs, hm, .cons hf hrest, hbroken⟩

lemma Alike.observe_eq (hcode : code.Blind R) {mv : Move K U} (hmv : mv.Blind R)
    (h : a.Alike R b) : observe code b mv = observe code a mv := by
  have hsim := (h.move hcode hmv).sim.withoutQueue_eq
  cases mv with
  | step => simp only [observe, dispatched?, h.taken?_eq, h.answer?_eq, hsim]
  | remote r => simp only [observe, hsim]
  | enter f p => simp only [observe, hsim]

lemma Alike.observations_eq (hcode : code.Blind R) {moves : List (Move K U)}
    (hmoves : ∀ mv ∈ moves, mv.Blind R) (h : a.Alike R b) :
    observations code moves b = observations code moves a ∧
      (play code moves a).Alike R (play code moves b) := by
  induction moves generalizing a b with
  | nil => exact ⟨rfl, h⟩
  | cons mv moves ih =>
    have hmv : mv.Blind R := hmoves mv List.mem_cons_self
    obtain ⟨hseen, hplay⟩ :=
      ih (fun x hx => hmoves x (List.mem_cons_of_mem mv hx)) (h.move hcode hmv)
    refine ⟨?_, hplay⟩
    rw [observations, observations, h.observe_eq hcode hmv, hseen]

/-- Whatever kinds of queues two simulators start with, and however often the code exchanges them,
nothing that is seen of a run tells them apart. -/
theorem observations_eq_of_blind (hcode : code.Blind R) {moves : List (Move K U)}
    (hmoves : ∀ mv ∈ moves, mv.Blind R) (hm : m.Alike R m')
    (identity : Nat) (sync : SyncMode) (kind kind' : QueueKind) (buckets buckets' : Nat) :
    observations code moves (idle identity kind buckets sync m) =
        observations code moves (idle identity kind' buckets' sync m') ∧
      (play code moves (idle identity kind buckets sync m)).Alike R
        (play code moves (idle identity kind' buckets' sync m')) := by
  have h : (idle identity kind buckets sync m).Alike R (idle identity kind' buckets' sync m') :=
    ⟨Simulator.alike_create .., hm, .nil, rfl⟩
  obtain ⟨hseen, hplay⟩ := h.observations_eq hcode hmoves
  exact ⟨hseen.symm, hplay⟩

/-- A program that records the kind of the queue and schedules two events due at once, the first of
which exchanges the queue. The user counts events besides. -/
def recorder : Code Bool (List QueueKind × Nat) where
  routine
    | true =>
      .ask (.sim .kind) fun kind => .ask (.update fun u => (kind :: u.1, u.2)) fun _ =>
        .ask (.sim (.scheduleNow false)) fun _ => .ask (.sim (.scheduleNow false)) fun _ =>
          .run fun _ => .done ()
    | false =>
      .ask (.sim (.setScheduler .list)) fun _ => .ask (.update fun u => (u.1, u.2 + 1)) fun _ =>
        .done ()
  observe _ _ _ u := (u, [])

lemma recorder_blind : recorder.Blind fun u v => u.2 = v.2 where
  routine k := by
    cases k with
    | true =>
      refine .ask _ (by simp) fun a b _ => .update (fun u v huv => huv) ?_
      refine .ask _ (by simp) fun a b _ => .ask _ (by simp) ?_
      intro c d _
      exact .run fun _ => .done ()
    | false =>
      refine .ask _ (by simp) fun a b _ => .update ?_ (.done ())
      intro u v huv
      exact congrArg (· + 1) huv
  observe _ _ _ u v huv := ⟨huv, rfl⟩

/-- The same is seen on a heap and on a calendar, though the user has recorded their kinds. -/
theorem observations_eq_of_blind_recorder :
    let moves : List (Move Bool (List QueueKind × Nat)) :=
      .enter id (recorder.routine true) :: List.replicate 24 .step
    let a := idle 0 .heap 2 .sequential ⟨#[], #[], #[], ([], 0)⟩
    let b := idle 0 .calendar 7 .sequential ⟨#[], #[], #[], ([], 0)⟩
    observations recorder moves a = observations recorder moves b ∧
      (play recorder moves a).memory.user = ([.heap], 2) ∧
      (play recorder moves b).memory.user = ([.calendar], 2) := by
  intro moves a b
  have hmoves : ∀ mv ∈ moves, mv.Blind fun u v => u.2 = v.2 := by
    intro mv hmv
    rcases List.mem_cons.mp hmv with rfl | hmv
    · exact ⟨fun _ _ h => h, recorder_blind.routine true⟩
    · rw [List.eq_of_mem_replicate hmv]
      trivial
  refine ⟨?_, by decide +kernel, by decide +kernel⟩
  exact (observations_eq_of_blind recorder_blind hmoves (.intro _ rfl) 0 .sequential .heap .calendar
    2 7).1

end Machine

end EventKernel
