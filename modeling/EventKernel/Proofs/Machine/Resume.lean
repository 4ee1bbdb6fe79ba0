import EventKernel.Proofs.Fleet.Basic
import EventKernel.Proofs.Machine.Halt
import EventKernel.Proofs.Machine.Outside

/-!
# Stopping and going on

A program is compared with one that asks its simulator to stop every now and then and otherwise does
the same. Each such request makes the loop return behind the callback that is under way. If the
owner has the events dispatched again whenever the loop has returned, then the same events are taken
off the queue in the same order, and in the end nothing tells the two simulators apart.

In a single run the machine that does not stop takes one step for several of the other one. A
request to stop is passed over at once. When the loop looks for the next event, the other machine
leaves it, and its owner starts it again; nothing has been handed in meanwhile, so the loop comes to
the same place with the same simulator.
-/

namespace EventKernel

open Simulator (Timely)

variable {K U : Type} {i : Nat}

/-! ### Programs that stop now and then -/

/-- The second program does what the first one does, with further requests in between that ask the
simulator `i` to stop. Neither asks whether the simulator is finished. -/
inductive Program.WithStops (i : Nat) {α : Type} : Program K U α → Program K U α → Prop where
  | done (a : α) : WithStops i (.done a) (.done a)
  | ask {r : Request K U} {next next' : r.Reply → Program K U α} (hr : r ≠ .sim .isFinished)
      (h : ∀ answer, WithStops i (next answer) (next' answer)) :
      WithStops i (.ask r next) (.ask r next')
  | perform (k : K) {next next' : PUnit → Program K U α}
      (h : ∀ answer, WithStops i (next answer) (next' answer)) :
      WithStops i (.perform k next) (.perform k next')
  | run {next next' : Except SimError PUnit → Program K U α}
      (h : ∀ answer, WithStops i (next answer) (next' answer)) :
      WithStops i (.run next) (.run next')
  | destroy {next next' : Except SimError PUnit → Program K U α}
      (h : ∀ answer, WithStops i (next answer) (next' answer)) :
      WithStops i (.destroy next) (.destroy next')
  /-- A further request to stop. -/
  | stop {r : Request K U} {p : Program K U α} {next : r.Reply → Program K U α}
      (hr : r.asksStop i) (h : ∀ answer, WithStops i p (next answer)) : WithStops i p (.ask r next)

/-- Whether a message asks the simulator `i` to stop. -/
def Message.isStop (i : Nat) : Message K → Bool
  | .stop target => target = i
  | .schedule .. => false

/-- The second code does what the first one does, and at times asks the simulator `i` to stop. -/
structure Code.WithStops (i : Nat) (code code' : Code K U) : Prop where
  routine : ∀ k, (code.routine k).WithStops i (code'.routine k)
  user : ∀ k info u, (code'.observe k i info u).1 = (code.observe k i info u).1
  messages : ∀ k info u, (code'.observe k i info u).2.filter (!·.isStop i) =
    (code.observe k i info u).2.filter (!·.isStop i)

/-- Two frames of the callback that is under way, the second one of a program that asks to stop now
and then. -/
inductive Frame.WithStops (i : Nat) : Frame K U → Frame K U → Prop where
  | exec {p p' : Program K U PUnit} (h : p.WithStops i p') : WithStops i (.exec p) (.exec p')
  | task (t : Task K) : WithStops i (.task t) (.task t)
  | restore (context : ContextId) : WithStops i (.restore context) (.restore context)
  | rearmWatchdog (w : Nat) (k : K) : WithStops i (.rearmWatchdog w k) (.rearmWatchdog w k)
  | rearmTrickle (n : Nat) (k : K) : WithStops i (.rearmTrickle n k) (.rearmTrickle n k)

/-- A program that only makes requests comes to the same, but for the requests to stop. -/
lemma Program.WithStops.carryOut {α : Type} {p p' : Program K U α} (h : p.WithStops i p')
    {s t : Simulator K} {m m' : Memory K U} {a : α} (hi : s.identity = i) (x y : Bool)
    (hcarry : p.carryOut s m = some (a, t, m')) :
    ∃ x' y', p'.carryOut (s.withStop x y) m = some (a, t.withStop x' y', m') := by
  induction h generalizing s m x y with
  | done b =>
    cases hcarry
    exact ⟨x, y, rfl⟩
  | @ask r next next' hr h ih =>
    obtain ⟨x', y', happly⟩ := Request.withStop_apply x y s hr m
    have hi' : (r.apply s m).2.1.identity = i := (r.course_apply s m).unchanged.1.trans hi
    obtain ⟨x'', y'', hnext⟩ := ih _ hi' x' y' hcarry
    refine ⟨x'', y'', ?_⟩
    rw [Program.carryOut, happly]
    exact hnext
  | perform | run | destroy => cases hcarry
  | @stop r p next hr h ih =>
    obtain ⟨answer, x', y', happly⟩ := Request.withStop_of_asksStop x y s (hi.symm ▸ hr) m
    obtain ⟨x'', y'', hnext⟩ := ih answer hi x' y' hcarry
    refine ⟨x'', y'', ?_⟩
    rw [Program.carryOut, happly]
    exact hnext

namespace Machine

/-! ### Observers that stop now and then -/

/-- The messages of an observer have the same effect without the requests to stop, but for these. -/
lemma withStop_send (ms : List (Message K)) (x y : Bool) {s : Simulator K} (hi : s.identity = i)
    (m : Memory K U) :
    ∃ x' y', send (s.withStop x y) m ms =
      (send s m (ms.filter (!·.isStop i))).map (.withStop x' y') id := by
  induction ms generalizing s m x y with
  | nil => exact ⟨x, y, rfl⟩
  | cons msg ms ih =>
    cases msg with
    | schedule target context delay k =>
      obtain ⟨y', hask⟩ := m.withStop_askInbox x y s target (.schedule context delay k)
      have hi' := (m.course_askInbox target (.schedule context delay k) s).unchanged.1.trans hi
      rw [send, hask]
      exact ih x y' hi' _
    | stop target =>
      by_cases htarget : target = i
      · subst htarget hi
        have hask := Memory.askInbox_stop (s.withStop x y) m
        rw [send, show m.askInbox s.identity .stop (s.withStop x y) = _ from hask,
          List.filter_cons_of_neg (by simp [Message.isStop])]
        exact ih x true rfl m
      · obtain ⟨y', hask⟩ := m.withStop_askInbox x y s target .stop
        have hi' := (m.course_askInbox target .stop s).unchanged.1.trans hi
        rw [send, hask, List.filter_cons_of_pos (by simp [Message.isStop, htarget])]
        exact ih x y' hi' _

variable {code code' : Code K U}

lemma withStop_notify (hcode : code.WithStops i code') (x y : Bool) (info : EventInfo)
    {s : Simulator K} (hi : s.identity = i) (m : Memory K U) :
    ∃ x' y', notify code' info (s.withStop x y) m =
      (notify code info s m).map (.withStop x' y') id := by
  have huser : observed code' (s.withStop x y) info m.user = observed code s info m.user := by
    subst hi
    rw [observed, observed, show (s.withStop x y).observer = s.observer from rfl]
    cases s.observer with
    | none => rfl
    | some k => exact hcode.user k info m.user
  have hmessages : (observerMessages code' (s.withStop x y) info m.user).filter (!·.isStop i) =
      (observerMessages code s info m.user).filter (!·.isStop i) := by
    subst hi
    rw [observerMessages, observerMessages, show (s.withStop x y).observer = s.observer from rfl]
    cases s.observer with
    | none => rfl
    | some k => exact hcode.messages k info m.user
  rw [notify_eq_send, notify_eq_send, huser]
  obtain ⟨x', y', hsend⟩ := withStop_send (observerMessages code' (s.withStop x y) info m.user) x y
    hi { m with user := observed code s info m.user }
  obtain ⟨x'', y'', hsame⟩ := withStop_send (observerMessages code s info m.user)
    s.stopRequested s.inbox.stop hi { m with user := observed code s info m.user }
  rw [s.withStop_self] at hsame
  refine ⟨x', y', ?_⟩
  rw [hsend, hmessages, hsame]
  rfl

lemma withStop_launch (hcode : code.WithStops i code') (id : EventId) (ev : Event (Task K))
    {s : Simulator K} (hi : s.identity = i) (m : Memory K U) (rest : List (Frame K U)) :
    ∃ x y, (launch code' id ev s m rest).sim = (launch code id ev s m rest).sim.withStop x y ∧
      (launch code' id ev s m rest).memory = (launch code id ev s m rest).memory ∧
      (launch code' id ev s m rest).stack = (launch code id ev s m rest).stack := by
  obtain ⟨x, y, h⟩ := withStop_notify hcode s.stopRequested s.inbox.stop
    ⟨id, ev.key.time, ev.context⟩ hi m
  rw [s.withStop_self] at h
  refine ⟨x, y, ?_⟩
  rw [launch, launch, h]
  exact ⟨rfl, rfl, rfl⟩

/-! ### An owner who goes on -/

/-- Have the events dispatched. -/
def dispatchAll : Program K U PUnit := .run fun _ => .done ()

/-- The move of an owner who has the events dispatched again whenever nothing is left to do. -/
def resume (a : Machine K U) : Move K U := if a.isDone then .enter id dispatchAll else .step

/-- The first moves of an owner who has the events dispatched again and again. -/
def resuming (code : Code K U) : Nat → Machine K U → List (Move K U)
  | 0, _ => []
  | n + 1, a => a.resume :: resuming code n (move code a a.resume)

/-- Whether the owner can have the events dispatched, and no stop is pending any more. -/
def Ready (a : Machine K U) : Prop :=
  a.stack = [] → a.sim.phase = .stopped ∧ a.sim.stopPending = false

/-- Where such an owner gets to, and what is taken off the queue on the way. Whenever nothing is
left to do, the loop can be started again. -/
structure Resumes (code : Code K U) (n : Nat) (a : Machine K U)
    (evs : List (EventId × Event (Task K))) (b : Machine K U) : Prop where
  play : play code (resuming code n a) a = b
  taken : taken code (resuming code n a) a = evs
  ready : Along code (fun c _ => c.Ready) (resuming code n a) a

section

variable {a b c : Machine K U} {n n' : Nat} {evs evs' : List (EventId × Event (Task K))}

lemma resumes_zero (code : Code K U) (a : Machine K U) : Resumes code 0 a [] a :=
  ⟨rfl, rfl, trivial⟩

lemma Resumes.cons (hready : a.Ready) (h : Resumes code n (move code a a.resume) evs b) :
    Resumes code (n + 1) a ((a.takenBy? a.resume).toList ++ evs) b :=
  ⟨h.play, congrArg _ h.taken, hready, h.ready⟩

lemma Resumes.trans (h : Resumes code n a evs b) (h' : Resumes code n' b evs' c) :
    Resumes code (n + n') a (evs ++ evs') c := by
  induction n generalizing a evs with
  | zero =>
    obtain ⟨rfl, rfl, -⟩ := h
    rw [Nat.zero_add]
    exact h'
  | succ n ih =>
    obtain ⟨hplay, rfl, hready, hrest⟩ := h
    rw [Nat.add_right_comm, resuming, Machine.taken, List.append_assoc]
    exact .cons hready (ih ⟨hplay, rfl, hrest⟩)

/-- As long as something is left to do, the owner lets the machine go on. -/
lemma Resumes.step {s : Simulator K} {m : Memory K U} {f : Frame K U} {rest : List (Frame K U)}
    {broken : Bool} (hf : f ≠ .next) (h : Resumes code n (stepFrame code f s m rest) evs b) :
    Resumes code (n + 1) ⟨s, m, f :: rest, broken⟩ evs b := by
  have hnone : takenBy? (⟨s, m, f :: rest, broken⟩ : Machine K U) .step = none := by
    rw [takenBy?, taken?]
    split
    · next hstack => exact absurd (List.cons.inj hstack).1 hf
    · rfl
  have hcons : Resumes code (n + 1) ⟨s, m, f :: rest, broken⟩
      ((takenBy? (⟨s, m, f :: rest, broken⟩ : Machine K U) .step).toList ++ evs) b :=
    .cons (fun hnil => absurd hnil (by simp)) h
  rwa [hnone] at hcons

/-- The owner may have got to any state on the way. -/
lemma Resumes.split (h : Resumes code n a evs b) (hlt : n' < n) :
    Machine.taken code (resuming code n' a) a <+: evs ∧
      (Machine.play code (resuming code n' a) a).Ready := by
  induction n' generalizing n a evs with
  | zero =>
    obtain ⟨n, rfl⟩ := Nat.exists_eq_add_of_lt hlt
    exact ⟨List.nil_prefix, h.ready.1⟩
  | succ n' ih =>
    obtain ⟨n, rfl⟩ := Nat.exists_eq_add_of_lt hlt
    obtain ⟨hplay, rfl, -, hrest⟩ := h
    obtain ⟨htaken, hready⟩ := ih (a := move code a a.resume) ⟨hplay, rfl, hrest⟩ (by omega)
    exact ⟨(List.prefix_append_right_inj _).mpr htaken, hready⟩

end

/-! ### Two machines side by side -/

/-- What a loop that the owner has started stands on. -/
def round : List (Frame K U) := [.loop, .exec (.done ())]

/-- How far two simulators are whose events are being dispatched, with what is left to do. -/
inductive Stage (i : Nat) (s t : Simulator K) : List (Frame K U) → List (Frame K U) → Prop where
  | started (hphase : s.phase = .notRunning ∨ s.phase = .stopped) :
      Stage i s t [.exec dispatchAll] [.exec dispatchAll]
  /-- A callback is under way, or the loop is about to empty the inbox. -/
  | callback {above above' : List (Frame K U)} (hphase : s.phase = .running)
      (habove : List.Forall₂ (Frame.WithStops i) above above') :
      Stage i s t (above ++ round) (above' ++ round)
  /-- The inbox is empty. -/
  | look (hphase : s.phase = .running) (hinbox : s.inbox.events = #[]) :
      Stage i s t [.next, .exec (.done ())] [.next, .exec (.done ())]
  /-- The queue is empty as well. -/
  | left (hphase : s.phase = .stopped) (hinbox : s.inbox.events = #[])
      (hqueue : s.scheduler.arena.entries = []) (hstop : t.stopPending = false) :
      Stage i s t [.exec (.done ())] [.exec (.done ())]
  | finished (hphase : s.phase = .stopped) (hinbox : s.inbox.events = #[])
      (hqueue : s.scheduler.arena.entries = []) (hstop : t.stopPending = false) : Stage i s t [] []

/-- Two machines that have come to the same place. -/
structure Abreast (i : Nat) (a b : Machine K U) : Prop where
  identity : a.sim.identity = i
  sim : ∃ x y, b.sim = a.sim.withStop x y
  memory : b.memory = a.memory
  stage : Stage i a.sim b.sim a.stack b.stack

/-- The second machine comes to where the first one gets by a step. -/
def CatchesUp (i : Nat) (code code' : Code K U) (a b : Machine K U) : Prop :=
  ∃ n b', 0 < n ∧ Resumes code' n b a.taken?.toList b' ∧ Abreast i (step code a) b'

section

variable {s : Simulator K} {m : Memory K U} {above above' : List (Frame K U)} {x y : Bool}
  {broken broken' : Bool}

/-- A single step is enough. -/
lemma catchesUp_of_step {f f' : Frame K U} {rest rest' : List (Frame K U)} {t : Simulator K}
    (hf : f ≠ .next) (hf' : f' ≠ .next)
    (h : Abreast i (stepFrame code f s m rest) (stepFrame code' f' t m rest')) :
    CatchesUp i code code' ⟨s, m, f :: rest, broken⟩ ⟨t, m, f' :: rest', broken'⟩ := by
  have hnone : taken? (⟨s, m, f :: rest, broken⟩ : Machine K U) = none := by
    rw [taken?]
    split
    · next hstack => exact absurd (List.cons.inj hstack).1 hf
    · rfl
  refine ⟨1, _, Nat.one_pos, ?_, h⟩
  rw [hnone]
  exact (resumes_zero code' _).step hf'

/-- A program goes on, and a further request to stop is passed over. -/
lemma catchesUp_exec {p p' : Program K U PUnit} (hp : p.WithStops i p') (hi : s.identity = i)
    (hphase : s.phase = .running) (habove : List.Forall₂ (Frame.WithStops i) above above') :
    CatchesUp i code code' ⟨s, m, .exec p :: (above ++ round), broken⟩
      ⟨s.withStop x y, m, .exec p' :: (above' ++ round), broken'⟩ := by
  induction hp generalizing x y broken' with
  | done =>
    exact catchesUp_of_step (by simp) (by simp) ⟨hi, ⟨x, y, rfl⟩, rfl, .callback hphase habove⟩
  | @ask r next next' hr h =>
    obtain ⟨x', y', happly⟩ := Request.withStop_apply x y s hr m
    refine catchesUp_of_step (by simp) (by simp) ?_
    rw [stepFrame, stepFrame, exec, exec, happly]
    refine ⟨(r.course_apply s m).unchanged.1.trans hi, ⟨x', y', rfl⟩, rfl, ?_⟩
    exact .callback ((r.phase_apply s m).trans hphase) (.cons (.exec (h _)) habove)
  | perform k h =>
    refine catchesUp_of_step (by simp) (by simp) ⟨hi, ⟨x, y, rfl⟩, rfl, ?_⟩
    exact .callback hphase (.cons (.task _) (.cons (.exec (h _)) habove))
  | run h =>
    refine catchesUp_of_step (by simp) (by simp) ?_
    rw [stepFrame, stepFrame, exec, exec, show (s.withStop x y).phase = .running from hphase,
      hphase]
    exact ⟨hi, ⟨x, y, rfl⟩, rfl, .callback hphase (.cons (.exec (h _)) habove)⟩
  | destroy h =>
    refine catchesUp_of_step (by simp) (by simp) ?_
    rw [stepFrame, stepFrame, exec, exec, show (s.withStop x y).phase = .running from hphase,
      hphase]
    exact ⟨hi, ⟨x, y, rfl⟩, rfl, .callback hphase (.cons (.exec (h _)) habove)⟩
  | @stop r p next hr h ih =>
    obtain ⟨answer, x', y', happly⟩ := Request.withStop_of_asksStop x y s (hi.symm ▸ hr) m
    have hlater : CatchesUp i code code' ⟨s, m, .exec p :: (above ++ round), broken⟩
        ⟨s.withStop x' y', m, .exec (next answer) :: (above' ++ round), false⟩ := ih answer
    obtain ⟨n, b', -, hresumes, habreast⟩ := hlater
    refine ⟨n + 1, b', Nat.succ_pos n, ?_, habreast⟩
    refine Resumes.step (by simp) ?_
    rw [stepFrame, exec, happly]
    exact hresumes

lemma abreast_start (hcode : code.WithStops i code') (t : Task K) (hi : s.identity = i)
    (hphase : s.phase = .running) (habove : List.Forall₂ (Frame.WithStops i) above above') :
    Abreast i (start code t s m (above ++ round))
      (start code' t (s.withStop x y) m (above' ++ round)) := by
  cases t with
  | user k =>
    exact ⟨hi, ⟨x, y, rfl⟩, rfl, .callback hphase (.cons (.exec (hcode.routine k)) habove)⟩
  | stop => exact ⟨hi, ⟨true, y, rfl⟩, rfl, .callback hphase habove⟩
  | watchdog w =>
    rw [start, start]
    cases m.watchdog? w with
    | none => exact ⟨hi, ⟨x, y, rfl⟩, rfl, .callback hphase habove⟩
    | some d =>
      have hcourse := d.course_expire w s
      have hi' : (d.expire w s).2.2.identity = i := hcourse.course.unchanged.1.trans hi
      have hphase' : (d.expire w s).2.2.phase = .running := hcourse.phase_eq.trans hphase
      dsimp only
      rw [d.withStop_expire x y s]
      generalize d.expire w s = r at hi' hphase' ⊢
      obtain ⟨_ | k, d', t⟩ := r
      · exact ⟨hi', ⟨x, y, rfl⟩, rfl, .callback hphase' habove⟩
      · have hstage := Stage.callback (t := t.withStop x y) hphase'
          (.cons (.exec (hcode.routine k)) (.cons (.rearmWatchdog w k) habove))
        exact ⟨hi', ⟨x, y, rfl⟩, rfl, hstage⟩
  | trickleInterval n =>
    rw [start, start]
    cases m.trickle? n with
    | none => exact ⟨hi, ⟨x, y, rfl⟩, rfl, .callback hphase habove⟩
    | some d =>
      dsimp only [Trickle.endInterval]
      rw [Trickle.withStop_beginInterval x y s]
      have hcourse := Trickle.course_beginInterval n
        { d with interval := (d.interval.scale 2).earlier d.maxInterval } s
      exact ⟨hcourse.course.unchanged.1.trans hi, ⟨x, y, rfl⟩, rfl,
        .callback (hcourse.phase_eq.trans hphase) habove⟩
  | trickleFire n =>
    rw [start, start]
    cases m.trickle? n with
    | none => exact ⟨hi, ⟨x, y, rfl⟩, rfl, .callback hphase habove⟩
    | some d =>
      dsimp only
      rcases d.fire with ⟨_ | k, d'⟩
      · exact ⟨hi, ⟨x, y, rfl⟩, rfl, .callback hphase habove⟩
      · have hstage := Stage.callback (t := s.withStop x y) hphase
          (.cons (.exec (hcode.routine k)) (.cons (.rearmTrickle n k) habove))
        exact ⟨hi, ⟨x, y, rfl⟩, rfl, hstage⟩

/-- What is left of a callback is carried out by both machines. -/
lemma catchesUp_callback (hcode : code.WithStops i code') (hi : s.identity = i)
    (hphase : s.phase = .running) (habove : List.Forall₂ (Frame.WithStops i) above above') :
    CatchesUp i code code' ⟨s, m, above ++ round, broken⟩
      ⟨s.withStop x y, m, above' ++ round, broken'⟩ := by
  cases habove with
  | nil =>
    refine catchesUp_of_step (by simp) (by simp) ?_
    rw [stepFrame, stepFrame, s.withStop_drainInbox]
    have hunchanged : s.drainInbox.identity = s.identity ∧ s.drainInbox.phase = s.phase := by
      rw [Simulator.drainInbox_eq, Simulator.insertAll_unchanged]
      exact ⟨rfl, rfl⟩
    refine ⟨hunchanged.1.trans hi, ⟨x, y, rfl⟩, rfl, .look (hunchanged.2.trans hphase) ?_⟩
    show s.drainInbox.inbox.events = #[]
    rw [s.inbox_drainInbox.1]
    rfl
  | @cons f f' above above' hf habove =>
    cases hf with
    | exec hp => exact catchesUp_exec hp hi hphase habove
    | task t => exact catchesUp_of_step (by simp) (by simp) (abreast_start hcode t hi hphase habove)
    | restore context | rearmWatchdog w k | rearmTrickle n k =>
      exact catchesUp_of_step (by simp) (by simp)
        ⟨hi, ⟨x, y, rfl⟩, rfl, .callback hphase habove⟩

/-- A machine that is about to leave the loop comes back to the same place once its owner has
started the loop again, and then no stop is pending. -/
lemma resumes_of_stopPending (code : Code K U) (m : Memory K U) (broken : Bool)
    (hphase : s.phase = .running) (hinbox : s.inbox.events = #[]) (hstop : s.stopPending = true) :
    Resumes code 5 ⟨s, m, [.next, .exec (.done ())], broken⟩ []
      ⟨s.withStop false false, m, [.next, .exec (.done ())], false⟩ := by
  have hfinish : Resumes code 1 ⟨s, m, [.next, .exec (.done ())], broken⟩ []
      ⟨finishRun s, m, [.exec (.done ())], false⟩ := by
    refine ⟨if_pos hstop, ?_, fun hnil => (by cases hnil), trivial⟩
    show (if s.stopPending then none else _ : Option _).toList ++ [] = []
    rw [if_pos hstop]
    rfl
  have hdrain : ({ finishRun s with phase := .running } : Simulator K).drainInbox =
      s.withStop false false := by
    refine (Simulator.drainInbox_of_isEmpty (s := { finishRun s with phase := .running })
      hinbox).trans ?_
    rw [← hphase]
    rfl
  have hagain : Resumes code 4 ⟨finishRun s, m, [.exec (.done ())], false⟩ []
      ⟨s.withStop false false, m, [.next, .exec (.done ())], false⟩ := by
    refine ⟨?_, rfl, ?_⟩
    · rw [← hdrain]
      rfl
    · exact ⟨fun hnil => (by cases hnil), fun _ => ⟨rfl, rfl⟩, fun hnil => (by cases hnil),
        fun hnil => (by cases hnil), trivial⟩
  exact hfinish.trans hagain

/-- Codes that differ in requests to stop come to the same in a round of the loop. -/
lemma abreast_takeNext (hcode : code.WithStops i code') (hi : s.identity = i)
    {keys : List EventKey} (h : s.Timely keys) (hphase : s.phase = .running)
    (hinbox : s.inbox.events = #[]) (hstop : s.stopPending = false) :
    Abreast i (takeNext code s m [.exec (.done ())]) (takeNext code' s m [.exec (.done ())]) := by
  have hround := round_takeNext code m [.exec (.done ())] h.consistent h.now_le
  have hround' := round_takeNext code' m [.exec (.done ())] h.consistent h.now_le
  generalize takeNext code s m [.exec (.done ())] = a at hround ⊢
  generalize takeNext code' s m [.exec (.done ())] = b at hround' ⊢
  cases hround with
  | finish hnone hempty =>
    have hqueue : s.scheduler.arena.entries = [] := by
      refine hempty.resolve_left fun hpending => ?_
      rw [hstop] at hpending
      cases hpending
    cases hround' with
    | finish => exact ⟨hi, ⟨false, false, rfl⟩, rfl, .left rfl hinbox hqueue rfl⟩
    | pass hsome | start hsome =>
      rw [hnone] at hsome
      cases hsome
  | @pass id ev q hsome hnext hcancelled =>
    cases hround' with
    | finish hnone =>
      rw [hnone] at hsome
      cases hsome
    | pass hsome' hnext' =>
      cases hnext.symm.trans hnext'
      have hstage : Stage (U := U) i { s with scheduler := q, now := ev.key.time }
        { s with scheduler := q, now := ev.key.time } ([] ++ round) ([] ++ round) :=
        .callback hphase .nil
      exact ⟨hi, ⟨s.stopRequested, s.inbox.stop, rfl⟩, rfl, hstage⟩
    | start hsome' hnext' hlive =>
      cases hnext.symm.trans hnext'
      rw [hlive] at hcancelled
      cases hcancelled
  | @start id ev q hsome hnext hlive =>
    cases hround' with
    | finish hnone =>
      rw [hnone] at hsome
      cases hsome
    | pass hsome' hnext' hcancelled =>
      cases hnext.symm.trans hnext'
      rw [hlive] at hcancelled
      cases hcancelled
    | start hsome' hnext' =>
      cases hnext.symm.trans hnext'
      obtain ⟨x, y, hsim, hmemory, hstack⟩ := withStop_launch hcode id ev
        (s := { s with scheduler := q, now := ev.key.time }) hi m [.exec (.done ())]
      have hsame := (launch_unchanged code id ev
        { s with scheduler := q, now := ev.key.time } m [.exec (.done ())]).1
      obtain ⟨⟨context, hlaunched⟩, -⟩ := launch_eq code id ev
        { s with scheduler := q, now := ev.key.time } m [.exec (.done ())]
      refine ⟨?_, ⟨x, y, hsim⟩, hmemory, ?_⟩
      · rw [hsame]
        exact hi
      · rw [hstack, hlaunched]
        have habove : List.Forall₂ (Frame.WithStops i)
            ([.task ev.task, .restore context] : List (Frame K U))
            [.task ev.task, .restore context] :=
          .cons (.task ev.task) (.cons (.restore context) .nil)
        refine .callback ?_ habove
        rw [hsame]
        exact hphase

lemma catchesUp_look (hcode : code.WithStops i code') (hi : s.identity = i) {keys : List EventKey}
    (h : s.Timely keys) (hphase : s.phase = .running) (hinbox : s.inbox.events = #[])
    (hstop : s.stopPending = false) :
    CatchesUp i code code' ⟨s, m, [.next, .exec (.done ())], broken⟩
      ⟨s.withStop x y, m, [.next, .exec (.done ())], broken'⟩ := by
  obtain ⟨n, broken'', hback⟩ : ∃ n broken'', Resumes code' n
      ⟨s.withStop x y, m, [.next, .exec (.done ())], broken'⟩ []
      ⟨s, m, [.next, .exec (.done ())], broken''⟩ := by
    by_cases hpending : (s.withStop x y).stopPending = true
    · have hresumes := resumes_of_stopPending code' m broken' (s := s.withStop x y) hphase hinbox
        hpending
      rw [Simulator.withStop_withStop, Simulator.withStop_of_not_stopPending hstop] at hresumes
      exact ⟨5, _, hresumes⟩
    · obtain ⟨rfl, rfl⟩ : x = false ∧ y = false :=
        Bool.or_eq_false_iff.mp (Bool.not_eq_true _ ▸ hpending)
      rw [Simulator.withStop_of_not_stopPending hstop]
      exact ⟨0, _, resumes_zero code' _⟩
  -- both machines are in the same state now
  have hnext := Resumes.cons (n := 0) (fun hnil => by cases hnil) (resumes_zero code'
    (move code' ⟨s, m, [.next, .exec (.done ())], broken''⟩ .step))
  refine ⟨n + 1, _, Nat.succ_pos n, ?_, abreast_takeNext hcode hi h hphase hinbox hstop⟩
  have hall := hback.trans hnext
  rw [List.nil_append, List.append_nil] at hall
  exact hall

end

section

variable {a b : Machine K U} {keys : List EventKey}

/-- Unless nothing is left to do, the second machine comes to where the first one gets by a step. -/
lemma Abreast.catchesUp (hcode : code.WithStops i code') (hab : Abreast i a b)
    (h : a.sim.Timely keys) (hstop : a.sim.stopPending = false) (hstack : a.stack ≠ []) :
    CatchesUp i code code' a b := by
  obtain ⟨hi, ⟨x, y, hsim⟩, hmemory, hstage⟩ := hab
  obtain ⟨s, m, stack, broken⟩ := a
  obtain ⟨t, m', stack', broken'⟩ := b
  obtain rfl : t = s.withStop x y := hsim
  obtain rfl : m' = m := hmemory
  obtain hstage : Stage i s (s.withStop x y) stack stack' := hstage
  cases hstage with
  | started hphase =>
    refine catchesUp_of_step (by simp) (by simp) ?_
    have hrun : ∀ (code : Code K U) (t : Simulator K), t.phase = s.phase →
        stepFrame code (.exec dispatchAll) t m' [] =
          ⟨{ t with phase := .running }, m', round, false⟩ := by
      intro code t ht
      rcases hphase with hphase | hphase <;>
        rw [stepFrame, dispatchAll, exec, ht, hphase] <;> rfl
    rw [hrun code s rfl, hrun code' (s.withStop x y) rfl]
    have hnil : List.Forall₂ (Frame.WithStops i) ([] : List (Frame K U)) [] := .nil
    exact ⟨hi, ⟨x, y, rfl⟩, rfl, .callback rfl hnil⟩
  | callback hphase habove => exact catchesUp_callback hcode hi hphase habove
  | look hphase hinbox => exact catchesUp_look hcode hi h hphase hinbox hstop
  | left hphase hinbox hqueue hquiet =>
    exact catchesUp_of_step (by simp) (by simp)
      ⟨hi, ⟨x, y, rfl⟩, rfl, .finished hphase hinbox hqueue hquiet⟩
  | finished => exact absurd rfl hstack

/-- A machine with nothing left to do stays as it is. -/
lemma play_steps_of_done (code : Code K U) (k : Nat) (hstack : a.stack = []) :
    play code (List.replicate k .step) a = a ∧ taken code (List.replicate k .step) a = [] := by
  obtain ⟨s, m, stack, broken⟩ := a
  obtain rfl : stack = [] := hstack
  induction k with
  | zero => exact ⟨rfl, rfl⟩
  | succ k ih => exact ih

/-- The second machine takes the same events off the queue. -/
lemma Abreast.resumes (hcode : code.WithStops i code') (k : Nat) (hab : Abreast i a b)
    (h : a.sim.Timely keys) (hb : a.broken = false)
    (hstop : ∀ j, (play code (List.replicate j .step) a).sim.stopPending = false) :
    ∃ n b', Resumes code' n b (taken code (List.replicate k .step) a) b' ∧
      Abreast i (play code (List.replicate k .step) a) b' ∧
      (k ≤ n ∨ (play code (List.replicate k .step) a).stack = []) := by
  induction k generalizing a b keys with
  | zero => exact ⟨0, b, resumes_zero code' b, hab, Or.inl (Nat.le_refl 0)⟩
  | succ k ih =>
    obtain ⟨hb', h', -⟩ := timely_move code .step h hb
    by_cases hstack : a.stack = []
    · rw [(play_steps_of_done code (k + 1) hstack).1, (play_steps_of_done code (k + 1) hstack).2]
      exact ⟨0, b, resumes_zero code' b, hab, Or.inr hstack⟩
    · obtain ⟨n, b₁, hn, hfirst, hab₁⟩ := hab.catchesUp hcode h (hstop 0) hstack
      obtain ⟨n', b', hresumes, hab', hle⟩ := ih hab₁ h' hb' fun j => hstop (j + 1)
      refine ⟨n + n', b', hfirst.trans hresumes, hab', ?_⟩
      exact hle.imp_left fun hle => by omega

end

/-! ### When nothing is left -/

/-- What is left to do while the owner goes on although nothing is left in the queue, and whether a
stop is pending. -/
inductive Turning : Bool → Bool → Phase → List (Frame K U) → Prop where
  | stopped : Turning false false .stopped []
  | again (x y : Bool) : Turning x y .stopped [.exec dispatchAll]
  | round (x y : Bool) : Turning x y .running round
  | look (x y : Bool) : Turning x y .running [.next, .exec (.done ())]
  | left : Turning false false .stopped [.exec (.done ())]

/-- Nothing but the phase and the requests to stop tells a simulator apart from `s`. -/
inductive Exhausted (s : Simulator K) (m : Memory K U) : Machine K U → Prop where
  | intro {x y : Bool} {phase : Phase} {stack : List (Frame K U)} {broken : Bool}
      (h : Turning x y phase stack) :
      Exhausted s m ⟨{ s.withStop x y with phase }, m, stack, broken⟩

section

variable {s : Simulator K} {m : Memory K U} {b : Machine K U}

/-- An owner who goes on with an empty queue changes nothing. -/
lemma Exhausted.resume (code : Code K U) (hc : s.scheduler.Consistent)
    (hinbox : s.inbox.events = #[]) (hqueue : s.scheduler.arena.entries = [])
    (h : Exhausted s m b) :
    b.Ready ∧ b.takenBy? b.resume = none ∧ Exhausted s m (move code b b.resume) := by
  obtain @⟨x, y, phase, stack, broken, h⟩ := h
  cases h with
  | stopped => exact ⟨fun _ => ⟨rfl, rfl⟩, rfl, .intro (.again _ _)⟩
  | again => exact ⟨fun hnil => (by cases hnil), rfl, .intro (.round _ _)⟩
  | left => exact ⟨fun hnil => (by cases hnil), rfl, .intro .stopped⟩
  | round =>
    refine ⟨fun hnil => (by cases hnil), rfl, ?_⟩
    show Exhausted s m ⟨Simulator.drainInbox { s.withStop x y with phase := .running }, m,
      [.next, .exec (.done ())], false⟩
    rw [Simulator.drainInbox_of_isEmpty (s := { s.withStop x y with phase := .running }) hinbox]
    exact .intro (.look _ _)
  | look =>
    have hnext : s.scheduler.removeNext = (none, s.scheduler) := by
      rcases hc.removeNext_cases with ⟨-, hn⟩ | ⟨e, ev, q, ⟨he, -⟩, -⟩
      · exact hn
      · rw [hqueue] at he
        cases he
    have hnone : takenBy? (⟨{ s.withStop x y with phase := .running }, m,
        [.next, .exec (.done ())], broken⟩ : Machine K U) .step = none := by
      show (if _ then none else s.scheduler.removeNext.1) = none
      rw [hnext]
      exact ite_self none
    refine ⟨fun hnil => (by cases hnil), hnone, ?_⟩
    show Exhausted s m (takeNext code { s.withStop x y with phase := .running } m _)
    rw [takeNext]
    split
    · exact .intro .left
    · rw [show ({ s.withStop x y with phase := .running } : Simulator K).scheduler.removeNext =
        (none, s.scheduler) from hnext]
      exact .intro .left

lemma Exhausted.resumes (code : Code K U) (hc : s.scheduler.Consistent)
    (hinbox : s.inbox.events = #[]) (hqueue : s.scheduler.arena.entries = []) (n : Nat)
    (h : Exhausted s m b) : ∃ c, Resumes code n b [] c ∧ Exhausted s m c := by
  induction n generalizing b with
  | zero => exact ⟨b, resumes_zero code b, h⟩
  | succ n ih =>
    obtain ⟨hready, hnone, hnext⟩ := h.resume code hc hinbox hqueue
    obtain ⟨c, hresumes, hc⟩ := ih hnext
    have hcons := Resumes.cons hready hresumes
    rw [hnone] at hcons
    exact ⟨c, hcons, hc⟩

end

/-- When the first machine is done, its simulator is that of the second one, which has nothing left
to do. -/
lemma Abreast.exhausted {a b : Machine K U} (hab : Abreast i a b) (hstack : a.stack = []) :
    Exhausted a.sim a.memory b ∧ a.sim.inbox.events = #[] ∧
      a.sim.scheduler.arena.entries = [] := by
  obtain ⟨-, ⟨x, y, hsim⟩, hmemory, hstage⟩ := hab
  obtain ⟨s, m, stack, broken⟩ := a
  obtain ⟨t, m', stack', broken'⟩ := b
  obtain rfl : t = s.withStop x y := hsim
  obtain rfl : m' = m := hmemory
  obtain rfl : stack = [] := hstack
  generalize hnil : (⟨s, m', [], broken⟩ : Machine K U).stack = stack at hstage
  cases hstage with
  | started | look | left => cases hnil
  | callback => simp [round] at hnil
  | finished hphase hinbox hqueue hstop =>
    obtain ⟨rfl, rfl⟩ : x = false ∧ y = false := Bool.or_eq_false_iff.mp hstop
    refine ⟨?_, hinbox, hqueue⟩
    have hexhausted : Exhausted s m' ⟨{ s.withStop false false with phase := .stopped }, m', [],
      broken'⟩ := .intro .stopped
    rw [← show s.phase = .stopped from hphase] at hexhausted
    exact hexhausted

/-- When the first machine is done, the owner of the second one can go on and changes nothing. -/
lemma Abreast.resumes_of_done (code : Code K U) {a b : Machine K U} (hab : Abreast i a b)
    (hstack : a.stack = []) (hc : a.sim.scheduler.Consistent) {n : Nat} {b₀ : Machine K U}
    {evs : List (EventId × Event (Task K))} (hresumes : Resumes code n b₀ evs b) (more : Nat) :
    ∃ c, Resumes code (n + more) b₀ evs c ∧ Exhausted a.sim a.memory c := by
  obtain ⟨hexhausted, hinbox, hqueue⟩ := hab.exhausted hstack
  obtain ⟨c, hmore, hc'⟩ := hexhausted.resumes code hc hinbox hqueue more
  have hall := hresumes.trans hmore
  rw [List.append_nil] at hall
  exact ⟨c, hall, hc'⟩

/-- What holds of a simulator behind a program that makes requests and nothing else. -/
lemma timely_carryOut {p : Program K U PUnit} {s t : Simulator K} {m m' : Memory K U}
    {keys : List EventKey} (h : s.Timely keys) (hcarry : p.carryOut s m = some ((), t, m')) :
    t.Timely keys ∧ t.phase = s.phase ∧ t.identity = s.identity := by
  induction p generalizing s m with
  | done =>
    cases hcarry
    exact ⟨h, rfl, rfl⟩
  | ask r next ih =>
    obtain ⟨htimely, hphase, hidentity⟩ := ih _ (h.course (r.course_apply s m)).1 hcarry
    exact ⟨htimely, hphase.trans (r.phase_apply s m),
      hidentity.trans (r.course_apply s m).unchanged.1⟩
  | perform | run | destroy => cases hcarry

lemma identity_play (code : Code K U) (moves : List (Move K U)) {a : Machine K U}
    {keys : List EventKey} (h : a.sim.Timely keys) (hb : a.broken = false) :
    (play code moves a).sim.identity = a.sim.identity := by
  induction moves generalizing a keys with
  | nil => rfl
  | cons mv moves ih =>
    obtain ⟨hb', h', -⟩ := timely_move code mv h hb
    exact (ih h' hb').trans (identity_move code mv h hb)

lemma stopPending_of_asksStop {r : Request K U} {s : Simulator K} (hr : r.asksStop s.identity)
    (m : Memory K U) : (r.apply s m).2.1.stopPending = true := by
  cases r with
  | sim r =>
    cases r with
    | stop => rfl
    | _ => exact hr.elim
  | inbox target r =>
    cases r with
    | stop =>
      obtain rfl : target = s.identity := hr
      show (m.askInbox s.identity .stop s).2.1.stopPending = true
      rw [Memory.askInbox_stop]
      exact Bool.or_true _
    | _ => exact hr.elim
  | _ => exact hr.elim

/-- The loop returns in a round that begins while a stop is pending. -/
lemma stack_of_stopPending (code : Code K U) {a : Machine K U} {rest : List (Frame K U)}
    (hstack : a.stack = .loop :: rest) (hstop : a.sim.stopPending = true) :
    (step code (step code a)).stack = rest := by
  obtain ⟨s, m, stack, broken⟩ := a
  obtain rfl : stack = _ := hstack
  have hdrained : s.drainInbox.stopPending = true := s.stopPending_drainInbox.trans hstop
  show (takeNext code s.drainInbox m rest).stack = rest
  rw [takeNext, if_pos hdrained]

/-- A program whose loop nobody asks to stop is compared with one that makes further requests to
stop, in its callbacks or before the loop is started. If the owner of the second one has its events
dispatched again and again, then the same events are taken off the queue in the same order, and when
the single run of the first one is over, the clocks, the counts, the queues and the memories agree
from some point on.

Whenever the loop of the second one has returned, no stop is pending, and the next call is accepted.
A request is pending until the loop is left, and no event is taken off the queue until then: the
loop returns in the round behind the callback that is under way. -/
theorem stop_is_transparent {code code' : Code K U} (hcode : code.WithStops i code')
    {setup setup' : Program K U PUnit} (hsetup : setup.WithStops i setup') (kind : QueueKind)
    (buckets : Nat) (sync : SyncMode) (m₀ : Memory K U) {s : Simulator K} {m : Memory K U}
    (hcarry : setup.carryOut (.create i kind buckets sync) m₀ = some ((), s, m))
    (hquiet : ∀ k, (play code (List.replicate k .step) (load s m dispatchAll)).sim.stopPending =
      false) :
    ∃ s', setup'.carryOut (.create i kind buckets sync) m₀ = some ((), s', m) ∧
      let a := load s m dispatchAll
      let b := load s' m dispatchAll
      (∀ k, ∃ n, taken code' (resuming code' n b) b = taken code (List.replicate k .step) a) ∧
      (∀ n, ∃ k, taken code' (resuming code' n b) b <+: taken code (List.replicate k .step) a) ∧
      (∀ k, (play code (List.replicate k .step) a).isDone = true → ∃ n, ∀ n' ≥ n,
        let c := play code' (resuming code' n' b) b
        let d := play code (List.replicate k .step) a
        taken code' (resuming code' n' b) b = taken code (List.replicate k .step) a ∧
          c.sim.now = d.sim.now ∧ c.sim.eventCount = d.sim.eventCount ∧
          c.sim.scheduler = d.sim.scheduler ∧ c.memory = d.memory) ∧
      ∀ n,
        let c := play code' (resuming code' n b) b
        (c.stack = [] → c.sim.stopPending = false ∧
          ∀ next, (exec (.run next) c.sim c.memory []).stack = [.loop, .exec (next (.ok ()))]) ∧
        (∀ r next rest, c.stack = .exec (.ask r next) :: rest → r.asksStop i →
          (step code' c).sim.stopPending = true) ∧
        (c.sim.stopPending = true → c.taken? = none ∧ ((step code' c).sim.stopPending = true ∨
          ∃ rest, c.stack = .next :: rest ∧ (step code' c).stack = rest ∧
            (step code' c).sim.stopPending = false ∧ (step code' c).sim.phase = .stopped)) ∧
        (∀ rest, c.stack = .loop :: rest → c.sim.stopPending = true →
          (step code' (step code' c)).stack = rest) := by
  have hcreate := Simulator.timely_create (K := K) i kind buckets sync
  obtain ⟨x, y, hcarry'⟩ := hsetup.carryOut rfl false false hcarry
  obtain ⟨hs, hphase, hi⟩ := timely_carryOut hcreate hcarry
  obtain ⟨hs', -, hi'⟩ := timely_carryOut hcreate hcarry'
  refine ⟨s.withStop x y, hcarry', ?_⟩
  intro a b
  have hab : Abreast i a b := ⟨hi, ⟨x, y, rfl⟩, rfl, .started (Or.inl hphase)⟩
  have hsteps := fun k => hab.resumes hcode k hs rfl hquiet
  have hconsistent := fun k =>
    (timely_play code (List.replicate k .step) (a := a) hs rfl).2.1.consistent
  have hbeyond : ∀ n, ∃ k n' c, n < n' ∧
      Resumes code' n' b (taken code (List.replicate k .step) a) c := by
    intro n
    obtain ⟨n', b', hresumes, hab', hle | hstack⟩ := hsteps (n + 1)
    · exact ⟨n + 1, n', b', hle, hresumes⟩
    · obtain ⟨c, hall, -⟩ := hab'.resumes_of_done code' hstack (hconsistent _) hresumes (n + 1)
      exact ⟨n + 1, n' + (n + 1), c, by omega, hall⟩
  refine ⟨?_, ?_, ?_, ?_⟩
  · intro k
    obtain ⟨n, b', hresumes, -⟩ := hsteps k
    exact ⟨n, hresumes.taken⟩
  · intro n
    obtain ⟨k, n', c, hlt, hresumes⟩ := hbeyond n
    exact ⟨k, (hresumes.split hlt).1⟩
  · intro k hover
    obtain ⟨n, b', hresumes, hab', -⟩ := hsteps k
    refine ⟨n, ?_⟩
    rintro n' hle c d
    obtain ⟨j, rfl⟩ := Nat.exists_eq_add_of_le hle
    obtain ⟨c', hall, hexhausted⟩ :=
      hab'.resumes_of_done code' (List.isEmpty_iff.mp hover) (hconsistent k) hresumes j
    obtain rfl : c = c' := hall.play
    refine ⟨hall.taken, ?_⟩
    generalize c = c' at hexhausted
    cases hexhausted with
    | intro => exact ⟨rfl, rfl, rfl, rfl⟩
  · intro n c
    obtain ⟨k, n', c', hlt, hresumes⟩ := hbeyond n
    have hready : c.Ready := (hresumes.split hlt).2
    have hidentity : c.sim.identity = i :=
      (identity_play code' (resuming code' n b) (a := b) hs' rfl).trans hi'
    refine ⟨?_, ?_, step_of_stopPending code', fun rest => stack_of_stopPending code'⟩
    · intro hstack
      obtain ⟨hphase, hstop⟩ := hready hstack
      refine ⟨hstop, fun next => ?_⟩
      rw [exec, hphase]
    · intro r next rest hstack hr
      clear_value c
      obtain ⟨t, m', stack, broken⟩ := c
      obtain rfl : stack = _ := hstack
      exact stopPending_of_asksStop (s := t) (hidentity.symm ▸ hr) m'

/-- The first event schedules another one. -/
def steady : Code Bool Unit where
  routine
    | true => .ask (.sim (.scheduleNow false)) fun _ => .done ()
    | false => .done ()
  observe _ _ _ u := (u, [])

/-- The same, but the first event asks for a stop, in front of what it does and behind it. -/
def halting : Code Bool Unit where
  routine
    | true => .ask (.sim .stop) fun _ => .ask (.sim (.scheduleNow false)) fun _ =>
        .ask (.inbox 0 .stop) fun _ => .done ()
    | false => .done ()
  observe _ _ _ u := (u, [])

/-- Schedule two events. -/
def twoEvents : Program Bool Unit PUnit :=
  .ask (.sim (.schedule (.clamp 1) true)) fun _ => .ask (.sim (.schedule (.clamp 2) false)) fun _ =>
    .done ()

/-- What is left of the run of `steady` behind its first steps. -/
def steadyRun (k : Nat) : Option (Machine Bool Unit) :=
  (twoEvents.carryOut (.create 0 .list 1 .sequential) { user := () }).map fun p =>
    play steady (List.replicate k .step) (load p.2.1 p.2.2 dispatchAll)

theorem stop_is_transparent_twice :
    steady.WithStops 0 halting ∧
      twoEvents.WithStops 0 (.ask (.sim .stop) fun _ => twoEvents) ∧
      ∃ s s' m, twoEvents.carryOut (.create 0 .list 1 .sequential) { user := () } =
          some ((), s, m) ∧
        (∀ k, (play steady (List.replicate k .step) (load s m dispatchAll)).sim.stopPending =
          false) ∧
        (Program.ask (.sim .stop) fun _ => twoEvents).carryOut
          (.create 0 .list 1 .sequential) { user := () } = some ((), s', m) ∧
        ∃ n, (taken halting (resuming halting n (load s' m dispatchAll))
          (load s' m dispatchAll)).map (·.2.key.time) = [.clamp 1, .clamp 1, .clamp 2] := by
  have hcode : steady.WithStops 0 halting := by
    refine ⟨?_, fun _ _ _ => rfl, fun _ _ _ => rfl⟩
    rintro (_ | _)
    · exact .done ()
    · refine .stop trivial fun _ => .ask (by simp) fun _ => ?_
      exact .stop rfl fun _ => .done ()
  have hsetup : twoEvents.WithStops 0 (.ask (.sim .stop) fun _ => twoEvents) :=
    .stop trivial fun _ => .ask (by simp) fun _ => .ask (by simp) fun _ => .done ()
  obtain ⟨⟨⟨⟩, s, m⟩, hcarry⟩ := Option.isSome_iff_exists.mp
    (show (twoEvents.carryOut (.create 0 .list 1 .sequential) { user := () }).isSome = true by
      decide +kernel)
  have hrun : ∀ k, steadyRun k =
      some (play steady (List.replicate k .step) (load s m dispatchAll)) := by
    intro k
    rw [steadyRun, hcarry]
    rfl
  have hover : (play steady (List.replicate 20 .step) (load s m dispatchAll)).isDone = true := by
    have hover : (steadyRun 20).any (·.isDone) = true := by decide +kernel
    rwa [hrun, Option.any_some] at hover
  have hquiet : ∀ k, (play steady (List.replicate k .step) (load s m dispatchAll)).sim.stopPending =
      false := by
    have hfirst : ∀ k ≤ 20, (steadyRun k).any (·.sim.stopPending == false) = true := by
      decide +kernel
    intro k
    by_cases hk : k ≤ 20
    · have hk := hfirst k hk
      rw [hrun, Option.any_some] at hk
      exact beq_iff_eq.mp hk
    · obtain ⟨j, rfl⟩ := Nat.exists_eq_add_of_lt (Nat.not_le.mp hk)
      have hk := hfirst 20 (Nat.le_refl 20)
      rw [hrun, Option.any_some] at hk
      have hstay := (play_steps_of_done steady (j + 1) (List.isEmpty_iff.mp hover)).1
      rw [play, play, ← List.foldl_append, ← List.replicate_add] at hstay
      rw [Nat.add_assoc, play, hstay]
      exact beq_iff_eq.mp hk
  obtain ⟨s', hcarry', -, -, hend, -⟩ :=
    stop_is_transparent hcode hsetup .list 1 .sequential { user := () } hcarry hquiet
  obtain ⟨n, hn⟩ := hend 20 hover
  refine ⟨hcode, hsetup, s, s', m, hcarry, hquiet, hcarry', n, ?_⟩
  rw [(hn n (Nat.le_refl n)).1]
  have htimes : ((twoEvents.carryOut (.create 0 .list 1 .sequential) { user := () }).map fun p =>
      (taken steady (List.replicate 20 .step) (load p.2.1 p.2.2 dispatchAll)).map (·.2.key.time)) =
        some [.clamp 1, .clamp 1, .clamp 2] := by
    decide +kernel
  rw [hcarry] at htimes
  exact Option.some.inj htimes

end Machine

end EventKernel
