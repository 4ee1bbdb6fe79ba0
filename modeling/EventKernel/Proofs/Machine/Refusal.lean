import EventKernel.Proofs.Machine.Terminal

/-!
# Refused calls

A call that schedules an event, hands one in through an inbox, runs the loop or tears the simulator
down may be refused. There are three objections: the delay is negative, the one who is asked accepts
nothing any more, or a loop runs already. A call is refused exactly if there is an objection, and
the error says which. Then nothing at all has changed: no sequence number was drawn, no slot was
taken, nothing was registered or started.
-/

namespace EventKernel

variable {K U : Type}

/-- What was at a place of an array is put there again. -/
lemma setIfInBounds_getD {α : Type} (l : Array α) (i : Nat) (d : α) :
    l.setIfInBounds i (l.getD i d) = l := by
  refine Array.ext_getElem? fun j => ?_
  rw [Array.getElem?_setIfInBounds, Array.getD_eq_getD_getElem?]
  by_cases hij : i = j
  · subst hij
    rw [if_pos rfl]
    by_cases h : i < l.size
    · rw [if_pos h, Array.getElem?_eq_getElem h, Option.getD_some]
    · rw [if_neg h, Array.getElem?_eq_none (Nat.le_of_not_lt h)]
  · rw [if_neg hij]

namespace Machine

variable {a : Machine K U} {rest : List (Frame K U)}

/-! ### Calls and objections -/

/-- A call that may be refused. -/
inductive Attempt (K : Type) where
  | schedule (delay : Time) (k : K)
  | scheduleNow (k : K)
  | scheduleWith (context : ContextId) (delay : Time) (k : K)
  | scheduleDestroy (k : K)
  | stopAfter (delay : Time)
  /-- Hand an event in through the inbox of a simulator. -/
  | push (target : Nat) (context : ContextId) (delay : Time) (k : K)
  | call (c : Call)

namespace Attempt

/-- What a call gives that is not refused. -/
def Value : Attempt K → Type
  | schedule .. | scheduleNow _ | scheduleWith .. | scheduleDestroy _ | stopAfter _ => EventId
  | push .. | call _ => PUnit

/-- The program that makes a call and goes on with the answer. -/
def program : (x : Attempt K) → (Except SimError x.Value → Program K U PUnit) → Program K U PUnit
  | schedule delay k, next => .ask (.sim (.schedule delay k)) next
  | scheduleNow k, next => .ask (.sim (.scheduleNow k)) next
  | scheduleWith context delay k, next => .ask (.sim (.scheduleWith context delay k)) next
  | scheduleDestroy k, next => .ask (.sim (.scheduleDestroy k)) next
  | stopAfter delay, next => .ask (.sim (.stopAfter delay)) next
  | push target context delay k, next => .ask (.inbox target (.schedule context delay k)) next
  | call c, next => c.program next

/-- How far ahead a call schedules an event. -/
def delay? : Attempt K → Option Time
  | schedule delay _ | scheduleWith _ delay _ | stopAfter delay | push _ _ delay _ => some delay
  | scheduleNow _ => some .zero
  | scheduleDestroy _ | call _ => none

/-- What is to be done before the program goes on. -/
def frames : Attempt K → List (Frame K U)
  | call c => [c.frame]
  | schedule .. | scheduleNow _ | scheduleWith .. | scheduleDestroy _ | stopAfter _ | push .. => []

end Attempt

/-- The inbox of the simulator with a number. -/
def inboxOf (a : Machine K U) (target : Nat) : Inbox (Task K) :=
  if target = a.sim.identity then a.sim.inbox else a.memory.inboxes.getD target .shut

/-- Whether the one who is asked accepts nothing any more: an inbox that is closed, or a simulator
that was torn down. -/
def IsClosedTo (a : Machine K U) : Attempt K → Prop
  | .push target .. => (a.inboxOf target).closed = true
  | .schedule .. | .scheduleNow _ | .scheduleWith .. | .scheduleDestroy _ | .stopAfter _
  | .call _ => a.sim.phase = .destroyed

/-- What is to be said against a call, and the error that says so. -/
inductive Objection (a : Machine K U) : Attempt K → SimError → Prop where
  | negative {x : Attempt K} {delay : Time} (hdelay : x.delay? = some delay)
      (hnegative : delay.isNegative = true) : Objection a x (.negativeDelay delay)
  | closed {x : Attempt K} (hclosed : a.IsClosedTo x) : Objection a x .destroyed
  | busy {c : Call} (hlooping : a.Looping) : Objection a (.call c) c.busy

lemma not_objection {x : Attempt K} (hdelay : ∀ delay, x.delay? = some delay →
    delay.isNegative = false) (hopen : ¬a.IsClosedTo x) (hcall : ∀ c, x = .call c → ¬a.Looping)
    (e : SimError) : ¬Objection a x e := by
  intro h
  cases h with
  | negative hd hnegative =>
    rw [hdelay _ hd] at hnegative
    cases hnegative
  | closed hclosed => exact hopen hclosed
  | busy hlooping => exact hcall _ rfl hlooping

/-! ### Answers -/

/-- A call is answered with an error, and without an effect, or with a value; which of the two
depends on the objections. -/
def Answers {α β : Type} (a : Machine K U) (x : Attempt K) (answer : Except SimError α × β)
    (before : β) : Prop :=
  (∃ e, Objection a x e ∧ answer = (.error e, before)) ∨
    (∀ e, ¬Objection a x e) ∧ ∃ v, answer.1 = .ok v

lemma answers_scheduleWith {x : Attempt K} {delay : Time} (hdelay : x.delay? = some delay)
    (hclosed : a.IsClosedTo x ↔ a.sim.phase = .destroyed) (hcall : ∀ c, x ≠ .call c)
    (context : ContextId) (task : Task K) :
    a.Answers x (a.sim.scheduleWith context delay task) a.sim := by
  rw [Simulator.scheduleWith]
  split
  · next hphase => exact Or.inl ⟨_, .closed (hclosed.mpr hphase), rfl⟩
  · next hphase =>
    split
    · next hnegative => exact Or.inl ⟨_, .negative hdelay hnegative, rfl⟩
    · next hnegative =>
      refine Or.inr ⟨not_objection ?_ (fun h => hphase (hclosed.mp h))
        fun c hc => absurd hc (hcall c), _, rfl⟩
      intro delay' hdelay'
      obtain rfl := Option.some.inj (hdelay.symm.trans hdelay')
      exact Bool.eq_false_iff.mpr hnegative

lemma answers_scheduleDestroy (k : K) :
    a.Answers (.scheduleDestroy k) (a.sim.scheduleDestroy (.user k)) a.sim := by
  rw [Simulator.scheduleDestroy]
  split
  · next hphase => exact Or.inl ⟨_, .closed hphase, rfl⟩
  · next hphase =>
    refine Or.inr ⟨not_objection ?_ hphase ?_, _, rfl⟩
    · intro delay hdelay
      cases hdelay
    · intro c hc
      cases hc

lemma answers_push (target : Nat) (context : ContextId) (delay : Time) (k : K) :
    a.Answers (.push target context delay k)
      ((a.inboxOf target).push ⟨context, delay, .user k⟩) (a.inboxOf target) := by
  rw [Inbox.push]
  split
  · next hnegative => exact Or.inl ⟨_, .negative rfl hnegative, rfl⟩
  · next hnegative =>
    split
    · next hclosed => exact Or.inl ⟨_, .closed hclosed, rfl⟩
    · next hopen =>
      refine Or.inr ⟨not_objection ?_ hopen ?_, _, rfl⟩
      · intro delay' hdelay
        obtain rfl := Option.some.inj hdelay
        exact Bool.eq_false_iff.mpr hnegative
      · intro c hc
        cases hc

/-- An inbox answers for itself, and if it stays as it is, so does everything else. -/
lemma askInbox_inboxOf (a : Machine K U) (target : Nat) (r : InboxRequest K) :
    (a.memory.askInbox target r a.sim).1 = (r.apply (a.inboxOf target)).1 ∧
      ((r.apply (a.inboxOf target)).2 = a.inboxOf target →
        (a.memory.askInbox target r a.sim).2 = (a.sim, a.memory)) := by
  rw [Memory.askInbox, inboxOf]
  split
  · refine ⟨rfl, fun hsame => ?_⟩
    dsimp only
    rw [hsame]
  · refine ⟨rfl, fun hsame => ?_⟩
    dsimp only
    rw [hsame, setIfInBounds_getD]

lemma answers_askInbox (target : Nat) (context : ContextId) (delay : Time) (k : K) :
    a.Answers (.push target context delay k)
      (a.memory.askInbox target (.schedule context delay k) a.sim) (a.sim, a.memory) := by
  obtain ⟨hanswer, hsame⟩ := a.askInbox_inboxOf target (.schedule context delay k)
  rcases a.answers_push target context delay k with ⟨e, he, hpush⟩ | ⟨hnone, v, hv⟩
  · refine Or.inl ⟨e, he, Prod.ext ?_ (hsame ?_)⟩
    · exact hanswer.trans (congrArg Prod.fst hpush)
    · exact congrArg Prod.snd hpush
  · exact Or.inr ⟨hnone, v, hanswer.trans hv⟩

/-! ### Steps -/

/-- What a call comes to: an error and no effect, or a value and a program that goes on. -/
def Settles (code : Code K U) (a : Machine K U) (x : Attempt K)
    (next : Except SimError x.Value → Program K U PUnit) (rest : List (Frame K U)) : Prop :=
  (∃ e, Objection a x e ∧
    step code a = { a with stack := .exec (next (.error e)) :: rest }) ∨
  (∀ e, ¬Objection a x e) ∧
    ∃ v, (step code a).stack = x.frames ++ .exec (next (.ok v)) :: rest

lemma Answers.withMemory {α : Type} {x : Attempt K} {answer : Except SimError α × Simulator K}
    (h : a.Answers x answer a.sim) :
    a.Answers x (answer.1, answer.2, a.memory) (a.sim, a.memory) := by
  rcases h with ⟨e, he, rfl⟩ | hok
  · exact Or.inl ⟨e, he, rfl⟩
  · exact Or.inr hok

/-- A request is answered by one step. -/
lemma step_of_ask (code : Code K U) {r : Request K U} {next : r.Reply → Program K U PUnit}
    (hstack : a.stack = .exec (.ask r next) :: rest) :
    step code a = ⟨(r.apply a.sim a.memory).2.1, (r.apply a.sim a.memory).2.2,
      .exec (next (r.apply a.sim a.memory).1) :: rest, false⟩ :=
  step_of_stack code hstack

section

variable (code : Code K U) (hb : a.broken = false)
include hb

lemma settles_of_answers {x : Attempt K} {next : Except SimError x.Value → Program K U PUnit}
    {answer : Except SimError x.Value × Simulator K × Memory K U}
    (hanswers : a.Answers x answer (a.sim, a.memory)) (hframes : x.frames (U := U) = [])
    (hstep : step code a = ⟨answer.2.1, answer.2.2, .exec (next answer.1) :: rest, false⟩) :
    Settles code a x next rest := by
  rcases hanswers with ⟨e, he, rfl⟩ | ⟨hnone, v, hv⟩
  · refine Or.inl ⟨e, he, ?_⟩
    rw [hstep, ← hb]
  · refine Or.inr ⟨hnone, v, ?_⟩
    rw [hstep, hframes, ← hv]
    rfl

lemma settles_call (ho : a.Orderly) (c : Call)
    {next : Except SimError PUnit → Program K U PUnit}
    (hstack : a.stack = .exec (c.program next) :: rest) :
    Settles code a (.call c) next rest := by
  by_cases hlooping : a.Looping
  · exact Or.inl ⟨_, .busy hlooping, c.step_of_running code hstack hb (hlooping.phase_eq ho)⟩
  by_cases hphase : a.sim.phase = .destroyed
  · exact Or.inl ⟨_, .closed hphase, c.step_of_destroyed code hstack hb hphase⟩
  · refine Or.inr ⟨not_objection ?_ hphase fun _ _ => hlooping, (), ?_⟩
    · intro delay hdelay
      cases hdelay
    · have hrunning : a.sim.phase ≠ .running := fun h => hlooping (ho.nested.running_iff.mp h)
      exact c.stack_step code hstack hrunning hphase

lemma settles (ho : a.Orderly) (x : Attempt K)
    {next : Except SimError x.Value → Program K U PUnit}
    (hstack : a.stack = .exec (x.program next) :: rest) : Settles code a x next rest := by
  cases x with
  | call c => exact settles_call code hb ho c hstack
  | schedule | scheduleNow | scheduleWith | stopAfter =>
    refine settles_of_answers code hb (Answers.withMemory ?_) rfl (step_of_ask code hstack)
    exact answers_scheduleWith rfl Iff.rfl (fun _ hc => by cases hc) _ _
  | scheduleDestroy k =>
    exact settles_of_answers code hb (answers_scheduleDestroy k).withMemory rfl
      (step_of_ask code hstack)
  | push target context delay k =>
    exact settles_of_answers code hb (answers_askInbox target context delay k) rfl
      (step_of_ask code hstack)

end

/-- A call is refused exactly if there is an objection to it: a negative delay, a simulator that was
torn down or an inbox that is closed, or, for a call to run the loop or to tear the simulator down,
a loop that runs. The error names an objection, and nothing has changed: the simulator and all that
is shared are what they were. The same holds of what another thread hands in. -/
theorem refused_without_effect (code : Code K U) (identity : Nat) (kind : QueueKind)
    (buckets : Nat) (sync : SyncMode) (m : Memory K U) (moves : List (Move K U)) :
    let a := play code moves (idle identity kind buckets sync m)
    (∀ (x : Attempt K) next rest, a.stack = .exec (x.program next) :: rest →
      Settles code a x next rest) ∧
    (∀ context delay k,
      let x : Attempt K := .push a.sim.identity context delay k
      let r : InboxRequest K := .schedule context delay k
      (∃ e, Objection a x e ∧ (r.apply a.sim.inbox).1 = .error e ∧ move code a (.remote r) = a) ∨
      (∀ e, ¬Objection a x e) ∧ (r.apply a.sim.inbox).1 = .ok ()) ∧
    (a.sim.phase = .running ↔ a.Looping) := by
  intro a
  obtain ⟨hb, -, -⟩ := timely_play code moves (a := idle identity kind buckets sync m)
    (Simulator.timely_create ..) rfl
  have hi : a.InTurn (chronicle code moves (idle identity kind buckets sync m)) :=
    (inTurn_idle identity kind buckets sync m).play code moves (Simulator.timely_create ..) rfl
  refine ⟨fun x next rest hstack => settles code hb hi.orderly x hstack,
    fun context delay k => ?_, hi.orderly.nested.running_iff⟩
  have hown : a.inboxOf a.sim.identity = a.sim.inbox := if_pos rfl
  have hpush := a.answers_push a.sim.identity context delay k
  rw [hown] at hpush
  rcases hpush with ⟨e, he, hpush⟩ | ⟨hnone, v, hv⟩
  · refine Or.inl ⟨e, he, congrArg Prod.fst hpush, ?_⟩
    exact congrArg (fun b => { a with sim := { a.sim with inbox := b } }) (congrArg Prod.snd hpush)
  · exact Or.inr ⟨hnone, hv⟩

end Machine

end EventKernel
