import EventKernel.Proofs.Machine.Account
import EventKernel.Proofs.Machine.Push

/-!
# The lock and the closed inbox

At most one push holds the lock. The flag that closes the inbox is set without it, so a push that
has found the inbox open can still append its event behind that; but then it holds the lock, and the
inbox is cleared only when the lock was given back. So an inbox that was cleared stays empty.
-/

namespace EventKernel

open Simulator (Course Later Timely Told)
open Machine (keysOf)

namespace Concurrent

variable {K U : Type} {code : Code K U} {c c' : Concurrent K U} {h more : History K}

/-! ### Pushes -/

lemma getElem?_setStage {i : Nat} {call : PushCall K} (hi : c.calls[i]? = some call)
    (stage : PushStage) (j : Nat) :
    (c.setStage i call stage).calls[j]? =
      if j = i then some { call with stage := stage } else c.calls[j]? := by
  obtain ⟨hlt, -⟩ := List.getElem?_eq_some_iff.mp hi
  rw [setStage, List.getElem?_set]
  by_cases hj : i = j
  · rw [if_pos hj, if_pos (hj ▸ hlt), if_pos hj.symm]
  · rw [if_neg hj, if_neg (Ne.symm hj)]

lemma getElem?_concat_cases {calls : List (PushCall K)} {p q : PushCall K} {j : Nat}
    (hj : (calls ++ [p])[j]? = some q) : calls[j]? = some q ∨ j = calls.length ∧ q = p := by
  rcases Nat.lt_or_ge j calls.length with hlt | hge
  · rw [List.getElem?_append_left hlt] at hj
    exact Or.inl hj
  · rw [List.getElem?_append_right hge, List.getElem?_singleton] at hj
    split at hj
    · next hzero => exact Or.inr ⟨by omega, (Option.some.inj hj).symm⟩
    · cases hj

lemma firstStage_cases (delay : Time) :
    firstStage delay = .waiting ∧ delay.isNegative = false ∨
      firstStage delay = .returned (.error (.negativeDelay delay)) ∧ delay.isNegative = true := by
  rw [firstStage]
  cases delay.isNegative
  · exact Or.inl ⟨rfl, rfl⟩
  · exact Or.inr ⟨rfl, rfl⟩

/-- The stage of a push fits what it was begun with, who holds the lock, and the inbox. -/
structure Fits (i : Nat) (holder : Option Nat) (closed : Bool) (p : PushCall K) : Prop where
  holdsLock_iff : p.stage.holdsLock = true ↔ holder = some i
  negative : p.delay.isNegative = true →
    p.stage = .returned (.error (.negativeDelay p.delay))
  refused : p.stage = .refused → closed = true
  error : ∀ e, p.stage = .returned (.error e) →
    p.delay.isNegative = true ∧ e = .negativeDelay p.delay ∨ closed = true ∧ e = .destroyed

section

variable {i : Nat} {holder : Option Nat} {closed closed' : Bool} {p : PushCall K}

lemma Fits.mono (hf : Fits i holder closed p) (hclosed : closed = true → closed' = true) :
    Fits i holder closed' p where
  holdsLock_iff := hf.holdsLock_iff
  negative := hf.negative
  refused hstage := hclosed (hf.refused hstage)
  error e hstage := (hf.error e hstage).imp id (And.imp_left hclosed)

/-- A push takes the lock. -/
lemma Fits.lock (hf : Fits i holder closed p) (hstage : p.stage = .waiting) :
    Fits i (some i) closed { p with stage := .locked } where
  holdsLock_iff := by simp [PushStage.holdsLock]
  negative hneg := by
    have hreturned := hf.negative hneg
    rw [hstage] at hreturned
    cases hreturned
  refused := by simp
  error := by simp

/-- A push that holds the lock goes on. -/
lemma Fits.proceed (hf : Fits i holder closed p) (hp : p.stage.holdsLock = true)
    {stage : PushStage} (hstage : stage.holdsLock = true)
    (hrefused : stage = .refused → closed = true) :
    Fits i holder closed { p with stage := stage } where
  holdsLock_iff := by simp [hstage, ← hf.holdsLock_iff, hp]
  negative hneg := by simp [hf.negative hneg, PushStage.holdsLock] at hp
  refused := hrefused
  error e he := by
    rw [show stage = .returned (.error e) from he] at hstage
    cases hstage

/-- A push gives the lock back. -/
lemma Fits.unlock (hf : Fits i holder closed p) (hp : p.stage.holdsLock = true)
    {answer : Except SimError PUnit}
    (hanswer : ∀ e, answer = .error e → closed = true ∧ e = .destroyed) :
    Fits i none closed { p with stage := .returned answer } where
  holdsLock_iff := by simp [PushStage.holdsLock]
  negative hneg := by simp [hf.negative hneg, PushStage.holdsLock] at hp
  refused := by simp
  error e he := Or.inr (hanswer e (PushStage.returned.inj he))

lemma fits_firstStage (context : ContextId) (delay : Time) (k : K) (hholder : holder ≠ some i) :
    Fits i holder closed ⟨context, delay, k, firstStage delay⟩ := by
  rcases firstStage_cases delay with ⟨hstage, hdelay⟩ | ⟨hstage, hdelay⟩
  · rw [hstage]
    exact ⟨by simp [PushStage.holdsLock, hholder], by simp [hdelay], by simp, by simp⟩
  · rw [hstage]
    exact ⟨by simp [PushStage.holdsLock, hholder], by simp, by simp, by simp [hdelay]⟩

end

/-- At most one push holds the lock, and none is refused by an open inbox. -/
structure Locking (c : Concurrent K U) : Prop where
  holder_lt : ∀ i, c.holder = some i → i < c.calls.length
  fits : ∀ i p, c.calls[i]? = some p → Fits i c.holder c.isClosed p

/-- One push comes to another stage, and may take the lock or give it back. -/
lemma Locking.setStage (hl : c.Locking) {i : Nat} {call : PushCall K}
    (hi : c.calls[i]? = some call) {stage : PushStage}
    (hcalls : c'.calls = (c.setStage i call stage).calls) (hclosed : c'.isClosed = c.isClosed)
    (hother : ∀ j, j ≠ i → (c'.holder = some j ↔ c.holder = some j))
    (hself : Fits i c'.holder c.isClosed { call with stage := stage }) : c'.Locking where
  holder_lt j hj := by
    rw [hcalls, Concurrent.setStage, List.length_set]
    by_cases hij : j = i
    · rw [hij]
      exact (List.getElem?_eq_some_iff.mp hi).1
    · exact hl.holder_lt j ((hother j hij).mp hj)
  fits j p hp := by
    rw [hcalls, getElem?_setStage hi] at hp
    rw [hclosed]
    split at hp
    · next hij =>
      obtain rfl := Option.some.inj hp
      rw [hij]
      exact hself
    · next hij =>
      have hf := hl.fits j p hp
      exact { hf with holdsLock_iff := hf.holdsLock_iff.trans (hother j hij).symm }

lemma Locking.effect (hl : c.Locking) (he : Effect code c more c') : c'.Locking := by
  have hclosed := he.passes.2
  cases he with
  | idle => exact hl
  | call context delay k =>
    refine ⟨?_, ?_⟩
    · intro i hi
      rw [List.length_append]
      exact Nat.lt_add_right 1 (hl.holder_lt i hi)
    · intro i p hp
      rcases getElem?_concat_cases hp with hp | ⟨rfl, rfl⟩
      · exact hl.fits i p hp
      · exact fits_firstStage context delay k fun hi => Nat.lt_irrefl _ (hl.holder_lt _ hi)
  | @lock i call hi hstage hfree =>
    refine hl.setStage hi rfl rfl (fun j hj => by simp [hfree, Ne.symm hj]) ?_
    exact (hl.fits i call hi).lock hstage
  | @pass i call hi hstage hopen =>
    refine hl.setStage hi rfl rfl (fun j _ => Iff.rfl) ?_
    exact (hl.fits i call hi).proceed (by rw [hstage]; rfl) rfl (by simp)
  | @refuse i call hi hstage hshut =>
    refine hl.setStage hi rfl rfl (fun j _ => Iff.rfl) ?_
    exact (hl.fits i call hi).proceed (by rw [hstage]; rfl) rfl fun _ => hshut
  | @append i call hi hstage =>
    refine hl.setStage hi rfl rfl (fun j _ => Iff.rfl) ?_
    exact (hl.fits i call hi).proceed (by rw [hstage]; rfl) rfl (by simp)
  | @accept i call hi hstage =>
    have hf := hl.fits i call hi
    have hlock : call.stage.holdsLock = true := by rw [hstage]; rfl
    have hholder := hf.holdsLock_iff.mp hlock
    refine hl.setStage hi rfl rfl (fun j hj => by simp [hholder, Ne.symm hj]) ?_
    exact hf.unlock hlock (by simp)
  | @reject i call hi hstage =>
    have hf := hl.fits i call hi
    have hlock : call.stage.holdsLock = true := by rw [hstage]; rfl
    have hholder := hf.holdsLock_iff.mp hlock
    refine hl.setStage hi rfl rfl (fun j hj => by simp [hholder, Ne.symm hj]) ?_
    exact hf.unlock hlock fun e he => ⟨hf.refused hstage, (Except.error.inj he).symm⟩
  | send | move => exact ⟨hl.holder_lt, fun i p hp => (hl.fits i p hp).mono hclosed⟩

/-! ### The machine -/

/-- The machine is in order, and the history tells what has become of the events. -/
structure Sane (h : History K) (c : Concurrent K U) : Prop where
  broken : c.machine.broken = false
  timely : c.machine.sim.Timely (keysOf h.taken)
  told : c.machine.sim.Told h.turns
  taken : ∀ p ∈ h.taken, ∃ fate, ⟨p.1, fate, p.2.unmarked⟩ ∈ h.turns

lemma Sane.course (hs : Sane h c) (hbroken : c'.machine.broken = c.machine.broken)
    (hcourse : Course c.machine.sim [] c'.machine.sim) (hturns : more.turns = [])
    (htaken : more.taken = []) : Sane (h ++ more) c' ∧ Later c.machine.sim c'.machine.sim := by
  obtain ⟨htimely, hlater⟩ := hs.timely.course hcourse
  have htold := hs.told.quiet hcourse
  refine ⟨⟨hbroken.trans hs.broken, ?_, ?_, ?_⟩, hlater⟩
  · rwa [History.taken_append, htaken, List.append_nil]
  · rwa [History.turns_append, hturns, List.append_nil]
  · rw [History.taken_append, htaken, History.turns_append, hturns, List.append_nil,
      List.append_nil]
    exact hs.taken

lemma Sane.move (hs : Sane h c) (code : Code K U) (mv : Move K U)
    (hmachine : c'.machine = Machine.move code c.machine mv) :
    Sane (h ++ c.machine.tells mv) c' ∧ Later c.machine.sim c'.machine.sim := by
  have hturns : (c.machine.tells mv).turns = c.machine.turns mv := by cases mv <;> rfl
  have htaken : (c.machine.tells mv).taken = (c.machine.takenBy? mv).toList := by cases mv <;> rfl
  obtain ⟨hbroken, htimely, hlater⟩ := Machine.timely_move code mv hs.timely hs.broken
  have htold := Machine.told_move code mv hs.timely hs.broken hs.told
  rw [← hmachine] at hbroken htimely hlater htold
  refine ⟨⟨hbroken, ?_, ?_, ?_⟩, hlater⟩
  · rw [History.taken_append, htaken, keysOf, List.map_append]
    exact htimely
  · rwa [History.turns_append, hturns]
  · intro p hp
    rw [History.turns_append, hturns]
    rw [History.taken_append, htaken] at hp
    rcases List.mem_append.mp hp with hp | hp
    · obtain ⟨fate, hfate⟩ := hs.taken p hp
      exact ⟨fate, List.mem_append_left _ hfate⟩
    · obtain ⟨hone, -⟩ := Machine.turns_of_takenBy? code mv hs.timely hs.broken hs.told.sound
        (Option.mem_toList.mp hp)
      rw [hone]
      exact ⟨_, List.mem_append_right _ List.mem_cons_self⟩

lemma Sane.effect (hs : Sane h c) (hl : c.Locking) (he : Effect code c more c') :
    Sane (h ++ more) c' ∧ Later c.machine.sim c'.machine.sim := by
  cases he with
  | idle | call | lock | pass | refuse | accept | reject => exact hs.course rfl (.refl _) rfl rfl
  | @append i call hi hstage =>
    refine hs.course rfl (.single (.inbox c.machine.sim _ ?_)) rfl rfl
    intro ev hev
    rcases Array.mem_push.mp hev with hev | rfl
    · exact Or.inl hev
    · refine Or.inr ⟨Bool.eq_false_iff.mpr fun hneg => ?_, call.k, rfl⟩
      have hreturned := (hl.fits i call hi).negative hneg
      rw [hstage] at hreturned
      cases hreturned
  | send => exact hs.course rfl (c.machine.course_post _) rfl rfl
  | @move mv => exact hs.move code.mute mv rfl

/-! ### Closing -/

/-- The inbox is closed and empty for good: no push is about to append an event any more. -/
structure Done (c : Concurrent K U) : Prop where
  closed : c.isClosed = true
  waiting : c.waiting = []
  not_admitted : ∀ (i : Nat) (p : PushCall K), c.calls[i]? = some p → p.stage ≠ .admitted

lemma admitted_setStage {i j : Nat} {call p : PushCall K} (hi : c.calls[i]? = some call)
    {stage : PushStage} (hcalls : c'.calls = (c.setStage i call stage).calls)
    (hstage : stage.isAdmitted = true →
      call.stage.isAdmitted = true ∧ (stage = .admitted → call.stage = .admitted))
    (hp : c'.calls[j]? = some p) (hadmitted : p.stage.isAdmitted = true) :
    ∃ old, c.calls[j]? = some old ∧ old.stage.isAdmitted = true ∧
      (p.stage = .admitted → old.stage = .admitted) := by
  rw [hcalls, getElem?_setStage hi] at hp
  split at hp
  · next hij =>
    obtain rfl := Option.some.inj hp
    exact ⟨call, hij ▸ hi, hstage hadmitted⟩
  · exact ⟨p, hp, hadmitted, id⟩

/-- A closed inbox admits no push any more. -/
lemma Effect.admitted (he : Effect code c more c') (hclosed : c.isClosed = true) {j : Nat}
    {p : PushCall K} (hp : c'.calls[j]? = some p) (hadmitted : p.stage.isAdmitted = true) :
    ∃ old, c.calls[j]? = some old ∧ old.stage.isAdmitted = true ∧
      (p.stage = .admitted → old.stage = .admitted) := by
  cases he with
  | idle | send | move => exact ⟨p, hp, hadmitted, id⟩
  | call context delay k =>
    rcases getElem?_concat_cases hp with hp | ⟨-, rfl⟩
    · exact ⟨p, hp, hadmitted, id⟩
    · rcases firstStage_cases delay with ⟨hstage, -⟩ | ⟨hstage, -⟩ <;>
        simp [hstage, PushStage.isAdmitted] at hadmitted
  | pass hi hstage hopen =>
    rw [isClosed, hopen] at hclosed
    cases hclosed
  | append hi hstage | accept hi hstage =>
    refine admitted_setStage hi rfl (fun _ => ⟨by rw [hstage]; rfl, by simp⟩) hp hadmitted
  | lock hi | refuse hi | reject hi =>
    exact admitted_setStage hi rfl (by simp [PushStage.isAdmitted]) hp hadmitted

lemma Effect.accepted_of_closed (he : Effect code c more c') (hclosed : c.isClosed = true)
    (hnone : ∀ (i : Nat) (p : PushCall K), c.calls[i]? = some p → p.stage ≠ .admitted) :
    more.accepted = [] := by
  cases he with
  | idle | call | lock | pass | refuse | accept | reject => rfl
  | @append i call hi hstage => exact absurd hstage (hnone i call hi)
  | send => exact if_pos hclosed
  | @move mv =>
    cases mv with
    | step => exact if_pos hclosed
    | remote | enter => rfl

lemma Done.effect (hd : Done c) (he : Effect code c more c') :
    Done c' ∧ more.inserted = [] ∧ more.discarded = [] := by
  obtain ⟨hflow, hclosed⟩ := he.passes
  rw [hd.waiting, he.accepted_of_closed hd.closed hd.not_admitted] at hflow
  have hnil := List.append_eq_nil_iff.mp hflow.symm
  have hnil' := List.append_eq_nil_iff.mp hnil.1
  refine ⟨⟨hclosed hd.closed, hnil.2, ?_⟩, List.map_eq_nil_iff.mp hnil'.1, hnil'.2⟩
  intro i p hp hstage
  obtain ⟨old, hold, -, hsame⟩ := he.admitted hd.closed hp (by rw [hstage]; rfl)
  exact hd.not_admitted i old hold (hsame hstage)

/-- When the inbox is cleared, no push is about to append an event, since none holds the lock. -/
lemma done_of_clear (code : Code K U) (hl : c.Locking) (hclosed : c.isClosed = true)
    (hfree : c.holder = none) {rest : List (Frame K U)} (hstack : c.machine.stack = .clear :: rest)
    (unsent : List (Message K)) :
    ({ c with machine := Machine.move code c.machine .step, unsent := unsent } :
      Concurrent K U).Done where
  closed := by
    obtain ⟨⟨s, m, stack, broken⟩, unsent', calls, holder⟩ := c
    obtain rfl : stack = .clear :: rest := hstack
    exact hclosed
  waiting := by
    obtain ⟨⟨s, m, stack, broken⟩, unsent', calls, holder⟩ := c
    obtain rfl : stack = .clear :: rest := hstack
    rfl
  not_admitted := by
    intro i p hp hstage
    have hlock := (hl.fits i p hp).holdsLock_iff.mp (by rw [hstage]; rfl)
    rw [hfree] at hlock
    cases hlock

/-- Once teardown is over the inbox is closed and empty for good. -/
structure Shutting (c : Concurrent K U) : Prop where
  clear : .clear ∈ c.machine.stack → c.isClosed = true
  destroyed : c.machine.sim.phase = .destroyed → .clear ∈ c.machine.stack ∨ c.Done

lemma Shutting.step (hd : c.Shutting) (hs : Sane h c) (hl : c.Locking)
    {f : Frame K U} {rest : List (Frame K U)} (hstack : c.machine.stack = f :: rest)
    (hfree : f = .clear → c.holder = none) (unsent : List (Message K))
    (he : Effect code c more
      { c with machine := Machine.move code.mute c.machine .step, unsent := unsent }) :
    ({ c with machine := Machine.move code.mute c.machine .step, unsent := unsent } :
      Concurrent K U).Shutting := by
  have hclosed := he.passes.2
  have hdone : c.Done → _ := fun hd => (hd.effect he).1
  obtain ⟨⟨s, m, stack, broken⟩, unsent', calls, holder⟩ := c
  obtain rfl : stack = f :: rest := hstack
  obtain ⟨top, hleaves, htop⟩ := Machine.leaves_stepFrame code.mute f hs.timely m rest
  have hmem : ∀ {g}, g ∈ (Machine.stepFrame code.mute f s m rest).stack ↔ g ∈ top ∨ g ∈ rest := by
    intro g
    rw [htop, List.mem_append]
  by_cases hf : f = .close
  · subst hf
    exact ⟨fun _ => rfl, fun _ => Or.inl List.mem_cons_self⟩
  · obtain ⟨hnot, hphase⟩ := hleaves.of_ne_close hf
    refine ⟨?_, ?_⟩
    · intro hclear
      rcases hmem.mp hclear with hclear | hclear
      · exact absurd hclear hnot
      · exact hclosed (hd.clear (List.mem_cons_of_mem f hclear))
    · intro hdestroyed
      rcases hd.destroyed (hphase hdestroyed) with hclear | hold
      · rcases List.mem_cons.mp hclear with rfl | hrest
        · exact Or.inr (done_of_clear code.mute hl (hd.clear hclear) (hfree rfl) rfl unsent)
        · exact Or.inl (hmem.mpr (Or.inr hrest))
      · exact Or.inr (hdone hold)

lemma Shutting.congr (hd : c.Shutting) (hclosed : c.isClosed = true → c'.isClosed = true)
    (hdone : c.Done → c'.Done) (hphase : c'.machine.sim.phase = c.machine.sim.phase)
    (hstack : .clear ∈ c'.machine.stack ↔ .clear ∈ c.machine.stack) : c'.Shutting where
  clear hmem := hclosed (hd.clear (hstack.mp hmem))
  destroyed hdestroyed := (hd.destroyed (hphase.symm.trans hdestroyed)).imp hstack.mpr hdone

lemma Shutting.effect (hd : c.Shutting) (hs : Sane h c) (hl : c.Locking)
    (he : Effect code c more c') : c'.Shutting := by
  have hclosed := he.passes.2
  have hdone : c.Done → c'.Done := fun hd => (hd.effect he).1
  cases he with
  | idle | call | lock | pass | refuse | accept | reject | append =>
    exact hd.congr hclosed hdone rfl Iff.rfl
  | @send msg msgs hunsent =>
    refine hd.congr hclosed hdone ?_ Iff.rfl
    show (Machine.send c.machine.sim c.machine.memory [msg]).1.phase = _
    rw [(Machine.send_unchanged _ _ _).1]
  | @move mv unsent hmv hlock =>
    cases mv with
    | remote r => exact hd.congr hclosed hdone rfl Iff.rfl
    | enter f p =>
      refine hd.congr hclosed hdone ?_ ?_
      · rw [Machine.move]
        split <;> rfl
      · rw [Machine.move]
        split
        · next hnil => simp [List.isEmpty_iff.mp hnil]
        · exact Iff.rfl
    | step =>
      cases hstack : c.machine.stack with
      | nil =>
        obtain ⟨⟨s, m, stack, broken⟩, unsent', calls, holder⟩ := c
        obtain rfl : stack = [] := hstack
        exact hd.congr hclosed hdone rfl Iff.rfl
      | cons f rest =>
        refine hd.step hs hl hstack ?_ unsent (.move unsent hmv hlock)
        rintro rfl
        exact hlock rest rfl hstack

end Concurrent

end EventKernel
