import EventKernel.Proofs.Machine.Lock

/-!
# What becomes of pushes

Whatever order the threads take their steps in, an event that was accepted is stored once, in its
turn, or dropped at teardown, or still waits. The events are numbered in the order in which they
were accepted, so one that was accepted earlier and has no longer a delay is taken off the queue
first.
-/

namespace EventKernel

open Simulator (Later Timely Told)
open Machine (keysOf)

variable {K U : Type}

lemma Time.add_le_add {t t' u u' : Time} (h : t ≤ t') (h' : u ≤ u') : t + u ≤ t' + u' := by
  rw [le_iff] at h h' ⊢
  rw [ticks_add, ticks_add, ticks_clamp, ticks_clamp]
  omega

/-! ### Lives -/

section

variable {id : EventId} {own : List (Turn K)} {v : Option (Event (Task K))}

/-- An event is issued first, and not again. -/
lemma Life.eq_cons (hlife : Life id own v) (hown : own ≠ []) :
    ∃ ev rest, own = ⟨id, .issued, ev⟩ :: rest ∧ ∀ x ∈ rest, x.fate ≠ .issued := by
  cases hlife with
  | unborn => exact absurd rfl hown
  | @pending ev => exact ⟨ev, _, rfl, by simp⟩
  | @cancelled ev => exact ⟨ev, _, rfl, by simp⟩
  | @gone ev fate hev hfate => exact ⟨ev, _, rfl, by rcases hfate with rfl | rfl | rfl <;> simp⟩
  | @cancelledGone ev fate hev hfate =>
    exact ⟨ev, _, rfl, by rcases hfate with rfl | rfl | rfl <;> simp⟩

lemma Life.filter_issued (hlife : Life id own v) {x : Turn K} (hx : x ∈ own)
    (hissued : x.fate = .issued) : own.filter (·.fate = .issued) = [x] := by
  obtain ⟨ev, rest, rfl, hrest⟩ := hlife.eq_cons (List.ne_nil_of_mem hx)
  have hnone : rest.filter (·.fate = .issued) = [] :=
    List.filter_eq_nil_iff.mpr fun y hy => by simpa using hrest y hy
  rcases List.mem_cons.mp hx with rfl | hx
  · simp [hnone]
  · exact absurd hissued (hrest x hx)

lemma Life.issued_eq (hlife : Life id own v) {x y : Turn K} (hx : x ∈ own)
    (hxissued : x.fate = .issued) (hy : y ∈ own) (hyissued : y.fate = .issued) : x = y := by
  have hfilter := hlife.filter_issued hx hxissued
  rw [hlife.filter_issued hy hyissued] at hfilter
  exact (List.singleton_inj.mp hfilter).symm

lemma Life.issued_of_held {ev : Event (Task K)} (hlife : Life id own (some ev)) :
    ⟨id, .issued, ev.unmarked⟩ ∈ own := by
  cases hlife with
  | pending hev => simp [Event.unmarked_of_pending hev]
  | @cancelled ev hev =>
    have hsame : ({ ev with cancelled := true } : Event (Task K)).unmarked = ev :=
      Event.unmarked_of_pending hev
    rw [hsame]
    exact List.mem_cons_self

end

namespace Concurrent

variable {code : Code K U} {c c' : Concurrent K U} {h more : History K}

/-! ### Where accepted events are -/

/-- What comes in from the push `i`, if it has arrived. -/
def arrival (i : Nat) (p : PushCall K) : List (Option Nat × RemoteEvent (Task K)) :=
  if p.stage.hasArrived then [(some i, p.event)] else []

def arrivals (c : Concurrent K U) (i : Nat) : List (Option Nat × RemoteEvent (Task K)) :=
  (c.calls[i]?).toList.flatMap (arrival i)

/-- Every accepted event is stored, dropped or waiting, in this order; and each push of another
thread that has arrived was accepted once. -/
structure Accounted (h : History K) (c : Concurrent K U) : Prop where
  accepted_eq : h.accepted.map (·.2) = h.inserted.map (·.event) ++ h.discarded ++ c.waiting
  ofCall : ∀ i, h.accepted.filter (·.1 = some i) = c.arrivals i
  done : h.discarded = [] ∨ c.Done

lemma arrivals_eq {i : Nat} {p : PushCall K} (hi : c.calls[i]? = some p) :
    c.arrivals i = arrival i p := by
  rw [arrivals, hi, Option.toList_some, List.flatMap_singleton]

lemma filter_admits (b : Inbox (Task K)) (evs : List (RemoteEvent (Task K))) (i : Nat) :
    (b.admits evs).filter (·.1 = some i) = [] := by
  rw [Inbox.admits]
  split
  · rfl
  · simp

/-- A push comes to another stage. -/
lemma arrivals_setStage {i : Nat} {call : PushCall K} (hi : c.calls[i]? = some call)
    {stage : PushStage} (hcalls : c'.calls = (c.setStage i call stage).calls) (more : History K)
    (hstage : arrival i { call with stage := stage } =
      arrival i call ++ more.accepted.filter (·.1 = some i))
    (hother : ∀ j, j ≠ i → more.accepted.filter (·.1 = some j) = []) (j : Nat) :
    c'.arrivals j = c.arrivals j ++ more.accepted.filter (·.1 = some j) := by
  by_cases hj : j = i
  · have hnew : c'.calls[i]? = some { call with stage := stage } := by
      rw [hcalls, getElem?_setStage hi, if_pos rfl]
    rw [hj, arrivals_eq hi, arrivals_eq hnew, hstage]
  · rw [arrivals, hcalls, getElem?_setStage hi, if_neg hj, hother j hj, List.append_nil, arrivals]

lemma Effect.arrivals (he : Effect code c more c') (i : Nat) :
    c'.arrivals i = c.arrivals i ++ more.accepted.filter (·.1 = some i) := by
  cases he with
  | idle => exact (List.append_nil _).symm
  | call context delay k =>
    have hnone : (⟨context, delay, k, firstStage delay⟩ : PushCall K).stage.hasArrived = false := by
      rcases firstStage_cases delay with ⟨hstage, -⟩ | ⟨hstage, -⟩ <;> rw [hstage] <;> rfl
    show _ = c.arrivals i ++ []
    rw [Concurrent.arrivals, Concurrent.arrivals, List.append_nil, List.getElem?_append]
    split
    · rfl
    · next hlt =>
      rw [List.getElem?_eq_none (Nat.not_lt.mp hlt), List.getElem?_singleton]
      split
      · simp [arrival, hnone]
      · rfl
  | lock hi hstage | pass hi hstage | refuse hi hstage | accept hi hstage | reject hi hstage =>
    refine arrivals_setStage hi rfl {} ?_ (fun _ _ => rfl) i
    simp [arrival, hstage, PushStage.hasArrived, PushCall.event]
  | @append j call hi hstage =>
    refine arrivals_setStage hi rfl { accepted := [(some j, call.event)] } ?_ ?_ i
    · simp [arrival, hstage, PushStage.hasArrived, PushCall.event]
    · intro k hk
      simp [Ne.symm hk]
  | send =>
    rw [filter_admits, List.append_nil]
    rfl
  | @move mv =>
    cases mv with
    | step =>
      rw [Machine.tells, filter_admits, List.append_nil]
      rfl
    | remote | enter => exact (List.append_nil _).symm

/-- What is dropped is dropped when the inbox is cleared. -/
lemma Effect.done_of_discarded (he : Effect code c more c') (hl : c.Locking) (hd : c.Shutting)
    (hne : more.discarded ≠ []) : c'.Done := by
  cases he with
  | idle | call | lock | pass | refuse | append | accept | reject | send => exact absurd rfl hne
  | @move mv unsent hmv hlock =>
    cases mv with
    | remote | enter => exact absurd rfl hne
    | step =>
      cases hstack : c.machine.stack with
      | nil =>
        rw [Machine.tells, hstack] at hne
        exact absurd rfl hne
      | cons f rest =>
        rw [Machine.tells, hstack] at hne
        cases f with
        | clear =>
          have hclosed := hd.clear (by rw [hstack]; exact List.mem_cons_self)
          exact done_of_clear code.mute hl hclosed (hlock rest rfl hstack) hstack unsent
        | _ => exact absurd rfl hne

lemma Accounted.effect (ha : Accounted h c) (hl : c.Locking) (hd : c.Shutting)
    (he : Effect code c more c') : Accounted (h ++ more) c' where
  accepted_eq := by
    have hflow := he.passes.1
    simp only [History.accepted_append, History.inserted_append, History.discarded_append,
      List.map_append]
    rw [ha.accepted_eq, List.append_assoc, hflow]
    rcases ha.done with hnone | hdone
    · simp [hnone]
    · obtain ⟨-, hinserted, hdiscarded⟩ := hdone.effect he
      simp [hinserted, hdiscarded]
  ofCall i := by
    rw [History.accepted_append, List.filter_append, ha.ofCall, he.arrivals]
  done := by
    by_cases hmore : more.discarded = []
    · rw [History.discarded_append, hmore, List.append_nil]
      exact ha.done.imp id fun hdone => (hdone.effect he).1
    · exact Or.inr (he.done_of_discarded hl hd hmore)

/-! ### The order of events -/

/-- What is stored comes from emptying the inbox. -/
lemma Effect.inserted_cases (he : Effect code c more c') :
    more.inserted = [] ∨
      more.inserted = c.machine.sim.drainInsertions ∧ more.turns = c.machine.sim.drainTurns ∧
        c'.machine.sim = c.machine.sim.drainInbox := by
  cases he with
  | idle | call | lock | pass | refuse | append | accept | reject | send => exact Or.inl rfl
  | @move mv unsent hmv hlock =>
    cases mv with
    | remote | enter => exact Or.inl rfl
    | step =>
      obtain ⟨⟨s, m, stack, broken⟩, unsent', calls, holder⟩ := c
      cases stack with
      | nil => exact Or.inl rfl
      | cons f rest =>
        cases f with
        | loop =>
          refine Or.inr ⟨?_, ?_, rfl⟩
          · exact List.flatMap_singleton ..
          · exact Machine.turns_step ..
        | _ => exact Or.inl rfl

section

variable (hs : Sane h c)
include hs

/-- An event that is stored gets a handle of its own, under which the simulator holds it. -/
lemma Sane.held_of_inserted (he : Effect code c more c') {x : Insertion K}
    (hx : x ∈ more.inserted) :
    x.now = c.machine.sim.now ∧ c.machine.sim.scheduler.get? x.id = none ∧
      c'.machine.sim.scheduler.get? x.id = some x.stored ∧ x.turn ∈ more.turns ∧
      c.machine.sim.sequences.next ≤ x.id.sequence := by
  rcases he.inserted_cases with hnone | ⟨hinserted, hturns, hsim⟩
  · rw [hnone] at hx
    cases hx
  · rw [hinserted] at hx
    obtain ⟨hnone, hsome⟩ := hs.told.sound.find?_drainInsertions hs.timely.delay_nonneg hx
    obtain ⟨slot, n, hid⟩ := Simulator.queued_of_mem_drainInsertions hx
    rw [hid] at hnone hsome
    refine ⟨Simulator.now_of_mem_drainInsertions hx, ?_, ?_, ?_, ?_⟩
    · rw [hid]
      exact hnone
    · rw [hsim, hid]
      exact hsome
    · rw [hturns, hs.told.sound.drainTurns_eq hs.timely.delay_nonneg]
      exact List.mem_map_of_mem hx
    · exact hs.told.sound.le_sequence_drainInsertions hs.timely.delay_nonneg hx

end

/-- What was stored was issued, and later events have larger sequence numbers. -/
structure Ordered (h : History K) (c : Concurrent K U) : Prop where
  pairwise : h.inserted.Pairwise fun x y => x.now ≤ y.now ∧ x.id.sequence < y.id.sequence
  now_le : ∀ x ∈ h.inserted, x.now ≤ c.machine.sim.now
  issued : ∀ x ∈ h.inserted, x.turn ∈ h.turns
  queued : ∀ x ∈ h.inserted, ∃ slot n, x.id = .queued slot n

lemma Ordered.effect (ho : Ordered h c) (hs : Sane h c)
    (hlater : Later c.machine.sim c'.machine.sim) (he : Effect code c more c') : Ordered (h ++ more) c' where
  pairwise := by
    refine List.pairwise_append.mpr ⟨ho.pairwise, ?_, ?_⟩
    · rcases he.inserted_cases with hnone | ⟨hinserted, -, -⟩
      · rw [hnone]
        exact .nil
      · rw [hinserted]
        exact hs.told.sound.pairwise_drainInsertions hs.timely.delay_nonneg
    · intro x hx y hy
      obtain ⟨hnow, -, -, -, hnext⟩ := hs.held_of_inserted he hy
      have hlt := (hs.told.sequence_lt x.turn (ho.issued x hx)).2
      rw [hnow]
      exact ⟨ho.now_le x hx, Nat.lt_of_lt_of_le hlt hnext⟩
  now_le x hx := by
    rcases List.mem_append.mp hx with hx | hx
    · exact Int.le_trans (ho.now_le x hx) hlater.now_le
    · rw [(hs.held_of_inserted he hx).1]
      exact hlater.now_le
  issued x hx := by
    rcases List.mem_append.mp hx with hx | hx
    · exact List.mem_append_left _ (ho.issued x hx)
    · exact List.mem_append_right _ (hs.held_of_inserted he hx).2.2.2.1
  queued x hx := by
    rcases List.mem_append.mp hx with hx | hx
    · exact ho.queued x hx
    · rcases he.inserted_cases with hnone | ⟨hinserted, -, -⟩
      · rw [hnone] at hx
        cases hx
      · rw [hinserted] at hx
        exact Simulator.queued_of_mem_drainInsertions hx

lemma key_lt {x y : Insertion K} (hnow : x.now ≤ y.now) (hseq : x.id.sequence < y.id.sequence)
    (hdelay : x.event.delay ≤ y.event.delay) : x.stored.key < y.stored.key := by
  have htime : x.stored.key.time ≤ y.stored.key.time := Time.add_le_add hnow hdelay
  rw [EventKey.lt_iff]
  rw [Time.le_iff] at htime
  rcases Int.lt_or_eq_of_le htime with hlt | heq
  · exact Or.inl hlt
  · exact Or.inr ⟨heq, hseq⟩

section

variable (hs : Sane h c) {x y : Insertion K}
include hs

/-- What is taken off the queue under a handle is what was stored under it. -/
lemma Sane.key_of_taken (hx : x.turn ∈ h.turns) {u : Event (Task K)} (hu : (x.id, u) ∈ h.taken) :
    u.key = x.stored.key := by
  obtain ⟨fate, hfate⟩ := hs.taken _ hu
  have hissued := (hs.told.life x.id).issued_of_mem (mem_turnsOf.mpr ⟨hfate, rfl⟩)
  have hsame := (hs.told.life x.id).issued_eq (mem_turnsOf.mpr ⟨hx, rfl⟩) rfl hissued rfl
  exact congrArg (·.event.key) hsame.symm

lemma Sane.key_of_held (hx : x.turn ∈ h.turns) {u : Event (Task K)}
    (hu : c.machine.sim.find? x.id = some u) : u.key = x.stored.key := by
  have hlife := hs.told.life x.id
  rw [hu] at hlife
  have hsame := hlife.issued_eq (mem_turnsOf.mpr ⟨hx, rfl⟩) rfl hlife.issued_of_held rfl
  exact congrArg (·.event.key) hsame.symm

/-- Events are taken off the queue in the order of their keys. -/
lemma Sane.lt_of_taken (hx : x.turn ∈ h.turns) (hy : y.turn ∈ h.turns)
    (hlt : x.stored.key < y.stored.key) {p q : Nat} {u v : Event (Task K)}
    (hp : h.taken[p]? = some (x.id, u)) (hq : h.taken[q]? = some (y.id, v)) : p < q := by
  have hu := hs.key_of_taken hx (List.mem_of_getElem? hp)
  have hv := hs.key_of_taken hy (List.mem_of_getElem? hq)
  rw [← hu, ← hv] at hlt
  rcases Nat.lt_trichotomy p q with hpq | rfl | hqp
  · exact hpq
  · rw [hp, Option.some.injEq, Prod.mk.injEq] at hq
    rw [hq.2] at hlt
    exact absurd hlt (lt_irrefl _)
  · obtain ⟨hplt, hp⟩ := List.getElem?_eq_some_iff.mp hp
    obtain ⟨hqlt, hq⟩ := List.getElem?_eq_some_iff.mp hq
    have hpairwise := List.pairwise_map.mp hs.timely.pairwise
    have hlt' := List.pairwise_iff_getElem.mp hpairwise q p hqlt hplt hqp
    rw [hp, hq] at hlt'
    exact absurd hlt' (lt_asymm hlt)

/-- What is taken off the queue leaves nothing behind that lies before it. -/
lemma Sane.get?_of_taken (hx : x.turn ∈ h.turns) (hqueued : ∃ slot n, x.id = .queued slot n)
    (hy : y.turn ∈ h.turns) (hlt : x.stored.key < y.stored.key)
    (htaken : y.id ∈ h.taken.map (·.1)) : c.machine.sim.scheduler.get? x.id = none := by
  obtain ⟨⟨id, v⟩, hv, rfl⟩ := List.mem_map.mp htaken
  obtain ⟨slot, n, hid⟩ := hqueued
  rw [← hs.key_of_taken hy hv] at hlt
  rw [hid, Option.eq_none_iff_forall_ne_some]
  intro u hu
  have hheld : c.machine.sim.find? x.id = some u := by
    rw [hid]
    exact hu
  rw [← hs.key_of_held hx hheld] at hlt
  have hkey : v.key ∈ keysOf h.taken := List.mem_map_of_mem (f := fun p => p.2.key) hv
  exact lt_asymm hlt (hs.timely.taken_lt v.key hkey _ (Arena.mem_entries_of_get? hu))

end

/-! ### Runs -/

/-- What holds throughout a run. -/
structure Tracked (h : History K) (c : Concurrent K U) : Prop where
  sane : Sane h c
  locking : c.Locking
  shutting : c.Shutting
  accounted : Accounted h c
  ordered : Ordered h c

lemma tracked_idle (identity : Nat) (kind : QueueKind) (buckets : Nat) (sync : SyncMode)
    (m : Memory K U) :
    Tracked {} ({ machine := .idle identity kind buckets sync m } : Concurrent K U) where
  sane := ⟨rfl, Simulator.timely_create .., Simulator.told_create .., fun p hp => by cases hp⟩
  locking := ⟨by simp, by simp⟩
  shutting := ⟨by simp [Machine.idle], by simp [Machine.idle, Simulator.create]⟩
  accounted := ⟨rfl, fun i => rfl, Or.inl rfl⟩
  ordered := ⟨.nil, by simp, by simp, by simp⟩

lemma Tracked.effect (ht : Tracked h c) (he : Effect code c more c') : Tracked (h ++ more) c' := by
  obtain ⟨hsane, hlater⟩ := ht.sane.effect ht.locking he
  exact {
    sane := hsane
    locking := ht.locking.effect he
    shutting := ht.shutting.effect ht.sane ht.locking he
    accounted := ht.accounted.effect ht.locking ht.shutting he
    ordered := ht.ordered.effect ht.sane hlater he }

lemma Tracked.play (ht : Tracked h c) (code : Code K U) (acts : List (Action K U)) :
    Tracked (h ++ history code acts c) (play code acts c) := by
  induction acts generalizing c h with
  | nil =>
    rw [history, History.append_nil]
    exact ht
  | cons x acts ih =>
    rw [history, ← History.append_assoc]
    exact ih (ht.effect (c.effect_act code x))

lemma Done.play (hd : c.Done) (code : Code K U) (acts : List (Action K U)) :
    (play code acts c).Done := by
  induction acts generalizing c with
  | nil => exact hd
  | cons x acts ih => exact ih (hd.effect (c.effect_act code x)).1

/-- A push that a closed inbox has admitted had been admitted before. -/
lemma admitted_play (code : Code K U) (acts : List (Action K U)) (hclosed : c.isClosed = true)
    {i : Nat} {p : PushCall K} (hp : (play code acts c).calls[i]? = some p)
    (hadmitted : p.stage.isAdmitted = true) :
    ∃ old, c.calls[i]? = some old ∧ old.stage.isAdmitted = true := by
  induction acts generalizing c with
  | nil => exact ⟨p, hp, hadmitted⟩
  | cons x acts ih =>
    have he := c.effect_act code x
    obtain ⟨old, hold, hadmitted⟩ := ih (he.passes.2 hclosed) hp
    obtain ⟨older, holder, hadmitted, -⟩ := he.admitted hclosed hold hadmitted
    exact ⟨older, holder, hadmitted⟩

/-- The step that ends teardown clears the inbox. -/
lemma Tracked.done_of_return (ht : Tracked h c) (code : Code K U) {rest : List (Frame K U)}
    (hstack : c.machine.stack = .clear :: rest)
    (hreturn : (act code c .step).machine.stack = rest) : (act code c .step).Done := by
  have hne : c.machine.stack ≠ rest := by
    rw [hstack]
    exact List.cons_ne_self _ _
  rw [act] at hreturn ⊢
  split at hreturn
  · exact absurd hreturn hne
  · next hwaits =>
    rw [if_neg hwaits]
    rw [goOn] at hreturn ⊢
    cases hunsent : c.unsent with
    | cons msg msgs =>
      rw [hunsent] at hreturn
      exact absurd hreturn hne
    | nil =>
      have hfree : c.holder = none := by
        rw [waits, hunsent, hstack] at hwaits
        simpa [Frame.locks, Frame.opens] using hwaits
      have hclosed := ht.shutting.clear (by rw [hstack]; exact List.mem_cons_self)
      exact done_of_clear code.mute ht.locking hclosed hfree hstack _

/-- Closing the inbox does not wait for the lock. -/
lemma isClosed_of_close (code : Code K U) (hunsent : c.unsent = []) {rest : List (Frame K U)}
    (hstack : c.machine.stack = .close :: rest) : (act code c .step).isClosed = true := by
  have hwaits : c.waits = false := by
    rw [waits, hunsent, hstack]
    exact Bool.and_false _
  obtain ⟨⟨s, m, stack, broken⟩, unsent, calls, holder⟩ := c
  obtain rfl : stack = .close :: rest := hstack
  obtain rfl : unsent = [] := hunsent
  rw [act, hwaits]
  rfl

/-- A callback is told whether the event that it has handed in at its own simulator was accepted. -/
lemma accepted_of_ask (code : Code K U) (hunsent : c.unsent = []) (hwaits : c.waits = false)
    {context : ContextId} {delay : Time} {k : K}
    {next : Except SimError PUnit → Program K U PUnit} {rest : List (Frame K U)}
    (hstack : c.machine.stack =
      .exec (.ask (.inbox c.machine.sim.identity (.schedule context delay k)) next) :: rest) :
    ∃ answer, (act code c .step).machine.stack = .exec (next answer) :: rest ∧
      (c.tells .step).accepted =
        match answer with
        | .ok _ => [(none, ⟨context, delay, .user k⟩)]
        | .error _ => [] := by
  have hadmits : (c.tells .step).accepted =
      c.machine.sim.inbox.admits (InboxRequest.schedule context delay k).handsIn := by
    simp [tells, hwaits, hunsent, Machine.tells, hstack, Frame.handsIn, Request.handsIn]
  obtain ⟨⟨s, m, stack, broken⟩, unsent, calls, holder⟩ := c
  obtain rfl : unsent = [] := hunsent
  obtain rfl : stack = .exec (.ask (.inbox s.identity (.schedule context delay k)) next) :: rest :=
    hstack
  refine ⟨(s.inbox.push ⟨context, delay, .user k⟩).1, ?_, ?_⟩
  · rw [act, hwaits]
    simp [goOn, Machine.move, Machine.step, Machine.stepFrame, Machine.exec, Request.apply,
      Memory.askInbox, InboxRequest.apply]
  · rw [hadmits, Inbox.admits, Inbox.push, InboxRequest.handsIn]
    cases delay.isNegative <;> cases s.inbox.closed <;> simp

/-- Whatever order the threads take their steps in, every push that succeeds has its event accepted
once, and the accepted events, in order, are those that were stored, then those that teardown
dropped, then those that wait. An event is stored under a handle of its own, in its own context,
`delay` from the time at which the inbox is emptied. One that was accepted earlier, with no longer a
delay, is taken off the queue first. The inbox is closed without the lock, and from then on it
admits no push; once teardown has returned it is empty for good. -/
theorem pushes_arrive (code : Code K U) (identity : Nat) (kind : QueueKind) (buckets : Nat)
    (sync : SyncMode) (m : Memory K U) (acts : List (Action K U)) :
    let c₀ : Concurrent K U := { machine := .idle identity kind buckets sync m }
    let c := play code acts c₀
    let h := history code acts c₀
    h.accepted.map (·.2) = h.inserted.map (·.event) ++ h.discarded ++ c.waiting ∧
    (∀ i p, c.calls[i]? = some p →
      (p.stage = .returned (.ok ()) → h.accepted.filter (·.1 = some i) = [(some i, p.event)]) ∧
      ∀ e, p.stage = .returned (.error e) →
        h.accepted.filter (·.1 = some i) = [] ∧
        (p.delay.isNegative = true ∧ e = .negativeDelay p.delay ∨
          c.isClosed = true ∧ e = .destroyed)) ∧
    (∀ context delay k next rest, c.unsent = [] → c.waits = false →
      c.machine.stack =
        .exec (.ask (.inbox c.machine.sim.identity (.schedule context delay k)) next) :: rest →
      ∃ answer : Except SimError PUnit,
        (act code c .step).machine.stack = .exec (next answer) :: rest ∧
        (c.tells .step).accepted =
          match answer with
          | .ok _ => [(none, ⟨context, delay, .user k⟩)]
          | .error _ => []) ∧
    (∀ x, ∀ ins ∈ (c.tells x).inserted,
      ins.now = c.machine.sim.now ∧ c.machine.sim.scheduler.get? ins.id = none ∧
      (act code c x).machine.sim.scheduler.get? ins.id = some ins.stored) ∧
    (∀ ins ∈ h.inserted, (turnsOf ins.id h.turns).filter (·.fate = .issued) = [ins.turn]) ∧
    h.inserted.Pairwise (fun x y =>
      x.id.sequence < y.id.sequence ∧
      (x.event.delay ≤ y.event.delay →
        x.stored.key < y.stored.key ∧
        (∀ (p q : Nat) (u v : Event (Task K)),
          h.taken[p]? = some (x.id, u) → h.taken[q]? = some (y.id, v) → p < q) ∧
        (y.id ∈ h.taken.map (·.1) → c.machine.sim.scheduler.get? x.id = none))) ∧
    (∀ rest, c.unsent = [] → c.machine.stack = .close :: rest →
      (act code c .step).isClosed = true) ∧
    (c.isClosed = true → ∀ more, (play code more c).isClosed = true ∧
      ∀ (i : Nat) (p : PushCall K), (play code more c).calls[i]? = some p →
        p.stage.isAdmitted = true →
        ∃ old : PushCall K, c.calls[i]? = some old ∧ old.stage.isAdmitted = true) ∧
    (∀ rest, c.machine.stack = .clear :: rest → (act code c .step).machine.stack = rest →
      ∀ more, (play code more (act code c .step)).waiting = []) ∧
    (c.machine.sim.phase = .destroyed → .clear ∉ c.machine.stack →
      ∀ more, (play code more c).waiting = []) := by
  intro c₀ c h
  have ht : Tracked h c := (tracked_idle identity kind buckets sync m).play code acts
  refine ⟨ht.accounted.accepted_eq, ?_, ?_, ?_, ?_, ?_, ?_, ?_, ?_, ?_⟩
  · intro i p hp
    have hcall := ht.accounted.ofCall i
    rw [arrivals_eq hp, arrival] at hcall
    refine ⟨?_, ?_⟩
    · intro hstage
      rw [hcall, hstage]
      rfl
    · intro e hstage
      rw [hcall, hstage]
      exact ⟨rfl, (ht.locking.fits i p hp).error e hstage⟩
  · exact fun context delay k next rest hunsent hfree hstack =>
      accepted_of_ask code hunsent hfree hstack
  · intro x ins hins
    obtain ⟨hnow, hnone, hsome, -⟩ := ht.sane.held_of_inserted (c.effect_act code x) hins
    exact ⟨hnow, hnone, hsome⟩
  · intro ins hins
    have hmem := mem_turnsOf.mpr ⟨ht.ordered.issued ins hins, rfl⟩
    exact (ht.sane.told.life ins.id).filter_issued hmem rfl
  · refine ht.ordered.pairwise.imp_of_mem ?_
    rintro x y hx hy ⟨hnow, hseq⟩
    refine ⟨hseq, ?_⟩
    intro hdelay
    have hlt := key_lt hnow hseq hdelay
    have hx' := ht.ordered.issued x hx
    have hy' := ht.ordered.issued y hy
    exact ⟨hlt, fun p q u v hp hq => ht.sane.lt_of_taken hx' hy' hlt hp hq,
      ht.sane.get?_of_taken hx' (ht.ordered.queued x hx) hy' hlt⟩
  · exact fun rest hunsent hstack => isClosed_of_close code hunsent hstack
  · intro hclosed more
    exact ⟨isClosed_play code more hclosed, fun i p hp hadmitted =>
      admitted_play code more hclosed hp hadmitted⟩
  · intro rest hstack hreturn more
    exact ((ht.done_of_return code hstack hreturn).play code more).waiting
  · intro hphase hclear more
    exact (((ht.shutting.destroyed hphase).resolve_left hclear).play code more).waiting

/-- A push that has found the inbox open holds teardown up, and its event goes with the rest. -/
example :
    let code : Code Unit Unit := ⟨fun _ => .done (), fun _ _ _ u => (u, [])⟩
    let c : Concurrent Unit Unit := { machine := .idle 0 .heap 8 .sequential { user := () } }
    let acts : List (Action Unit Unit) :=
      [.enter id (.destroy fun _ => .done ()), .step, .step, .call .none .zero (), .advance 0,
        .advance 0, .step, .step, .advance 0, .advance 0, .step]
    (history code acts c).discarded.length = 1 ∧ (play code acts c).waiting.length = 0 := by
  decide

end Concurrent

end EventKernel
