import EventKernel.Proofs.Simulator.Turn

/-!
# The lives of events

The turns of an event come in one of a few orders: it is issued once, it can be cancelled as long as
it is pending, and it leaves once, either by being taken out in its turn or by being taken away.
What its simulator holds of it can be told from its turns. So no handle ever comes to name another
event.
-/

namespace EventKernel

variable {K : Type}

/-! ### Lives -/

/-- The turns one event has taken so far, and what is held of it behind them. -/
inductive Life (id : EventId) : List (Turn K) → Option (Event (Task K)) → Prop where
  | unborn : Life id [] none
  | pending {ev : Event (Task K)} (hev : ev.cancelled = false) :
      Life id [⟨id, .issued, ev⟩] (some ev)
  | cancelled {ev : Event (Task K)} (hev : ev.cancelled = false) :
      Life id [⟨id, .issued, ev⟩, ⟨id, .cancelled, ev⟩] (some { ev with cancelled := true })
  | gone {ev : Event (Task K)} {fate : Fate} (hev : ev.cancelled = false)
      (hfate : fate = .started ∨ fate = .removed ∨ fate = .dropped) :
      Life id [⟨id, .issued, ev⟩, ⟨id, fate, ev⟩] none
  | cancelledGone {ev : Event (Task K)} {fate : Fate} (hev : ev.cancelled = false)
      (hfate : fate = .skipped ∨ fate = .removed ∨ fate = .dropped) :
      Life id [⟨id, .issued, ev⟩, ⟨id, .cancelled, ev⟩, ⟨id, fate, ev⟩] none

/-- The turns one event takes in a change, with what is held of it in front and behind. -/
inductive LifeStep (id : EventId) :
    List (Turn K) → Option (Event (Task K)) → Option (Event (Task K)) → Prop where
  | none (v : Option (Event (Task K))) : LifeStep id [] v v
  | issue {ev : Event (Task K)} (hev : ev.cancelled = false) :
      LifeStep id [⟨id, .issued, ev⟩] .none (some ev)
  | cancel {ev : Event (Task K)} (hev : ev.cancelled = false) :
      LifeStep id [⟨id, .cancelled, ev⟩] (some ev) (some { ev with cancelled := true })
  | take (ev : Event (Task K)) :
      LifeStep id [⟨id, if ev.cancelled then .skipped else .started, ev.unmarked⟩] (some ev) .none
  | leave (ev : Event (Task K)) {fate : Fate} (hfate : fate = .removed ∨ fate = .dropped) :
      LifeStep id [⟨id, fate, ev.unmarked⟩] (some ev) .none

variable {id : EventId} {turns more : List (Turn K)} {v w : Option (Event (Task K))}

lemma Event.unmarked_of_pending {α : Type} {ev : Event α} (hev : ev.cancelled = false) :
    ev.unmarked = ev := by
  rw [unmarked, ← hev]

/-- An event that is issued must not have been issued before. -/
lemma Life.step (h : Life id turns v) (hstep : LifeStep id more v w)
    (hissue : ∀ x ∈ more, x.fate = .issued → turns = []) : Life id (turns ++ more) w := by
  cases hstep with
  | none => rwa [List.append_nil]
  | issue hev =>
    obtain rfl : turns = [] := hissue _ List.mem_cons_self rfl
    exact .pending hev
  | cancel hev =>
    cases h with
    | pending => exact .cancelled hev
    | cancelled => cases hev
  | take ev =>
    cases h with
    | pending hev =>
      rw [Event.unmarked_of_pending hev, hev]
      exact .gone hev (Or.inl rfl)
    | @cancelled ev hev =>
      have hsame : ({ ev with cancelled := true } : Event (Task K)).unmarked = ev :=
        Event.unmarked_of_pending hev
      rw [hsame]
      exact .cancelledGone hev (Or.inl rfl)
  | leave ev hfate =>
    cases h with
    | pending hev =>
      rw [Event.unmarked_of_pending hev]
      exact .gone hev (Or.inr hfate)
    | @cancelled ev hev =>
      have hsame : ({ ev with cancelled := true } : Event (Task K)).unmarked = ev :=
        Event.unmarked_of_pending hev
      rw [hsame]
      exact .cancelledGone hev (Or.inr hfate)

/-- The turns of the event that a handle names. -/
def turnsOf (id : EventId) (turns : List (Turn K)) : List (Turn K) :=
  turns.filter fun x => x.id = id

lemma turnsOf_append (id : EventId) (turns more : List (Turn K)) :
    turnsOf id (turns ++ more) = turnsOf id turns ++ turnsOf id more :=
  List.filter_append ..

lemma mem_turnsOf {x : Turn K} : x ∈ turnsOf id turns ↔ x ∈ turns ∧ x.id = id := by
  simp [turnsOf]

/-- Whether the event that a handle names has met a fate. -/
def Met (turns : List (Turn K)) (id : EventId) (fate : Fate) : Prop :=
  ∃ x ∈ turns, x.id = id ∧ x.fate = fate

lemma met_append {fate : Fate} :
    Met (turns ++ more) id fate ↔ Met turns id fate ∨ Met more id fate := by
  simp only [Met, List.mem_append, or_and_right, exists_or]

lemma met_iff {fate : Fate} : Met turns id fate ↔ ∃ x ∈ turnsOf id turns, x.fate = fate := by
  simp only [Met, mem_turnsOf, and_assoc]

/-- An event that was issued is held and not cancelled until something else happens to it. -/
lemma Life.pending_iff (h : Life id (turnsOf id turns) v) (hissued : Met turns id .issued) :
    v.any (!·.cancelled) = false ↔
      Met turns id .started ∨ Met turns id .cancelled ∨ Met turns id .removed ∨
        Met turns id .dropped := by
  simp only [met_iff] at hissued ⊢
  generalize turnsOf id turns = own at h hissued ⊢
  cases h with
  | unborn => simp at hissued
  | pending hev => simp [hev]
  | cancelled hev => simp
  | gone hev hfate => rcases hfate with rfl | rfl | rfl <;> simp
  | cancelledGone hev hfate => simp

namespace Simulator

variable {s t u : Simulator K} {j : EventId} {ev : Event (Task K)}

lemma of_mem_turn {fate : Fate} {x : Turn K} (h : x ∈ s.turn fate j) :
    x.id = j ∧ x.fate = fate := by
  obtain ⟨ev, -, rfl⟩ := List.mem_map.mp h
  exact ⟨rfl, rfl⟩

lemma of_mem_takeTurn {x : Turn K} (h : x ∈ s.takeTurn j) :
    x.id = j ∧ x.fate ≠ .issued := by
  obtain ⟨ev, -, rfl⟩ := List.mem_map.mp h
  cases ev.cancelled
  · exact ⟨rfl, Fate.noConfusion⟩
  · exact ⟨rfl, Fate.noConfusion⟩

lemma turn_eq_of_find? (fate : Fate) (h : s.find? j = some ev) :
    s.turn fate j = [⟨j, fate, ev.unmarked⟩] := by
  rw [turn, h]
  rfl

lemma turn_eq_nil (fate : Fate) (h : s.find? j = none) : s.turn fate j = [] := by
  rw [turn, h]
  rfl

/-- Turns of several events, each once. -/
lemma turnsOf_flatMap {f : EventId → List (Turn K)} (hf : ∀ j, ∀ x ∈ f j, x.id = j) (id : EventId)
    {ids : List EventId} (hids : ids.Nodup) :
    turnsOf id (ids.flatMap f) = if id ∈ ids then f id else [] := by
  induction ids with
  | nil => rfl
  | cons j ids ih =>
    obtain ⟨hj, hids⟩ := List.nodup_cons.mp hids
    rw [List.flatMap_cons, turnsOf_append, ih hids]
    by_cases h : id = j
    · subst h
      have hall : turnsOf id (f id) = f id :=
        List.filter_eq_self.mpr fun x hx => by simp [hf id x hx]
      simp [hj, hall]
    · have hnone : turnsOf id (f j) = [] :=
        List.filter_eq_nil_iff.mpr fun x hx => by simpa [hf j x hx] using Ne.symm h
      simp [h, hnone]

/-! ### What handles name behind a change -/

/-- The parts of a simulator agree about the events it holds: their numbers were given out, each
once. -/
structure Sound (s : Simulator K) : Prop where
  consistent : s.scheduler.Consistent
  nodup : s.teardown.sequences.Nodup
  next_pos : 0 < s.sequences.next
  lt_next : ∀ id ev, s.find? id = some ev → 0 < id.sequence ∧ id.sequence < s.sequences.next

lemma find?_destroy_eq_none_iff {n : Nat} :
    s.find? (.destroy n) = none ↔ n ∉ s.teardown.sequences := by
  rw [find?, Option.map_eq_none_iff, TeardownList.get?_eq_none_iff]

lemma Sound.not_mem_sequences (h : s.Sound) : s.sequences.next ∉ s.teardown.sequences := by
  rw [← find?_destroy_eq_none_iff, Option.eq_none_iff_forall_ne_some]
  intro ev hev
  exact Nat.lt_irrefl _ (h.lt_next _ ev hev).2

/-- A new event gets a new sequence number, and no other handle is concerned. -/
lemma Sound.find?_insert (h : s.Sound) (context : ContextId) (delay : Time) (task : Task K) :
    (s.insert context delay task).1.sequence = s.sequences.next ∧
      s.find? (s.insert context delay task).1 = none ∧
      ∀ j, (s.insert context delay task).2.find? j =
        if j = (s.insert context delay task).1 then
          some { key := ⟨s.now + delay, s.sequences.next⟩, context, task }
        else s.find? j := by
  obtain ⟨hseq, hnone, hget⟩ := h.consistent.get?_insert
    { key := ⟨s.now + delay, s.sequences.next⟩, context, task }
  refine ⟨hseq, hnone, ?_⟩
  intro j
  cases j with
  | queued slot n => exact hget (.queued slot n)
  | destroy n => rfl

lemma Sound.find?_register (h : s.Sound) (task : Task K) (halive : s.phase ≠ .destroyed) :
    (s.scheduleDestroy task).1 = .ok (.destroy s.sequences.next) ∧
      ∀ j, (s.scheduleDestroy task).2.find? j =
        if j = .destroy s.sequences.next then
          some (TeardownEvent.toEvent ⟨s.sequences.next, task, false⟩)
        else s.find? j := by
  rw [scheduleDestroy, if_neg halive]
  refine ⟨rfl, ?_⟩
  intro j
  cases j with
  | queued slot n => simp [find?]
  | destroy n =>
    simp only [find?, SequenceSource.draw, TeardownList.get?_push h.not_mem_sequences,
      EventId.destroy.injEq]
    split <;> rfl

lemma Sound.find?_of_isDetached (h : s.Sound) (hd : id.isDetached = true) : s.find? id = none := by
  rw [EventId.isDetached, decide_eq_true_iff] at hd
  rw [Option.eq_none_iff_forall_ne_some]
  intro ev hev
  exact Nat.ne_of_gt (h.lt_next id ev hev).1 hd

lemma Sound.find?_cancel (h : s.Sound) (id : EventId) :
    (s.cancel id).1 = (s.find? id).any (!·.cancelled) ∧
      ((s.find? id).any (!·.cancelled) = false → s.cancel id = (false, s)) ∧
      ∀ j, (s.cancel id).2.find? j =
        if j = id then (s.find? id).map fun ev => { ev with cancelled := true } else s.find? j := by
  cases hd : id.isDetached with
  | true =>
    have hnone := h.find?_of_isDetached hd
    simp only [Simulator.cancel, hd, if_true, hnone, Option.any_none, Option.map_none]
    refine ⟨trivial, fun _ => trivial, ?_⟩
    intro j
    split
    · next hj => rw [hj, hnone]
    · rfl
  | false =>
    cases id with
    | queued slot n =>
      obtain ⟨hfound, hsame⟩ := Scheduler.cancel_eq (.queued slot n) s.scheduler
      simp only [Simulator.cancel, hd, Bool.false_eq_true, if_false]
      refine ⟨hfound, ?_, ?_⟩
      · intro hnone
        rw [hsame hnone]
      · intro j
        cases j with
        | queued i k => exact Scheduler.get?_cancel (.queued slot n) (.queued i k) s.scheduler
        | destroy k => rfl
    | destroy n =>
      obtain ⟨hfound, hsame⟩ := TeardownList.cancel_eq n s.teardown
      have hany : (s.find? (.destroy n)).any (!·.cancelled) =
          (s.teardown.get? n).any (!·.cancelled) := by
        rw [find?]
        cases s.teardown.get? n <;> rfl
      simp only [Simulator.cancel, hd, Bool.false_eq_true, if_false, hany]
      refine ⟨hfound, ?_, ?_⟩
      · intro hnone
        rw [hsame hnone]
      · intro j
        cases j with
        | queued i k => rfl
        | destroy k =>
          simp only [find?, TeardownList.get?_cancel, EventId.destroy.injEq]
          split
          · simp only [Option.map_map]
            rfl
          · rfl

lemma Sound.find?_remove (h : s.Sound) (id : EventId) :
    (s.remove id).1 = (s.find? id).isSome ∧
      (s.find? id = none → s.remove id = (false, s)) ∧
      ∀ j, (s.remove id).2.find? j = if j = id then none else s.find? j := by
  cases hd : id.isDetached with
  | true =>
    have hnone := h.find?_of_isDetached hd
    simp only [Simulator.remove, hd, if_true, hnone]
    refine ⟨rfl, fun _ => trivial, ?_⟩
    intro j
    split
    · next hj => rw [hj, hnone]
    · rfl
  | false =>
    cases id with
    | queued slot n =>
      obtain ⟨hfound, hsame, hget⟩ := h.consistent.get?_remove (.queued slot n)
      simp only [Simulator.remove, hd, Bool.false_eq_true, if_false, hfound]
      refine ⟨rfl, ?_, ?_⟩
      · intro hnone
        rw [hsame hnone, show s.scheduler.get? (.queued slot n) = none from hnone]
        rfl
      · intro j
        cases j with
        | queued i k => exact hget (.queued i k)
        | destroy k => rfl
    | destroy n =>
      obtain ⟨hfound, hsame, -⟩ := TeardownList.remove_eq n s.teardown
      simp only [Simulator.remove, hd, Bool.false_eq_true, if_false, find?]
      refine ⟨by rw [hfound, Option.isSome_map], ?_, ?_⟩
      · intro hnone
        rw [hsame (Option.map_eq_none_iff.mp hnone)]
      · intro j
        cases j with
        | queued i k => rfl
        | destroy k =>
          simp only [TeardownList.get?_remove h.nodup, EventId.destroy.injEq]
          split <;> rfl

lemma Sound.isExpired_eq (h : s.Sound) (id : EventId) :
    s.isExpired id = !(s.find? id).any (!·.cancelled) := by
  cases hd : id.isDetached with
  | true => simp [isExpired, hd, h.find?_of_isDetached hd]
  | false =>
    cases id with
    | queued slot n => simp [isExpired, hd, Scheduler.isPending, find?]
    | destroy n =>
      simp only [isExpired, hd, TeardownList.isPending_eq h.nodup, find?, Bool.false_or]
      cases s.teardown.get? n <;> rfl

lemma mem_handles_iff : id ∈ s.handles ↔ ∃ ev, s.find? id = some ev := by
  cases id with
  | queued slot n =>
    simp only [handles, List.mem_append, List.mem_map, EventId.ofEntry, EventId.queued.injEq,
      reduceCtorEq, and_false, exists_false, or_false, find?, Scheduler.get?]
    constructor
    · rintro ⟨e, he, rfl, rfl⟩
      obtain ⟨ev, hev, -⟩ := Arena.get?_of_mem_entries he
      exact ⟨ev, hev⟩
    · rintro ⟨ev, hev⟩
      exact ⟨⟨ev.key, slot⟩, Arena.mem_entries_of_get? hev, rfl, (Arena.get?_eq_some_iff.mp hev).2⟩
  | destroy n =>
    rw [← Option.ne_none_iff_exists', ne_eq, find?_destroy_eq_none_iff, not_not]
    simp [handles, EventId.ofEntry]

lemma Sound.nodup_handles (h : s.Sound) : s.handles.Nodup := by
  refine List.nodup_append.mpr ⟨?_, ?_, ?_⟩
  · refine List.Nodup.map_on ?_ s.scheduler.arena.nodup_entries
    rintro ⟨key, slot⟩ he ⟨key', slot'⟩ hf hef
    obtain ⟨rfl, -⟩ := EventId.queued.inj hef
    obtain ⟨ev, hev, rfl⟩ := Arena.mem_entries_iff.mp he
    obtain ⟨ev', hev', rfl⟩ := Arena.mem_entries_iff.mp hf
    rw [Option.some.inj (hev.symm.trans hev')]
  · exact h.nodup.map fun m n hmn => EventId.destroy.inj hmn
  · intro x hx y hy hxy
    obtain ⟨e, -, rfl⟩ := List.mem_map.mp hx
    obtain ⟨n, -, rfl⟩ := List.mem_map.mp hy
    cases hxy

/-! ### Changes as steps of lives -/

lemma Sound.of_find? (h : s.Sound) (hc : t.scheduler.Consistent)
    (hnodup : t.teardown.sequences.Nodup) (hnext : s.sequences.next ≤ t.sequences.next)
    (hfind : ∀ id ev, t.find? id = some ev → (∃ ev, s.find? id = some ev) ∨
      id.sequence = s.sequences.next ∧ s.sequences.next < t.sequences.next) : t.Sound where
  consistent := hc
  nodup := hnodup
  next_pos := Nat.lt_of_lt_of_le h.next_pos hnext
  lt_next id ev hev := by
    rcases hfind id ev hev with ⟨ev, hev⟩ | ⟨hid, hlt⟩
    · exact ⟨(h.lt_next id ev hev).1, Nat.lt_of_lt_of_le (h.lt_next id ev hev).2 hnext⟩
    · rw [hid]
      exact ⟨h.next_pos, hlt⟩

/-- What a change does to the events of a simulator. -/
structure Advance (s : Simulator K) (turns : List (Turn K)) (t : Simulator K) : Prop where
  sound : t.Sound
  next_le : s.sequences.next ≤ t.sequences.next
  lifeStep : ∀ id, LifeStep id (turnsOf id turns) (s.find? id) (t.find? id)
  issued : ∀ x ∈ turns, x.fate = .issued →
    turns = [x] ∧ x.id.sequence = s.sequences.next ∧ s.sequences.next < t.sequences.next

/-- A change that concerns the event of one handle. -/
lemma lifeStep_of_find? (hfind : ∀ j, t.find? j = if j = id then w else s.find? j)
    (hids : ∀ x ∈ turns, x.id = id) (hstep : LifeStep id turns (s.find? id) w) (j : EventId) :
    LifeStep j (turnsOf j turns) (s.find? j) (t.find? j) := by
  rw [hfind]
  by_cases hj : j = id
  · subst hj
    rw [if_pos rfl, turnsOf, List.filter_eq_self.mpr fun x hx => by simp [hids x hx]]
    exact hstep
  · rw [if_neg hj, turnsOf,
      List.filter_eq_nil_iff.mpr fun x hx => by simpa [hids x hx] using Ne.symm hj]
    exact .none _

/-- An event is issued under a new sequence number. -/
lemma Sound.advance_issue (h : s.Sound) (hc : t.scheduler.Consistent)
    (hnodup : t.teardown.sequences.Nodup) (hnext : t.sequences.next = s.sequences.next + 1)
    (hev : ev.cancelled = false) (hid : id.sequence = s.sequences.next)
    (hnone : s.find? id = none) (hfind : ∀ j, t.find? j = if j = id then some ev else s.find? j) :
    Advance s (t.turn .issued id) t := by
  have hlt : s.sequences.next < t.sequences.next := by omega
  have hself : t.find? id = some ev := by rw [hfind, if_pos rfl]
  have hturn := turn_eq_of_find? .issued hself
  rw [Event.unmarked_of_pending hev] at hturn
  refine ⟨h.of_find? hc hnodup (Nat.le_of_lt hlt) ?_, Nat.le_of_lt hlt, ?_, ?_⟩
  · intro j ev' hev'
    rw [hfind] at hev'
    split at hev'
    · next hj => exact Or.inr ⟨by rw [hj, hid], hlt⟩
    · exact Or.inl ⟨ev', hev'⟩
  · refine lifeStep_of_find? hfind (fun x hx => (of_mem_turn hx).1) ?_
    rw [hturn, hnone]
    exact .issue hev
  · intro x hx _
    rw [hturn, List.mem_singleton] at hx
    rw [hturn, hx]
    exact ⟨rfl, hid, hlt⟩

/-- No event is issued. -/
lemma Sound.advance_of_find? (h : s.Sound) (hc : t.scheduler.Consistent)
    (hnodup : t.teardown.sequences.Nodup) (hnext : t.sequences = s.sequences)
    (hfind : ∀ id ev, t.find? id = some ev → ∃ ev, s.find? id = some ev)
    (hstep : ∀ id, LifeStep id (turnsOf id turns) (s.find? id) (t.find? id))
    (hfate : ∀ x ∈ turns, x.fate ≠ .issued) : Advance s turns t := by
  have hle : s.sequences.next ≤ t.sequences.next := by rw [hnext]
  exact ⟨h.of_find? hc hnodup hle fun id ev hev => Or.inl (hfind id ev hev), hle, hstep,
    fun x hx hissued => absurd hissued (hfate x hx)⟩

/-- Nothing happens to any event. -/
lemma Sound.advance_of_eq (h : s.Sound) (hc : t.scheduler.Consistent)
    (hteardown : t.teardown = s.teardown) (hnext : t.sequences = s.sequences)
    (hget : ∀ id, t.scheduler.get? id = s.scheduler.get? id) : Advance s [] t := by
  have hfind : ∀ id, t.find? id = s.find? id := by
    intro id
    cases id with
    | queued slot n => exact hget (.queued slot n)
    | destroy n => rw [find?, find?, hteardown]
  refine h.advance_of_find? hc ?_ hnext ?_ ?_ (fun x hx => by cases hx)
  · rw [hteardown]
    exact h.nodup
  · intro id ev hev
    rw [hfind] at hev
    exact ⟨ev, hev⟩
  · intro id
    rw [hfind]
    exact .none _

lemma lifeStep_turn {fate : Fate} (hfate : fate = .removed ∨ fate = .dropped) (s : Simulator K)
    (j : EventId) : LifeStep j (s.turn fate j) (s.find? j) none := by
  cases hev : s.find? j with
  | none =>
    rw [turn_eq_nil fate hev]
    exact .none _
  | some ev =>
    rw [turn_eq_of_find? fate hev]
    exact .leave ev hfate

lemma lifeStep_takeTurn (s : Simulator K) (j : EventId) :
    LifeStep j (s.takeTurn j) (s.find? j) none := by
  rw [takeTurn]
  cases s.find? j with
  | none => exact .none _
  | some ev => exact .take ev

lemma of_mem_turn_leave {fate : Fate} (hfate : fate = .removed ∨ fate = .dropped) {x : Turn K}
    (h : x ∈ s.turn fate j) : x.id = j ∧ x.fate ≠ .issued := by
  obtain ⟨hid, rfl⟩ := of_mem_turn h
  refine ⟨hid, ?_⟩
  rcases hfate with hfate | hfate
  · rw [hfate]
    exact Fate.noConfusion
  · rw [hfate]
    exact Fate.noConfusion

/-- Events leave, each with a turn of its own. -/
lemma Sound.advance_leave (h : s.Sound) (hc : t.scheduler.Consistent)
    (hnodup : t.teardown.sequences.Nodup) (hnext : t.sequences = s.sequences)
    {ids : List EventId} (hids : ids.Nodup) {f : EventId → List (Turn K)}
    (hf : ∀ j, ∀ x ∈ f j, x.id = j ∧ x.fate ≠ .issued)
    (hstep : ∀ j, LifeStep j (f j) (s.find? j) none)
    (hfind : ∀ j, t.find? j = if j ∈ ids then none else s.find? j) :
    Advance s (ids.flatMap f) t := by
  refine h.advance_of_find? hc hnodup hnext ?_ ?_ ?_
  · intro j ev hev
    rw [hfind] at hev
    split at hev
    · cases hev
    · exact ⟨ev, hev⟩
  · intro j
    rw [turnsOf_flatMap (fun j x hx => (hf j x hx).1) j hids, hfind]
    split
    · exact hstep j
    · exact .none _
  · intro x hx
    obtain ⟨j, -, hx⟩ := List.mem_flatMap.mp hx
    exact (hf j x hx).2

lemma Sound.cancel_parts (h : s.Sound) (id : EventId) :
    (s.cancel id).2.scheduler.Consistent ∧ (s.cancel id).2.teardown.sequences.Nodup ∧
      (s.cancel id).2.sequences = s.sequences := by
  simp only [Simulator.cancel]
  split
  · exact ⟨h.consistent, h.nodup, rfl⟩
  · split
    · refine ⟨h.consistent, ?_, rfl⟩
      rw [TeardownList.sequences_cancel]
      exact h.nodup
    · exact ⟨h.consistent.cancel _, h.nodup, rfl⟩

lemma Sound.advance_cancel (h : s.Sound) (id : EventId) :
    Advance s (s.cancelTurns id) (s.cancel id).2 := by
  obtain ⟨hfound, hsame, hfind⟩ := h.find?_cancel id
  rw [cancelTurns, hfound]
  cases hany : (s.find? id).any (!·.cancelled) with
  | false =>
    rw [hsame hany]
    exact h.advance_of_eq h.consistent rfl rfl fun _ => rfl
  | true =>
    obtain ⟨ev, hev, hlive⟩ := (Option.any_eq_true _ _).mp hany
    rw [Bool.not_eq_true'] at hlive
    rw [hev] at hfind
    obtain ⟨hc, hnodup, hnext⟩ := h.cancel_parts id
    refine h.advance_of_find? hc hnodup hnext ?_ ?_ ?_
    · intro j ev' hev'
      rw [hfind] at hev'
      split at hev'
      · next hj => exact ⟨ev, hj ▸ hev⟩
      · exact ⟨ev', hev'⟩
    · refine lifeStep_of_find? hfind (fun x hx => (of_mem_turn hx).1) ?_
      rw [if_pos rfl, turn_eq_of_find? _ hev, hev, Event.unmarked_of_pending hlive]
      exact .cancel hlive
    · intro x hx
      rw [if_pos rfl, turn_eq_of_find? _ hev, List.mem_singleton] at hx
      rw [hx]
      exact Fate.noConfusion

lemma Sound.remove_parts (h : s.Sound) (id : EventId) :
    (s.remove id).2.scheduler.Consistent ∧ (s.remove id).2.teardown.sequences.Nodup ∧
      (s.remove id).2.sequences = s.sequences := by
  simp only [Simulator.remove]
  split
  · exact ⟨h.consistent, h.nodup, rfl⟩
  · split
    · refine ⟨h.consistent, ?_, rfl⟩
      rw [(TeardownList.remove_eq _ _).2.2]
      exact h.nodup.erase _
    · exact ⟨h.consistent.remove _, h.nodup, rfl⟩

lemma Sound.advance_remove (h : s.Sound) (id : EventId) :
    Advance s (s.removeTurns id) (s.remove id).2 := by
  obtain ⟨hfound, hsame, hfind⟩ := h.find?_remove id
  rw [removeTurns, hfound]
  cases hev : s.find? id with
  | none =>
    rw [hsame hev]
    exact h.advance_of_eq h.consistent rfl rfl fun _ => rfl
  | some ev =>
    obtain ⟨hc, hnodup, hnext⟩ := h.remove_parts id
    have hleave : Advance s ([id].flatMap (s.turn .removed)) (s.remove id).2 :=
      h.advance_leave hc hnodup hnext (List.nodup_singleton id)
        (fun _ _ => of_mem_turn_leave (Or.inl rfl)) (lifeStep_turn (Or.inl rfl) s)
        (by simpa using hfind)
    rwa [List.flatMap_singleton] at hleave

/-- The first teardown event that was not cancelled starts, and those in front of it are skipped. -/
lemma Sound.advance_popLive (h : s.Sound) :
    Advance s s.teardownTurns { s with teardown := s.teardown.popLive.2 } := by
  obtain ⟨rest, hl, hrest, -⟩ := s.teardown.popLive_eq
  rw [teardownTurns, reached, hrest]
  generalize s.teardown.takeWhile (·.cancelled) ++ s.teardown.popLive.1.toList = front at hl ⊢
  have hsplit : (TeardownList.sequences (front ++ rest)).Nodup := hl ▸ h.nodup
  have hnodup := hsplit
  rw [TeardownList.sequences, List.map_append, List.nodup_append] at hnodup
  refine h.advance_leave (t := { s with teardown := rest }) ?_ ?_ rfl ?_
    (fun _ _ => of_mem_takeTurn) (lifeStep_takeTurn s) ?_
  · exact h.consistent
  · exact hnodup.2.1
  · rw [← Function.comp_def EventId.destroy, ← List.map_map]
    exact hnodup.1.map fun m n hmn => EventId.destroy.inj hmn
  · intro j
    cases j with
    | queued slot n => simp [find?]
    | destroy n =>
      simp only [find?, TeardownList.get?_of_append hsplit, ← hl, List.mem_map,
        EventId.destroy.injEq, TeardownList.sequences]
      split <;> rfl

/-- Every kind of change advances the events it concerns by one step. -/
lemma Sound.eventChange (h : s.Sound) (hchange : EventChange s turns t) : Advance s turns t := by
  cases hchange with
  | insert context task hdelay =>
    obtain ⟨hseq, hnone, hfind⟩ := h.find?_insert context _ task
    exact h.advance_issue (h.consistent.insert _) h.nodup rfl rfl hseq hnone hfind
  | register k halive =>
    obtain ⟨-, hfind⟩ := h.find?_register (.user k) halive
    have hnone : s.find? (.destroy s.sequences.next) = none :=
      find?_destroy_eq_none_iff.mpr h.not_mem_sequences
    rw [scheduleDestroy, if_neg halive] at hfind ⊢
    refine h.advance_issue h.consistent ?_ rfl rfl rfl hnone hfind
    show (s.teardown.push s.sequences.next (.user k)).sequences.Nodup
    rw [TeardownList.sequences_push]
    refine List.nodup_append.mpr ⟨h.nodup, List.nodup_singleton _, ?_⟩
    intro m hm n hn hmn
    rw [List.mem_singleton.mp hn] at hmn
    exact h.not_mem_sequences (hmn ▸ hm)
  | cancel id => exact h.advance_cancel id
  | remove id => exact h.advance_remove id
  | setKind kind =>
    exact h.advance_of_eq (h.consistent.setKind kind) rfl rfl (Scheduler.get?_setKind kind _)
  | popLive => exact h.advance_popLive
  | clear =>
    refine h.advance_leave (t := { s with teardown := [], scheduler := s.scheduler.clear }) ?_ ?_
      rfl h.nodup_handles
      (fun _ _ => of_mem_turn_leave (Or.inr rfl)) (lifeStep_turn (Or.inr rfl) s) ?_
    · exact h.consistent.clear
    · exact List.nodup_nil
    · intro j
      split
      · cases j <;> rfl
      · next hj =>
        have hnone : s.find? j = none :=
          Option.eq_none_iff_forall_ne_some.mpr fun ev hev => hj (mem_handles_iff.mpr ⟨ev, hev⟩)
        rw [hnone]
        cases j <;> rfl

lemma Sound.change (h : s.Sound) (hchange : Change s turns t) : Advance s turns t := by
  cases hchange with
  | events hchange => exact h.eventChange hchange
  | inbox | other => exact h.advance_of_eq h.consistent rfl rfl fun _ => rfl

lemma Sound.find?_take (h : s.Sound) {q : Scheduler (Task K)}
    (hnext : s.scheduler.removeNext = (some (id, ev), q)) (now : Time) :
    s.find? id = some ev ∧
      ∀ j, find? { s with scheduler := q, now := now } j = if j = id then none else s.find? j := by
  obtain ⟨hev, hget⟩ := h.consistent.get?_removeNext hnext
  cases id with
  | destroy n => cases hev
  | queued slot n =>
    refine ⟨hev, ?_⟩
    intro j
    cases j with
    | queued slot' n' => exact hget (.queued slot' n')
    | destroy n' => rfl

/-- The event that is taken off the queue leaves in its turn. -/
lemma Sound.advance_take (h : s.Sound) {q : Scheduler (Task K)}
    (hnext : s.scheduler.removeNext = (some (id, ev), q)) (now : Time) :
    Advance s (s.takeTurn id) { s with scheduler := q, now := now } := by
  have hc := h.consistent.removeNext
  rw [hnext] at hc
  have hleave : Advance s ([id].flatMap s.takeTurn) { s with scheduler := q, now := now } := by
    refine h.advance_leave (t := { s with scheduler := q, now := now }) hc h.nodup rfl
      (List.nodup_singleton id) (fun _ _ => of_mem_takeTurn) (lifeStep_takeTurn s) ?_
    intro j
    rw [(h.find?_take hnext now).2]
    simp only [List.mem_singleton]
  rwa [List.flatMap_singleton] at hleave

/-! ### What is held behind a course -/

/-- What is held behind some changes was held in front of them, not cancelled if it is not now, or
was issued by them; and what they do not concern is held as it was. -/
structure Passage (s : Simulator K) (turns : List (Turn K)) (t : Simulator K) : Prop where
  sound : t.Sound
  next_le : s.sequences.next ≤ t.sequences.next
  held : ∀ id ev, t.find? id = some ev →
    (∃ old, s.find? id = some old ∧ old.unmarked = ev.unmarked ∧
      (ev.cancelled = false → old.cancelled = false)) ∨
    s.sequences.next ≤ id.sequence ∧ ∃ x ∈ turns, x.id = id ∧ x.fate = .issued ∧
      x.event = ev.unmarked
  kept : ∀ id, turnsOf id turns = [] → t.find? id = s.find? id
  fresh : ∀ x ∈ turns, x.fate = .issued → s.sequences.next ≤ x.id.sequence

lemma Sound.passage_refl (h : s.Sound) : Passage s [] s where
  sound := h
  next_le := Nat.le_refl _
  held _ ev hev := Or.inl ⟨ev, hev, rfl, fun hlive => hlive⟩
  kept _ _ := rfl
  fresh _ hx := by cases hx

lemma Passage.trans (hst : Passage s turns t) (htu : Passage t more u) :
    Passage s (turns ++ more) u where
  sound := htu.sound
  next_le := Nat.le_trans hst.next_le htu.next_le
  held id ev hev := by
    rcases htu.held id ev hev with ⟨old, hold, hsame, hlive⟩ | ⟨hnew, x, hx, hissued⟩
    · rcases hst.held id old hold with ⟨old', hold', hsame', hlive'⟩ | ⟨hnew, x, hx, hid, hfate, hev⟩
      · exact Or.inl ⟨old', hold', hsame'.trans hsame, fun h => hlive' (hlive h)⟩
      · exact Or.inr ⟨hnew, x, List.mem_append_left more hx, hid, hfate, hev.trans hsame⟩
    · exact Or.inr ⟨Nat.le_trans hst.next_le hnew, x, List.mem_append_right turns hx, hissued⟩
  kept id hnone := by
    rw [turnsOf_append, List.append_eq_nil_iff] at hnone
    rw [htu.kept id hnone.2, hst.kept id hnone.1]
  fresh x hx hissued := by
    rcases List.mem_append.mp hx with hx | hx
    · exact hst.fresh x hx hissued
    · exact Nat.le_trans hst.next_le (htu.fresh x hx hissued)

lemma Advance.passage (h : Advance s turns t) : Passage s turns t where
  sound := h.sound
  next_le := h.next_le
  held id ev hev := by
    have hstep := h.lifeStep id
    have hturn : ∀ x ∈ turnsOf id turns, x ∈ turns := fun x hx => (mem_turnsOf.mp hx).1
    rw [hev] at hstep
    generalize s.find? id = front at hstep
    generalize turnsOf id turns = own at hstep hturn
    cases hstep with
    | none => exact Or.inl ⟨ev, rfl, rfl, fun hlive => hlive⟩
    | issue hlive =>
      have hx := hturn _ List.mem_cons_self
      refine Or.inr ⟨(h.issued _ hx rfl).2.1.ge, _, hx, rfl, rfl, ?_⟩
      rw [Event.unmarked_of_pending hlive]
    | @cancel old hlive => exact Or.inl ⟨old, rfl, rfl, fun hnot => by cases hnot⟩
  kept id hnone := by
    have hstep := h.lifeStep id
    rw [hnone] at hstep
    generalize s.find? id = front at hstep
    generalize t.find? id = behind at hstep
    cases hstep
    rfl
  fresh x hx hissued := (h.issued x hx hissued).2.1.ge

/-- What is held under a number that was given out before was held before. -/
lemma Passage.held_of_lt (hp : Passage s turns t) (hev : t.find? id = some ev)
    (hlt : id.sequence < s.sequences.next) :
    ∃ old, s.find? id = some old ∧ old.key = ev.key ∧ old.task = ev.task ∧
      (ev.cancelled = false → old.cancelled = false) := by
  rcases hp.held id ev hev with ⟨old, hold, hsame, hlive⟩ | ⟨hnew, -⟩
  · exact ⟨old, hold, (Event.of_unmarked_eq hsame).1, (Event.of_unmarked_eq hsame).2, hlive⟩
  · exact absurd hlt (Nat.not_lt.mpr hnew)

/-- A handle that was given out names what it named, unless it has a turn. -/
lemma Passage.find?_eq (hp : Passage s turns t) (hlt : id.sequence < s.sequences.next)
    (h : ∀ x ∈ turns, x.id = id → x.fate = .issued) : t.find? id = s.find? id := by
  refine hp.kept id ?_
  rw [turnsOf, List.filter_eq_nil_iff]
  intro x hx hid
  rw [decide_eq_true_iff] at hid
  have hnew := hp.fresh x hx (h x hx hid)
  rw [hid] at hnew
  omega

lemma Passage.isExpired_eq (hp : Passage s turns t) (hs : s.Sound)
    (hlt : id.sequence < s.sequences.next) (h : ∀ x ∈ turns, x.id = id → x.fate = .issued) :
    t.isExpired id = s.isExpired id := by
  rw [hp.sound.isExpired_eq, hs.isExpired_eq, hp.find?_eq hlt h]

lemma Sound.passage (h : s.Sound) (hcourse : Course s turns t) : Passage s turns t := by
  induction hcourse with
  | refl => exact h.passage_refl
  | tail _ hchange ih => exact ih.trans (ih.sound.change hchange).passage

/-! ### Histories -/

/-- What all turns so far say about a simulator: no sequence number was given out twice, and what is
held of an event can be told from its turns. -/
structure Told (turns : List (Turn K)) (s : Simulator K) : Prop where
  sound : s.Sound
  sequence_lt : ∀ x ∈ turns, 0 < x.id.sequence ∧ x.id.sequence < s.sequences.next
  nodup_issued : ((turns.filter (·.fate = .issued)).map (·.id.sequence)).Nodup
  life : ∀ id, Life id (turnsOf id turns) (s.find? id)

lemma told_create (identity : Nat) (kind : QueueKind) (buckets : Nat) (sync : SyncMode) :
    Told [] (create identity kind buckets sync : Simulator K) := by
  have hnone : ∀ id, (create identity kind buckets sync : Simulator K).find? id = none := by
    intro id
    cases id with
    | queued slot n => exact Scheduler.get?_empty kind buckets (.queued slot n)
    | destroy n => rfl
  refine ⟨⟨Scheduler.consistent_empty kind buckets, List.nodup_nil, Nat.one_pos, ?_⟩, ?_,
    List.nodup_nil, ?_⟩
  · intro id ev hev
    rw [hnone] at hev
    cases hev
  · intro x hx
    cases hx
  · intro id
    rw [hnone]
    exact .unborn

/-- Turns concern events with numbers that were given out. -/
lemma Advance.sequence_lt (h : Advance s turns t) (hs : s.Sound) {x : Turn K} (hx : x ∈ turns) :
    0 < x.id.sequence ∧ x.id.sequence < t.sequences.next := by
  have hmem : x ∈ turnsOf x.id turns := mem_turnsOf.mpr ⟨hx, rfl⟩
  have hheld : ∀ {ev}, s.find? x.id = some ev →
      0 < x.id.sequence ∧ x.id.sequence < t.sequences.next := by
    intro ev hev
    obtain ⟨hpos, hlt⟩ := hs.lt_next x.id ev hev
    exact ⟨hpos, Nat.lt_of_lt_of_le hlt h.next_le⟩
  have hstep := h.lifeStep x.id
  generalize hfront : s.find? x.id = front at hstep
  generalize hbehind : t.find? x.id = behind at hstep
  generalize turnsOf x.id turns = own at hmem hstep
  cases hstep with
  | none => cases hmem
  | issue => exact h.sound.lt_next x.id _ hbehind
  | cancel | take | leave => exact hheld hfront

lemma Told.advance (h : Told turns s) (hadvance : Advance s more t) : Told (turns ++ more) t where
  sound := hadvance.sound
  sequence_lt := by
    intro x hx
    rcases List.mem_append.mp hx with hx | hx
    · exact ⟨(h.sequence_lt x hx).1, Nat.lt_of_lt_of_le (h.sequence_lt x hx).2 hadvance.next_le⟩
    · exact hadvance.sequence_lt h.sound hx
  nodup_issued := by
    rw [List.filter_append, List.map_append]
    refine List.nodup_append.mpr ⟨h.nodup_issued, ?_, ?_⟩
    · cases hmore : more.filter (·.fate = .issued) with
      | nil => exact List.nodup_nil
      | cons x xs =>
        obtain ⟨hx, hissued⟩ := List.mem_filter.mp (hmore ▸ List.mem_cons_self)
        obtain ⟨hone, -⟩ := hadvance.issued x hx (by simpa using hissued)
        rw [← hmore, hone, List.filter_singleton, hissued]
        exact List.nodup_singleton _
    · intro m hm n hn hmn
      obtain ⟨x, hx, rfl⟩ := List.mem_map.mp hm
      obtain ⟨y, hy, rfl⟩ := List.mem_map.mp hn
      have hx := (h.sequence_lt x (List.mem_filter.mp hx).1).2
      obtain ⟨hy, hissued⟩ := List.mem_filter.mp hy
      have hy := (hadvance.issued y hy (by simpa using hissued)).2.1
      omega
  life := by
    intro id
    rw [turnsOf_append]
    refine (h.life id).step (hadvance.lifeStep id) ?_
    intro x hx hissued
    obtain ⟨hmem, rfl⟩ := mem_turnsOf.mp hx
    have hnew := (hadvance.issued x hmem hissued).2.1
    rw [turnsOf, List.filter_eq_nil_iff]
    intro y hy hid
    have hold := (h.sequence_lt y hy).2
    rw [decide_eq_true_iff] at hid
    rw [hid] at hold
    omega

lemma Told.change (h : Told turns s) (hchange : Change s more t) : Told (turns ++ more) t :=
  h.advance (h.sound.change hchange)

lemma Told.course (h : Told turns s) (hcourse : Course s more t) : Told (turns ++ more) t := by
  induction hcourse with
  | refl => rwa [List.append_nil]
  | tail _ hchange ih =>
    rw [← List.append_assoc]
    exact ih.change hchange

end Simulator

end EventKernel
