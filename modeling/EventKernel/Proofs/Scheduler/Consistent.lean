import EventKernel.Proofs.Queue.Contents
import EventKernel.Proofs.Scheduler.Arena
import EventKernel.Scheduler.Basic

/-!
# Arena and queue of a scheduler

A scheduler changes its arena and its queue one after the other. It is consistent if the two agree:
the queue holds one entry for each record. All operations keep it so, and what they answer is told
here by the arena alone.
-/

namespace EventKernel.Scheduler

open scoped List

variable {α : Type} {s : Scheduler α} {ev : Event α} {e : Entry} {slot sequence : Nat}

/-- The queue holds the entries of the records, each once. -/
structure Consistent (s : Scheduler α) : Prop where
  tidy : s.arena.Tidy
  valid : s.queue.Valid
  perm : s.queue.entries ~ s.arena.entries

lemma Consistent.nodup (h : s.Consistent) : s.queue.entries.Nodup :=
  h.perm.nodup_iff.mpr s.arena.nodup_entries

lemma consistent_empty (kind : QueueKind) (buckets : Nat) :
    (empty kind buckets : Scheduler α).Consistent where
  tidy := Arena.tidy_empty
  valid := Queue.valid_empty buckets kind
  perm := by
    rw [empty, Queue.entries_empty, Arena.entries_empty]

lemma Consistent.isEmpty_iff (h : s.Consistent) : s.isEmpty = true ↔ s.arena.entries = [] := by
  rw [isEmpty, h.valid.isEmpty_iff, ← List.length_eq_zero_iff, h.perm.length_eq,
    List.length_eq_zero_iff]

lemma Consistent.size_eq_zero_iff (h : s.Consistent) : s.size = 0 ↔ s.arena.entries = [] := by
  rw [size, h.tidy.live_eq, List.length_eq_zero_iff]

/-! ### Insertion -/

/-- The entry of an event that is stored is new to the queue. -/
lemma Consistent.entry_notMem (h : s.Consistent) (ev : Event α) :
    (⟨ev.key, (s.arena.insert ev).1⟩ : Entry) ∉ s.queue.entries := by
  rw [h.perm.mem_iff, Arena.mem_entries_iff, (h.tidy.at?_insert ev).1]
  rintro ⟨_, hev, -⟩
  cases hev

lemma Consistent.insert (h : s.Consistent) (ev : Event α) : (s.insert ev).2.Consistent := by
  refine ⟨h.tidy.insert ev, h.valid.insert _, ?_⟩
  exact (h.valid.perm_insert (h.entry_notMem ev)).trans
    ((h.perm.cons _).trans (h.tidy.perm_insert ev).symm)

lemma Consistent.entries_insert (h : s.Consistent) (ev : Event α) :
    ∃ slot, (s.insert ev).2.arena.entries ~ ⟨ev.key, slot⟩ :: s.arena.entries :=
  ⟨_, h.tidy.perm_insert ev⟩

/-! ### The earliest event -/

lemma Consistent.pop?_eq_none_iff (h : s.Consistent) :
    s.queue.pop? = none ↔ s.arena.entries = [] := by
  rw [h.valid.pop?_eq_none_iff, ← List.length_eq_zero_iff, h.perm.length_eq,
    List.length_eq_zero_iff]

lemma removeNext_of_pop?_eq_none (h : s.queue.pop? = none) : s.removeNext = (none, s) := by
  obtain ⟨arena, queue, buckets⟩ := s
  rw [removeNext]
  split
  · rfl
  · rename_i hs
    simp only at h
    rw [h] at hs
    cases hs

/-- The entry that is taken out has its record, so that no entry is ever passed over. -/
lemma Consistent.removeNext_of_pop? {q : Queue} (h : s.Consistent)
    (hp : s.queue.pop? = some (e, q)) :
    ∃ ev, s.arena.at? e.slot = some ev ∧ ev.key = e.key ∧
      s.removeNext = (some (.ofEntry e, ev), ⟨s.arena.release e.slot, q, s.buckets⟩) := by
  have he : e ∈ s.arena.entries :=
    h.perm.mem_iff.mp ((h.valid.of_pop? hp).2.1.mem_iff.mpr List.mem_cons_self)
  obtain ⟨ev, hev, hkey⟩ := Arena.get?_of_mem_entries he
  refine ⟨ev, (Arena.get?_eq_some_iff.mp hev).1, hkey, ?_⟩
  obtain ⟨arena, queue, buckets⟩ := s
  rw [removeNext]
  split
  · rename_i hs
    simp only at hp
    rw [hp] at hs
    cases hs
  · rename_i e' q' hs
    simp only at hp hev
    rw [hp] at hs
    cases hs
    rw [Arena.take_of_get? hev]

/-- Either nothing is stored, or the least entry of the arena is taken out. -/
lemma Consistent.removeNext_cases (h : s.Consistent) :
    (s.arena.entries = [] ∧ s.removeNext = (none, s)) ∨
      ∃ e ev q, (e ∈ s.arena.entries ∧ ∀ x ∈ s.arena.entries, e ≤ x) ∧
        s.queue.pop? = some (e, q) ∧ s.arena.at? e.slot = some ev ∧ ev.key = e.key ∧
        s.removeNext = (some (.ofEntry e, ev), ⟨s.arena.release e.slot, q, s.buckets⟩) := by
  cases hp : s.queue.pop? with
  | none => exact Or.inl ⟨h.pop?_eq_none_iff.mp hp, removeNext_of_pop?_eq_none hp⟩
  | some p =>
    obtain ⟨e, q⟩ := p
    obtain ⟨ev, hev, hkey, hnext⟩ := h.removeNext_of_pop? hp
    obtain ⟨hmem, hle⟩ := h.valid.least?_le (h.valid.of_pop? hp).1
    refine Or.inr ⟨e, ev, q, ⟨h.perm.mem_iff.mp hmem, ?_⟩, rfl, hev, hkey, hnext⟩
    intro x hx
    exact hle x (h.perm.mem_iff.mpr hx)

lemma Consistent.release {q : Queue} (h : s.Consistent) (hev : s.arena.at? slot = some ev)
    (hperm : s.queue.entries ~ ⟨ev.key, slot⟩ :: q.entries) (hq : q.Valid) (n : Nat) :
    Consistent ⟨s.arena.release slot, q, n⟩ where
  tidy := h.tidy.release hev
  valid := hq
  perm := (hperm.symm.trans (h.perm.trans (Arena.perm_release hev))).cons_inv

lemma Consistent.removeNext (h : s.Consistent) : s.removeNext.2.Consistent := by
  rcases h.removeNext_cases with ⟨-, hnext⟩ | ⟨e, ev, q, -, hp, hev, hkey, hnext⟩
  · rw [hnext]
    exact h
  · obtain ⟨-, hperm, hq⟩ := h.valid.of_pop? hp
    rw [hnext]
    refine h.release hev ?_ hq s.buckets
    rw [hkey]
    exact hperm

lemma Consistent.length_entries_of_removeNext {id : EventId} {q : Scheduler α} (h : s.Consistent)
    (hnext : s.removeNext = (some (id, ev), q)) :
    s.arena.entries.length = q.arena.entries.length + 1 := by
  rcases h.removeNext_cases with ⟨-, hn⟩ | ⟨e, ev', q', -, -, hev, -, hn⟩
  · rw [hnext] at hn
    cases hn
  · rw [hnext] at hn
    cases hn
    exact (Arena.perm_release hev).length_eq

/-- The earliest event is the one that is taken out next. -/
lemma Consistent.least?_eq (h : s.Consistent) : s.least? = s.removeNext.1.map (·.2) := by
  rcases h.removeNext_cases with ⟨hnil, hnext⟩ | ⟨e, ev, q, -, hp, hev, hkey, hnext⟩
  · have hl : s.queue.least? = none := by
      rw [h.valid.least?_eq_none_iff, ← h.valid.pop?_eq_none_iff, h.pop?_eq_none_iff, hnil]
    rw [hnext, least?, hl]
    rfl
  · have hget : s.arena.get? e.slot e.key.sequence = some ev :=
      Arena.get?_eq_some_iff.mpr ⟨hev, by rw [hkey]⟩
    rw [hnext, least?, (h.valid.of_pop? hp).1, Option.bind_some, hget]
    rfl

/-! ### Removal -/

/-- The entry of a record is always found in the queue. -/
lemma Consistent.remove_of_get? (h : s.Consistent)
    (hget : s.arena.get? slot sequence = some ev) :
    ∃ q, s.queue.remove ⟨ev.key, slot⟩ = some q ∧
      s.queue.entries ~ ⟨ev.key, slot⟩ :: q.entries ∧ q.Valid ∧
      s.remove (.queued slot sequence) = (some ev, ⟨s.arena.release slot, q, s.buckets⟩) := by
  have he : (⟨ev.key, slot⟩ : Entry) ∈ s.queue.entries :=
    h.perm.mem_iff.mpr (Arena.mem_entries_of_get? hget)
  cases hr : s.queue.remove ⟨ev.key, slot⟩ with
  | none => exact absurd he (h.valid.remove_eq_none_iff.mp hr)
  | some q =>
    obtain ⟨hperm, hq⟩ := h.valid.of_remove h.nodup hr
    refine ⟨q, rfl, hperm, hq, ?_⟩
    simp only [Scheduler.remove, Arena.take_of_get? hget, hr, Option.getD_some]

lemma remove_of_get?_eq_none (hget : s.arena.get? slot sequence = none) :
    s.remove (.queued slot sequence) = (none, s) := by
  simp only [remove, Arena.take_of_get?_none hget]

lemma Consistent.remove (h : s.Consistent) (id : EventId) : (s.remove id).2.Consistent := by
  cases id with
  | destroy n => exact h
  | queued slot sequence =>
    cases hget : s.arena.get? slot sequence with
    | none =>
      rw [remove_of_get?_eq_none hget]
      exact h
    | some ev =>
      obtain ⟨q, -, hperm, hq, hr⟩ := h.remove_of_get? hget
      rw [hr]
      exact h.release (Arena.get?_eq_some_iff.mp hget).1 hperm hq s.buckets

lemma Consistent.mem_entries_of_remove (h : s.Consistent) {id : EventId}
    (he : e ∈ (s.remove id).2.arena.entries) : e ∈ s.arena.entries := by
  cases id with
  | destroy n => exact he
  | queued slot sequence =>
    cases hget : s.arena.get? slot sequence with
    | none => rwa [remove_of_get?_eq_none hget] at he
    | some ev =>
      obtain ⟨q, -, -, -, hr⟩ := h.remove_of_get? hget
      rw [hr] at he
      exact (Arena.perm_release (Arena.get?_eq_some_iff.mp hget).1).mem_iff.mpr
        (List.mem_cons_of_mem _ he)

/-! ### The kind of the queue -/

@[simp] lemma kind_insert (ev : Event α) (s : Scheduler α) : (s.insert ev).2.kind = s.kind :=
  Queue.kind_insert ..

lemma Consistent.kind_removeNext (h : s.Consistent) : s.removeNext.2.kind = s.kind := by
  rcases h.removeNext_cases with ⟨-, hnext⟩ | ⟨e, ev, q, -, hp, -, -, hnext⟩
  · rw [hnext]
  · rw [hnext]
    exact Queue.kind_of_pop? hp

lemma Consistent.kind_remove (h : s.Consistent) (id : EventId) : (s.remove id).2.kind = s.kind := by
  cases id with
  | destroy n => rfl
  | queued slot sequence =>
    cases hget : s.arena.get? slot sequence with
    | none => rw [remove_of_get?_eq_none hget]
    | some ev =>
      obtain ⟨q, hq, -, -, hr⟩ := h.remove_of_get? hget
      rw [hr]
      exact Queue.kind_of_remove hq

/-! ### Cancelling -/

/-- Cancelling changes nothing or marks one record. -/
lemma cancel_cases (id : EventId) (s : Scheduler α) :
    s.cancel id = (false, s) ∨ ∃ slot ev, s.arena.at? slot = some ev ∧
      s.cancel id = (true, { s with arena := s.arena.set slot { ev with cancelled := true } }) := by
  cases id with
  | destroy n => exact Or.inl rfl
  | queued slot sequence =>
    cases hget : s.arena.get? slot sequence with
    | none =>
      left
      simp only [cancel, hget]
    | some ev =>
      simp only [cancel, hget]
      split
      · exact Or.inl rfl
      · exact Or.inr ⟨slot, ev, (Arena.get?_eq_some_iff.mp hget).1, rfl⟩

@[simp] lemma entries_cancel (id : EventId) (s : Scheduler α) :
    (s.cancel id).2.arena.entries = s.arena.entries := by
  rcases cancel_cases id s with hc | ⟨slot, ev, hev, hc⟩
  · rw [hc]
  · rw [hc]
    exact Arena.entries_set hev rfl

@[simp] lemma kind_cancel (id : EventId) (s : Scheduler α) : (s.cancel id).2.kind = s.kind := by
  rcases cancel_cases id s with hc | ⟨slot, ev, -, hc⟩
  · rw [hc]
  · rw [hc]
    rfl

lemma Consistent.cancel (h : s.Consistent) (id : EventId) : (s.cancel id).2.Consistent := by
  have hentries := entries_cancel id s
  rcases cancel_cases id s with hc | ⟨slot, ev, hev, hc⟩
  · rw [hc]
    exact h
  · rw [hc] at hentries ⊢
    exact ⟨h.tidy.set hev rfl, h.valid, h.perm.trans (List.Perm.of_eq hentries.symm)⟩

/-! ### Another kind of queue -/

lemma Consistent.moveInto_empty (h : s.Consistent) (kind : QueueKind) :
    (s.setKind kind).queue.Valid ∧ (s.setKind kind).queue.entries ~ s.queue.entries ∧
      (s.setKind kind).kind = kind := by
  have hnil := Queue.entries_empty s.buckets kind
  have hmove := h.valid.moveInto (Queue.valid_empty s.buckets kind)
    (by rw [hnil, List.append_nil]; exact h.nodup)
  rw [hnil, List.append_nil, Queue.kind_empty] at hmove
  exact hmove

lemma Consistent.setKind (h : s.Consistent) (kind : QueueKind) : (s.setKind kind).Consistent where
  tidy := h.tidy
  valid := (h.moveInto_empty kind).1
  perm := (h.moveInto_empty kind).2.1.trans h.perm

/-! ### Dropping all events -/

lemma Consistent.clear (h : s.Consistent) : s.clear.Consistent where
  tidy := Arena.tidy_empty
  valid := h.valid.drained.1
  perm := by
    rw [Scheduler.clear, h.valid.drained.2, Arena.entries_empty]

end EventKernel.Scheduler
