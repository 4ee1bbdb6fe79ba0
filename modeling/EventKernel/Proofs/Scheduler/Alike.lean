import EventKernel.Proofs.Scheduler.Consistent

/-!
# Schedulers that differ in their queues

Two consistent schedulers with the same records answer every question alike, whatever the kinds of
their queues are, since the records alone decide which entries the queues hold.
-/

namespace EventKernel.Scheduler

variable {α : Type} {s t : Scheduler α}

/-- Two schedulers with the same records. -/
structure Alike (s t : Scheduler α) : Prop where
  left : s.Consistent
  right : t.Consistent
  arena_eq : t.arena = s.arena

/-! ### Questions -/

lemma Alike.get?_eq (h : s.Alike t) (id : EventId) : t.get? id = s.get? id := by
  cases id with
  | queued slot sequence => rw [get?, get?, h.arena_eq]
  | destroy n => rfl

lemma Alike.isPending_eq (h : s.Alike t) (id : EventId) : t.isPending id = s.isPending id := by
  rw [isPending, isPending, h.get?_eq]

lemma Alike.size_eq (h : s.Alike t) : t.size = s.size := by
  rw [size, size, h.arena_eq]

lemma Alike.isEmpty_eq (h : s.Alike t) : t.isEmpty = s.isEmpty := by
  rw [Bool.eq_iff_iff, h.right.isEmpty_iff, h.left.isEmpty_iff, h.arena_eq]

/-! ### Changes -/

lemma Alike.insert (h : s.Alike t) (ev : Event α) :
    ∃ id s' t', s.insert ev = (id, s') ∧ t.insert ev = (id, t') ∧ s'.Alike t' := by
  have hs := h.left.insert ev
  have ht := h.right.insert ev
  obtain ⟨arena, queue, buckets⟩ := t
  obtain rfl : arena = s.arena := h.arena_eq
  exact ⟨_, _, _, rfl, rfl, hs, ht, rfl⟩

/-- Both schedulers take out the same event, since both take out their least entry. -/
lemma Alike.removeNext (h : s.Alike t) :
    ∃ found s' t', s.removeNext = (found, s') ∧ t.removeNext = (found, t') ∧ s'.Alike t' := by
  have hs := h.left.removeNext
  have ht := h.right.removeNext
  rcases h.left.removeNext_cases with ⟨hnil, hns⟩ | ⟨e, ev, q, ⟨he, hle⟩, -, hev, -, hns⟩ <;>
    rcases h.right.removeNext_cases with ⟨hnil', hnt⟩ | ⟨e', ev', q', ⟨he', hle'⟩, -, hev', -, hnt⟩
  · exact ⟨_, _, _, hns, hnt, h⟩
  · rw [h.arena_eq, hnil] at he'
    cases he'
  · rw [← h.arena_eq, hnil'] at he
    cases he
  · rw [h.arena_eq] at he' hle' hev' hnt
    obtain rfl : e = e' := le_antisymm (hle e' he') (hle' e he)
    obtain rfl : ev = ev' := Option.some.inj (hev.symm.trans hev')
    rw [hns] at hs
    rw [hnt] at ht
    exact ⟨_, _, _, hns, hnt, hs, ht, rfl⟩

lemma Alike.remove (h : s.Alike t) (id : EventId) :
    ∃ found s' t', s.remove id = (found, s') ∧ t.remove id = (found, t') ∧ s'.Alike t' := by
  have hs := h.left.remove id
  have ht := h.right.remove id
  cases id with
  | destroy n => exact ⟨none, s, t, rfl, rfl, h⟩
  | queued slot sequence =>
    cases hget : s.arena.get? slot sequence with
    | none =>
      have hget' : t.arena.get? slot sequence = none := by rwa [h.arena_eq]
      exact ⟨none, s, t, remove_of_get?_eq_none hget, remove_of_get?_eq_none hget', h⟩
    | some ev =>
      have hget' : t.arena.get? slot sequence = some ev := by rwa [h.arena_eq]
      obtain ⟨q, -, -, -, hr⟩ := h.left.remove_of_get? hget
      obtain ⟨q', -, -, -, hr'⟩ := h.right.remove_of_get? hget'
      rw [hr] at hs
      rw [hr'] at ht
      refine ⟨_, _, _, hr, hr', hs, ht, ?_⟩
      simp only [h.arena_eq]

lemma Alike.cancel (h : s.Alike t) (id : EventId) :
    ∃ b s' t', s.cancel id = (b, s') ∧ t.cancel id = (b, t') ∧ s'.Alike t' := by
  have hs := h.left.cancel id
  have ht := h.right.cancel id
  have hsame : (t.cancel id).1 = (s.cancel id).1 ∧
      (t.cancel id).2.arena = (s.cancel id).2.arena := by
    cases id with
    | destroy n => exact ⟨rfl, h.arena_eq⟩
    | queued slot sequence =>
      simp only [Scheduler.cancel, h.arena_eq]
      split
      · exact ⟨rfl, h.arena_eq⟩
      · split
        · exact ⟨rfl, h.arena_eq⟩
        · exact ⟨rfl, rfl⟩
  refine ⟨(s.cancel id).1, _, _, rfl, ?_, hs, ht, hsame.2⟩
  rw [← hsame.1]

lemma Alike.setKind (h : s.Alike t) (kind : QueueKind) : (s.setKind kind).Alike (t.setKind kind) :=
  ⟨h.left.setKind kind, h.right.setKind kind, h.arena_eq⟩

lemma Alike.clear (h : s.Alike t) : s.clear.Alike t.clear :=
  ⟨h.left.clear, h.right.clear, rfl⟩

end EventKernel.Scheduler
