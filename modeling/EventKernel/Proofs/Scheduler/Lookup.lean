import EventKernel.Proofs.Scheduler.Consistent

/-!
# Looking events up by their handles

What a handle names behind each operation of a scheduler, told by what handles named before. A slot
is emptied and filled again, but the sequence number in a handle keeps the events of one slot apart,
so that every operation concerns one handle only.
-/

namespace EventKernel

variable {α : Type}

/-! ### Arenas -/

namespace Arena

variable {a b : Arena α} {ev old : Event α} {slot i k n : Nat}

/-- Two arenas that differ in one slot, which is empty or holds the same sequence number in both. -/
lemma get?_eq_ite (hne : ∀ i, i ≠ slot → b.at? i = a.at? i)
    (ha : ∀ ev, a.at? slot = some ev → ev.key.sequence = k)
    (hb : ∀ ev, b.at? slot = some ev → ev.key.sequence = k) :
    b.get? i n = if i = slot ∧ n = k then b.at? slot else a.get? i n := by
  by_cases hi : i = slot
  · subst hi
    by_cases hn : n = k
    · subst hn
      rw [if_pos ⟨rfl, rfl⟩, get?]
      cases hev : b.at? i with
      | none => rfl
      | some ev => simp [hb ev hev]
    · have hnone : ∀ c : Arena α, (∀ ev, c.at? i = some ev → ev.key.sequence = k) →
          c.get? i n = none := by
        intro c hc
        rw [get?, Option.filter_eq_none_iff]
        intro ev hev
        simpa [hc ev hev] using Ne.symm hn
      rw [if_neg (fun h => hn h.2), hnone a ha, hnone b hb]
  · rw [if_neg (fun h => hi h.1), get?, get?, hne i hi]

lemma Tidy.get?_insert (h : a.Tidy) (ev : Event α) :
    (a.insert ev).2.get? i n =
      if i = (a.insert ev).1 ∧ n = ev.key.sequence then some ev else a.get? i n := by
  obtain ⟨hnone, hself⟩ := h.at?_insert ev
  rw [get?_eq_ite (k := ev.key.sequence) fun _ => at?_insert_of_ne ev, hself]
  · simp [hnone]
  · simp [hself]

lemma Tidy.get?_insert_self (h : a.Tidy) (ev : Event α) : a.get? (a.insert ev).1 n = none := by
  rw [get?, (h.at?_insert ev).1, Option.filter_none]

lemma get?_set (hold : a.at? slot = some old) (hkey : ev.key = old.key) :
    (a.set slot ev).get? i n =
      if i = slot ∧ n = ev.key.sequence then some ev else a.get? i n := by
  have hself : (a.set slot ev).at? slot = some ev := at?_set_self (lt_size_of_at? hold)
  rw [get?_eq_ite (k := ev.key.sequence) fun _ => at?_set_of_ne, hself]
  · simp [hold, hkey]
  · simp [hself]

lemma get?_release (h : a.at? slot = some ev) :
    (a.release slot).get? i n =
      if i = slot ∧ n = ev.key.sequence then none else a.get? i n := by
  rw [get?_eq_ite (k := ev.key.sequence) fun _ => at?_release_of_ne, at?_release_self]
  · simp [h]
  · simp

end Arena

/-! ### Schedulers -/

namespace Scheduler

variable {s q : Scheduler α} {ev : Event α} {id j : EventId}

/-- A new event gets a handle that named nothing before. -/
lemma Consistent.get?_insert (h : s.Consistent) (ev : Event α) :
    (s.insert ev).1.sequence = ev.key.sequence ∧ s.get? (s.insert ev).1 = none ∧
      ∀ j, (s.insert ev).2.get? j = if j = (s.insert ev).1 then some ev else s.get? j := by
  refine ⟨rfl, h.tidy.get?_insert_self ev, ?_⟩
  intro j
  cases j with
  | destroy n => rfl
  | queued i n =>
    simp only [Scheduler.insert, get?, EventId.queued.injEq]
    exact h.tidy.get?_insert ev

lemma cancel_eq (id : EventId) (s : Scheduler α) :
    (s.cancel id).1 = s.isPending id ∧ (s.isPending id = false → s.cancel id = (false, s)) := by
  cases id with
  | destroy n => exact ⟨rfl, fun _ => rfl⟩
  | queued slot n =>
    rw [isPending, get?]
    cases hget : s.arena.get? slot n with
    | none => simp only [cancel, hget, Option.any_none, true_and, implies_true]
    | some ev => cases hc : ev.cancelled <;> simp [cancel, hget, hc]

lemma get?_cancel (id j : EventId) (s : Scheduler α) :
    (s.cancel id).2.get? j =
      if j = id then (s.get? id).map fun ev => { ev with cancelled := true } else s.get? j := by
  cases id with
  | destroy n =>
    cases j with
    | destroy k => simp [get?]
    | queued i k => simp [cancel, get?]
  | queued slot n =>
    cases hget : s.arena.get? slot n with
    | none =>
      have hid : s.get? (.queued slot n) = none := hget
      simp only [cancel, hget, hid, Option.map_none]
      split
      · next heq => rw [heq, hid]
      · rfl
    | some ev =>
      have hid : s.get? (.queued slot n) = some ev := hget
      obtain ⟨hat, rfl⟩ := Arena.get?_eq_some_iff.mp hget
      simp only [cancel, hget, hid, Option.map_some]
      split
      · next hc =>
        split
        · next heq => rw [heq, hid, ← hc]
        · rfl
      · cases j with
        | destroy k => simp [get?]
        | queued i k =>
          simp only [get?, EventId.queued.injEq]
          have hkey : ({ ev with cancelled := true } : Event α).key = ev.key := rfl
          exact Arena.get?_set hat hkey

/-- What is taken away is what the handle named, and nothing else. -/
lemma Consistent.get?_remove (h : s.Consistent) (id : EventId) :
    (s.remove id).1 = s.get? id ∧
      (s.get? id = none → s.remove id = (none, s)) ∧
      ∀ j, (s.remove id).2.get? j = if j = id then none else s.get? j := by
  cases id with
  | destroy n =>
    refine ⟨rfl, fun _ => rfl, ?_⟩
    intro j
    split
    · next hj => rw [hj, Scheduler.remove, get?]
    · rfl
  | queued slot n =>
    cases hget : s.arena.get? slot n with
    | none =>
      rw [remove_of_get?_eq_none hget, get?, hget]
      refine ⟨rfl, fun _ => rfl, ?_⟩
      intro j
      split
      · next hj => rw [hj, get?, hget]
      · rfl
    | some ev =>
      obtain ⟨q, -, -, -, hr⟩ := h.remove_of_get? hget
      obtain ⟨hat, hn⟩ := Arena.get?_eq_some_iff.mp hget
      rw [hr, get?, hget]
      refine ⟨rfl, by simp, ?_⟩
      intro j
      cases j with
      | destroy k => simp [get?]
      | queued i k =>
        simp only [get?, EventId.queued.injEq]
        rw [Arena.get?_release hat, hn]

/-- The event that is taken off the queue was stored under the handle it is given out with. -/
lemma Consistent.get?_removeNext (h : s.Consistent) (hnext : s.removeNext = (some (id, ev), q)) :
    s.get? id = some ev ∧ ∀ j, q.get? j = if j = id then none else s.get? j := by
  rcases h.removeNext_cases with ⟨-, hn⟩ | ⟨e, ev', q', -, -, hat, hkey, hn⟩
  · rw [hnext] at hn
    cases hn
  · rw [hnext] at hn
    cases hn
    refine ⟨Arena.get?_eq_some_iff.mpr ⟨hat, by rw [hkey]⟩, ?_⟩
    intro j
    cases j with
    | destroy k => simp [get?, EventId.ofEntry]
    | queued i k =>
      simp only [get?, EventId.ofEntry, EventId.queued.injEq]
      rw [Arena.get?_release hat, hkey]

lemma Consistent.removeNext_eq_none (h : s.Consistent) (hnext : s.removeNext.1 = none) :
    s.arena.entries = [] ∧ s.removeNext.2 = s := by
  rcases h.removeNext_cases with ⟨hnil, hn⟩ | ⟨e, ev, q, -, -, -, -, hn⟩
  · exact ⟨hnil, by rw [hn]⟩
  · rw [hn] at hnext
    cases hnext

@[simp] lemma get?_setKind (kind : QueueKind) (s : Scheduler α) (id : EventId) :
    (s.setKind kind).get? id = s.get? id := by
  cases id <;> rfl

@[simp] lemma get?_empty (kind : QueueKind) (buckets : Nat) (id : EventId) :
    (empty kind buckets : Scheduler α).get? id = none := by
  cases id <;> rfl

end Scheduler

end EventKernel
