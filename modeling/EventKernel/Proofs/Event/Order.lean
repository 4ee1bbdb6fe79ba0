import Mathlib.Data.Prod.Lex
import Mathlib.Tactic.Lemma
import EventKernel.Event.Entry

/-!
# The order of keys and entries

Keys and entries are linearly ordered, and the comparisons the queues make decide these orders.
-/

namespace EventKernel

/-! ### Keys -/

lemma EventKey.lex_injective :
    Function.Injective fun k : EventKey => toLex (k.time.ticks, k.sequence) := by
  rintro ⟨t, m⟩ ⟨u, n⟩ h
  simp only [EmbeddingLike.apply_eq_iff_eq, Prod.mk.injEq] at h
  rw [Time.ext h.1, h.2]

/-- Keys are ordered by time, then by sequence number. -/
instance : LinearOrder EventKey := LinearOrder.lift' _ EventKey.lex_injective

lemma EventKey.lt_iff {k l : EventKey} :
    k < l ↔ k.time.ticks < l.time.ticks ∨
      k.time.ticks = l.time.ticks ∧ k.sequence < l.sequence :=
  Prod.Lex.toLex_lt_toLex

lemma EventKey.lt_of_time_le {k l : EventKey} (htime : k.time ≤ l.time)
    (hsequence : k.sequence < l.sequence) : k < l := by
  rw [EventKey.lt_iff]
  rcases Int.lt_or_eq_of_le htime with hlt | heq
  · exact Or.inl hlt
  · exact Or.inr ⟨heq, hsequence⟩

lemma EventKey.cmp_eq_lt {k l : EventKey} : k.cmp l = .lt ↔ k < l := by
  rw [EventKey.lt_iff, EventKey.cmp, Ordering.then_eq_lt, compare_lt_iff_lt, compare_eq_iff_eq,
    compare_lt_iff_lt]

lemma EventKey.ticks_le {k l : EventKey} (h : k ≤ l) : k.time.ticks ≤ l.time.ticks := by
  by_contra hlt
  exact absurd (EventKey.lt_iff.mpr (Or.inl (lt_of_not_ge hlt))) (not_lt_of_ge h)

/-! ### Entries -/

lemma Entry.lex_injective : Function.Injective fun e : Entry => toLex (e.key, e.slot) := by
  rintro ⟨k, m⟩ ⟨l, n⟩ h
  simp only [EmbeddingLike.apply_eq_iff_eq, Prod.mk.injEq] at h
  rw [h.1, h.2]

/-- Entries are ordered by key, then by slot. -/
instance : LinearOrder Entry := LinearOrder.lift' _ Entry.lex_injective

lemma Entry.lt_iff {e f : Entry} : e < f ↔ e.key < f.key ∨ e.key = f.key ∧ e.slot < f.slot :=
  Prod.Lex.toLex_lt_toLex

lemma Entry.cmp_eq_lt {e f : Entry} : e.cmp f = .lt ↔ e < f := by
  rw [Entry.lt_iff, Entry.cmp, Ordering.then_eq_lt, EventKey.cmp_eq_lt,
    Std.LawfulEqCmp.compare_eq_iff_eq, compare_lt_iff_lt]

@[simp] lemma Entry.before_iff {e f : Entry} : e.before f = true ↔ e < f := by
  rw [Entry.before, beq_iff_eq, Entry.cmp_eq_lt]

lemma Entry.key_le {e f : Entry} (h : e ≤ f) : e.key ≤ f.key := by
  by_contra hlt
  exact absurd (Entry.lt_iff.mpr (Or.inl (lt_of_not_ge hlt))) (not_lt_of_ge h)

end EventKernel
