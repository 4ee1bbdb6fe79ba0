import Mathlib.Data.List.Sort
import EventKernel.Proofs.Event.Order
import EventKernel.Queue.SortedList

/-!
# Sorted lists of entries

Insertion and removal keep a list in ascending order, and add or take away one copy of the entry.
Two ascending lists with the same entries are the same list, so that it is enough to know which
entries a queue holds to know in what order it gives them back.
-/

namespace EventKernel.SortedList

open scoped List

variable {e : Entry} {xs ys : List Entry}

/-! ### Insertion -/

lemma insert_eq_orderedInsert (e : Entry) (xs : List Entry) :
    insert e xs = xs.orderedInsert (· ≤ ·) e := by
  induction xs with
  | nil => rfl
  | cons x xs ih =>
    rw [insert, List.orderedInsert_cons, ih]
    by_cases h : x < e
    · rw [if_pos (Entry.before_iff.mpr h), if_neg (not_le_of_gt h)]
    · rw [if_neg (by simpa using h), if_pos (le_of_not_gt h)]

lemma perm_insert (e : Entry) (xs : List Entry) : insert e xs ~ e :: xs := by
  rw [insert_eq_orderedInsert]
  exact List.perm_orderedInsert _ e xs

lemma pairwise_insert (e : Entry) (h : xs.Pairwise (· ≤ ·)) :
    (insert e xs).Pairwise (· ≤ ·) := by
  rw [insert_eq_orderedInsert]
  exact h.orderedInsert e xs

@[simp] lemma mem_insert {x : Entry} : x ∈ insert e xs ↔ x = e ∨ x ∈ xs := by
  rw [(perm_insert e xs).mem_iff, List.mem_cons]

/-! ### Removal -/

lemma remove_eq (e : Entry) (xs : List Entry) :
    remove e xs = if e ∈ xs then some (xs.erase e) else none := by
  induction xs with
  | nil => rfl
  | cons x xs ih =>
    rw [remove, ih]
    by_cases hx : x = e
    · simp [hx]
    · have hx' : ¬e = x := fun h => hx h.symm
      simp only [hx, if_false, List.mem_cons, hx', false_or]
      split_ifs
      · rw [List.erase_cons_tail (by simpa using hx), Option.map_some]
      · rfl

lemma remove_eq_none_iff : remove e xs = none ↔ e ∉ xs := by
  rw [remove_eq]
  split_ifs with h <;> simp [h]

lemma perm_of_remove (h : remove e xs = some ys) : xs ~ e :: ys := by
  rw [remove_eq] at h
  split_ifs at h with hm
  rw [← Option.some.inj h]
  exact List.perm_cons_erase hm

lemma pairwise_of_remove (hs : xs.Pairwise (· ≤ ·)) (h : remove e xs = some ys) :
    ys.Pairwise (· ≤ ·) := by
  rw [remove_eq] at h
  split_ifs at h
  rw [← Option.some.inj h]
  exact hs.sublist List.erase_sublist

/-! ### Sorting -/

lemma perm_sort (xs : List Entry) : sort xs ~ xs :=
  List.mergeSort_perm xs _

lemma pairwise_sort (xs : List Entry) : (sort xs).Pairwise (· ≤ ·) := by
  have hle : ∀ x y : Entry, (!y.before x) = true ↔ x ≤ y := by
    intro x y
    rw [Bool.not_eq_true', ← Bool.not_eq_true, Entry.before_iff, not_lt]
  refine (List.pairwise_mergeSort ?_ ?_ xs).imp fun {x y} h => (hle x y).mp h
  · intro x y z hxy hyz
    exact (hle x z).mpr (((hle x y).mp hxy).trans ((hle y z).mp hyz))
  · intro x y
    rw [Bool.or_eq_true, hle, hle]
    exact le_total x y

end EventKernel.SortedList
