import Mathlib.Data.List.Perm.Basic
import EventKernel.Proofs.Event.Order
import EventKernel.Queue.OrderedSet

/-!
# Ordered sets of entries

A set lists its entries in strictly ascending order. As long as no entry is put in while it is
already there, the set treats entries as a list with one copy of each does.
-/

namespace EventKernel.OrderedSet

open scoped List

variable {e : Entry} {s t : OrderedSet}

lemma pairwise_toList (s : OrderedSet) : s.toList.Pairwise (· < ·) :=
  Std.TreeSet.ordered_toList.imp Entry.cmp_eq_lt.mp

lemma nodup_toList (s : OrderedSet) : s.toList.Nodup :=
  (pairwise_toList s).imp ne_of_lt

lemma perm_insert (he : e ∉ s.toList) : (s.insert e).toList ~ e :: s.toList := by
  have h := Std.TreeSet.toList_insert_perm (t := s) (k := e)
  rwa [if_neg (mt Std.TreeSet.mem_toList.mpr he)] at h

lemma perm_erase (he : e ∈ s.toList) : s.toList ~ e :: (s.erase e).toList := by
  have hmem : ∀ x, x ∈ (s.erase e).toList ↔ x ≠ e ∧ x ∈ s.toList := by
    intro x
    rw [Std.TreeSet.mem_toList, Std.TreeSet.mem_erase, Std.TreeSet.mem_toList]
    exact and_congr_left fun _ => (not_congr Std.LawfulEqCmp.compare_eq_iff_eq).trans ne_comm
  have hnd : (e :: (s.erase e).toList).Nodup :=
    List.nodup_cons.mpr ⟨fun h => ((hmem e).mp h).1 rfl, nodup_toList _⟩
  rw [List.perm_ext_iff_of_nodup (nodup_toList s) hnd]
  intro x
  rw [List.mem_cons, hmem]
  by_cases hx : x = e
  · simp [hx, he]
  · simp [hx]

lemma min?_eq_none_iff : s.min? = none ↔ s.toList = [] := by
  rw [Std.TreeSet.min?_eq_head?_toList, List.head?_eq_none_iff]

lemma min?_le (he : s.min? = some e) : e ∈ s.toList ∧ ∀ x ∈ s.toList, e ≤ x := by
  rw [Std.TreeSet.min?_eq_head?_toList] at he
  obtain ⟨rest, hl⟩ := List.head?_eq_some_iff.mp he
  have hs := pairwise_toList s
  rw [hl, List.pairwise_cons] at hs
  rw [hl]
  refine ⟨List.mem_cons_self, ?_⟩
  intro x hx
  rcases List.mem_cons.mp hx with rfl | hx
  · exact le_refl _
  · exact le_of_lt (hs.1 x hx)

lemma pop?_eq_none_iff : pop? s = none ↔ s.toList = [] := by
  rw [pop?, Option.map_eq_none_iff, min?_eq_none_iff]

lemma of_pop? (hp : pop? s = some (e, t)) : s.min? = some e ∧ s.toList ~ e :: t.toList := by
  simp only [pop?, Option.map_eq_some_iff, Prod.mk.injEq] at hp
  obtain ⟨x, hx, rfl, rfl⟩ := hp
  exact ⟨hx, perm_erase (min?_le hx).1⟩

lemma remove_eq_none_iff : remove e s = none ↔ e ∉ s.toList := by
  rw [Std.TreeSet.mem_toList, ← Std.TreeSet.contains_iff_mem, remove]
  split_ifs with h <;> simp [h]

lemma of_remove (hr : remove e s = some t) : s.toList ~ e :: t.toList := by
  have he : e ∈ s.toList := by
    by_contra hn
    rw [remove_eq_none_iff.mpr hn] at hr
    simp at hr
  rw [remove] at hr
  split_ifs at hr
  rw [← Option.some.inj hr]
  exact perm_erase he

end EventKernel.OrderedSet
