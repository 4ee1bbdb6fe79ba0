import Mathlib.Data.List.Perm.Basic
import EventKernel.Proofs.Event.Order
import EventKernel.Queue.Heap

/-!
# Heaps of entries

A heap is ordered if no entry stands above a smaller one. All operations keep this order, and what
they do to the entries is said up to the order in which `toList` happens to name them.
-/

namespace EventKernel.Heap

open scoped List

variable {e : Entry} {a b h k : Heap}

/-- Every entry comes before, or is equal to, those below it. -/
def Ordered : Heap → Prop
  | leaf => True
  | node _ e l r => (∀ x ∈ l.toList ++ r.toList, e ≤ x) ∧ l.Ordered ∧ r.Ordered

lemma length_toList (h : Heap) : h.toList.length = h.size := by
  induction h with
  | leaf => rfl
  | node r e a b iha ihb => simp [toList, size, iha, ihb]

/-! ### Merging -/

lemma perm_join (e : Entry) (a b : Heap) :
    (join e a b).toList ~ e :: (a.toList ++ b.toList) := by
  rw [join]
  split
  · exact List.Perm.refl _
  · exact List.perm_append_comm.cons e

lemma ordered_join (he : ∀ x ∈ a.toList ++ b.toList, e ≤ x) (ha : a.Ordered) (hb : b.Ordered) :
    (join e a b).Ordered := by
  rw [join]
  split
  · exact ⟨he, ha, hb⟩
  · refine ⟨fun x hx => he x ?_, hb, ha⟩
    rw [List.mem_append] at hx ⊢
    exact hx.symm

lemma perm_merge (a b : Heap) : (merge a b).toList ~ a.toList ++ b.toList := by
  fun_induction merge a b with
  | case1 b => exact List.Perm.refl _
  | case2 a => simp [toList]
  | case3 r x l₁ r₁ s y l₂ r₂ _ ih =>
    calc (join y l₂ (merge (node r x l₁ r₁) r₂)).toList
      _ ~ y :: (l₂.toList ++ ((node r x l₁ r₁).toList ++ r₂.toList)) :=
          (perm_join _ _ _).trans ((ih.append_left _).cons _)
      _ ~ y :: ((node r x l₁ r₁).toList ++ (l₂.toList ++ r₂.toList)) :=
          (List.perm_append_comm_assoc _ _ _).cons _
      _ ~ _ := List.perm_middle.symm
  | case4 r x l₁ r₁ s y l₂ r₂ _ ih =>
    refine (perm_join _ _ _).trans ?_
    simp only [toList, List.cons_append] at ih ⊢
    refine List.Perm.cons _ ?_
    rw [List.append_assoc]
    exact ih.append_left _

lemma ordered_merge (ha : a.Ordered) (hb : b.Ordered) : (merge a b).Ordered := by
  fun_induction merge a b with
  | case1 b => exact hb
  | case2 a => exact ha
  | case3 r x l₁ r₁ s y l₂ r₂ hxy ih =>
    have hyx : y ≤ x := le_of_lt (by simpa using hxy)
    refine ordered_join ?_ hb.2.1 (ih ha hb.2.2)
    intro z hz
    rw [List.mem_append, (perm_merge _ _).mem_iff, toList, List.mem_append, List.mem_cons] at hz
    rcases hz with hz | (rfl | hz) | hz
    · exact hb.1 z (List.mem_append_left _ hz)
    · exact hyx
    · exact hyx.trans (ha.1 z hz)
    · exact hb.1 z (List.mem_append_right _ hz)
  | case4 r x l₁ r₁ s y l₂ r₂ hxy ih =>
    have hle : x ≤ y := le_of_not_gt (by simpa using hxy)
    refine ordered_join ?_ ha.2.1 (ih ha.2.2 hb)
    intro z hz
    rw [List.mem_append, (perm_merge _ _).mem_iff, toList, List.mem_append, List.mem_cons] at hz
    rcases hz with hz | hz | rfl | hz
    · exact ha.1 z (List.mem_append_left _ hz)
    · exact ha.1 z (List.mem_append_right _ hz)
    · exact hle
    · exact hle.trans (hb.1 z hz)

/-! ### Operations -/

lemma perm_insert (e : Entry) (h : Heap) : (h.insert e).toList ~ e :: h.toList :=
  (perm_merge _ _).trans (by simp [toList])

lemma ordered_insert (e : Entry) (hh : h.Ordered) : (h.insert e).Ordered :=
  ordered_merge ⟨by simp [toList], trivial, trivial⟩ hh

lemma least?_eq_none_iff : h.least? = none ↔ h.toList = [] := by
  cases h <;> simp [least?, toList]

lemma least?_le (hh : h.Ordered) (he : h.least? = some e) :
    e ∈ h.toList ∧ ∀ x ∈ h.toList, e ≤ x := by
  cases h with
  | leaf => simp [least?] at he
  | node r y a b =>
    cases he
    refine ⟨List.mem_cons_self, ?_⟩
    intro x hx
    rcases List.mem_cons.mp hx with rfl | hx
    · exact le_refl _
    · exact hh.1 x hx

lemma pop?_eq_none_iff : h.pop? = none ↔ h.toList = [] := by
  cases h <;> simp [pop?, toList]

/-- The entry taken out is the one on top. -/
lemma of_pop? (hh : h.Ordered) (hp : h.pop? = some (e, k)) :
    h.least? = some e ∧ h.toList ~ e :: k.toList ∧ k.Ordered := by
  cases h with
  | leaf => simp [pop?] at hp
  | node r y a b =>
    simp only [pop?, Option.some.injEq, Prod.mk.injEq] at hp
    obtain ⟨rfl, rfl⟩ := hp
    exact ⟨rfl, (perm_merge a b).symm.cons y, ordered_merge hh.2.1 hh.2.2⟩

lemma perm_foldl_insert (es : List Entry) (h : Heap) :
    (es.foldl (fun h e => h.insert e) h).toList ~ es ++ h.toList := by
  induction es generalizing h with
  | nil => exact List.Perm.refl _
  | cons e es ih =>
    exact (ih _).trans (((perm_insert e h).append_left es).trans List.perm_middle)

lemma ordered_foldl_insert (es : List Entry) (hh : h.Ordered) :
    (es.foldl (fun h e => h.insert e) h).Ordered := by
  induction es generalizing h with
  | nil => exact hh
  | cons e es ih => exact ih (ordered_insert e hh)

lemma remove_eq_none_iff : h.remove e = none ↔ e ∉ h.toList := by
  rw [remove]
  simp only [← length_toList, List.length_filter_eq_length_iff]
  split_ifs with hall
  · simp only [true_iff]
    intro he
    simpa using hall e he
  · simp only [false_iff, not_not]
    by_contra he
    exact hall fun x hx => decide_eq_true fun hxe => he (hxe ▸ hx)

/-- Every copy of the entry goes. -/
lemma of_remove (hr : h.remove e = some k) :
    k.toList ~ h.toList.filter (· ≠ e) ∧ k.Ordered := by
  simp only [remove] at hr
  split_ifs at hr
  rw [← Option.some.inj hr]
  refine ⟨(perm_foldl_insert _ leaf).trans ?_, ordered_foldl_insert _ trivial⟩
  rw [toList, List.append_nil]

end EventKernel.Heap
