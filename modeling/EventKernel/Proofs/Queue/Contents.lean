import EventKernel.Proofs.Queue.Calendar.Invariant
import EventKernel.Proofs.Queue.Heap
import EventKernel.Proofs.Queue.OrderedSet
import EventKernel.Queue.Basic

/-!
# What queues hold

The operations of all four kinds of queues, told by the entries the queue holds. A queue is valid if
it keeps the order its kind relies on. The kinds treat an entry that is put in twice in different
ways, so that insertion asks that the entry is new, and removal that no entry is held twice.
-/

namespace EventKernel.Queue

open scoped List

variable {q r into : Queue} {e x : Entry}

/-- The entries a queue holds, in the order in which it happens to keep them. -/
def entries : Queue → List Entry
  | heap h => h.toList
  | map s => s.toList
  | calendar c => c.entries
  | list es => es

/-- The queue keeps the order its kind relies on. -/
def Valid : Queue → Prop
  | heap h => h.Ordered
  | map _ => True
  | calendar c => c.Valid
  | list es => es.Pairwise (· ≤ ·)

/-! ### The empty queue -/

@[simp] lemma entries_empty (buckets : Nat) (kind : QueueKind) :
    (empty buckets kind).entries = [] := by
  cases kind with
  | heap => rfl
  | map => exact OrderedSet.min?_eq_none_iff.mp Std.TreeSet.min?_emptyc
  | calendar => exact Calendar.entries_empty buckets
  | list => rfl

lemma valid_empty (buckets : Nat) (kind : QueueKind) : (empty buckets kind).Valid := by
  cases kind with
  | heap => trivial
  | map => trivial
  | calendar => exact Calendar.valid_empty buckets
  | list => exact List.Pairwise.nil

@[simp] lemma kind_empty (buckets : Nat) (kind : QueueKind) : (empty buckets kind).kind = kind := by
  cases kind <;> rfl

/-! ### Size -/

lemma Valid.size_eq (h : q.Valid) : q.size = q.entries.length := by
  cases q with
  | heap a => exact (Heap.length_toList a).symm
  | map s => exact Std.TreeSet.length_toList.symm
  | calendar c => exact Calendar.Valid.size_eq h
  | list es => rfl

lemma Valid.isEmpty_iff (h : q.Valid) : q.isEmpty = true ↔ q.entries = [] := by
  have hs : decide (q.size = 0) = true ↔ q.entries = [] := by
    rw [decide_eq_true_iff, h.size_eq, List.length_eq_zero_iff]
  cases q with
  | heap a => cases a <;> simp [isEmpty, entries, Heap.toList]
  | map s => exact hs
  | calendar c => exact hs
  | list es => exact hs

/-! ### Insertion -/

lemma Valid.insert (h : q.Valid) (e : Entry) : (q.insert e).Valid := by
  cases q with
  | heap a => exact Heap.ordered_insert e h
  | map s => trivial
  | calendar c => exact Calendar.Valid.insert h e
  | list es => exact SortedList.pairwise_insert e h

lemma Valid.perm_insert (h : q.Valid) (he : e ∉ q.entries) :
    (q.insert e).entries ~ e :: q.entries := by
  cases q with
  | heap a => exact Heap.perm_insert e a
  | map s => exact OrderedSet.perm_insert he
  | calendar c => exact Calendar.Valid.perm_insert h e
  | list es => exact SortedList.perm_insert e es

@[simp] lemma kind_insert (e : Entry) (q : Queue) : (q.insert e).kind = q.kind := by
  cases q <;> rfl

/-! ### The kind -/

lemma kind_of_pop? (h : q.pop? = some (e, r)) : r.kind = q.kind := by
  cases q with
  | heap a =>
    obtain ⟨_, _, hr⟩ := Option.map_eq_some_iff.mp h
    cases hr
    rfl
  | map s =>
    obtain ⟨_, _, hr⟩ := Option.map_eq_some_iff.mp h
    cases hr
    rfl
  | calendar c =>
    obtain ⟨_, _, hr⟩ := Option.map_eq_some_iff.mp h
    cases hr
    rfl
  | list es =>
    cases es with
    | nil => cases h
    | cons x xs =>
      cases h
      rfl

lemma kind_of_remove (h : q.remove e = some r) : r.kind = q.kind := by
  cases q <;>
  · obtain ⟨_, _, rfl⟩ := Option.map_eq_some_iff.mp h
    rfl

/-! ### The least entry -/

lemma Valid.least?_eq_none_iff (h : q.Valid) : q.least? = none ↔ q.entries = [] := by
  cases q with
  | heap a => exact Heap.least?_eq_none_iff
  | map s => exact OrderedSet.min?_eq_none_iff
  | calendar c => exact Calendar.Valid.least?_eq_none_iff h
  | list es => exact List.head?_eq_none_iff

lemma Valid.least?_le (h : q.Valid) (he : q.least? = some e) :
    e ∈ q.entries ∧ ∀ x ∈ q.entries, e ≤ x := by
  cases q with
  | heap a => exact Heap.least?_le h he
  | map s => exact OrderedSet.min?_le he
  | calendar c => exact Calendar.Valid.least?_le h he
  | list es =>
    obtain ⟨rest, rfl⟩ := List.head?_eq_some_iff.mp he
    refine ⟨List.mem_cons_self, ?_⟩
    intro x hx
    rcases List.mem_cons.mp hx with rfl | hx
    · exact le_refl _
    · exact (List.pairwise_cons.mp h).1 x hx

lemma Valid.pop?_eq_none_iff (h : q.Valid) : q.pop? = none ↔ q.entries = [] := by
  cases q with
  | heap a => exact Option.map_eq_none_iff.trans Heap.pop?_eq_none_iff
  | map s => exact Option.map_eq_none_iff.trans OrderedSet.pop?_eq_none_iff
  | calendar c => exact Option.map_eq_none_iff.trans (Calendar.Valid.pop?_eq_none_iff h)
  | list es => cases es <;> simp [pop?, entries]

/-- The entry taken out is the least one, and the others stay. -/
lemma Valid.of_pop? (h : q.Valid) (hp : q.pop? = some (e, r)) :
    q.least? = some e ∧ q.entries ~ e :: r.entries ∧ r.Valid := by
  cases q with
  | heap a =>
    simp only [pop?, Option.map_eq_some_iff, Prod.mk.injEq] at hp
    obtain ⟨⟨x, b⟩, hx, rfl, rfl⟩ := hp
    exact Heap.of_pop? h hx
  | map s =>
    simp only [pop?, Option.map_eq_some_iff, Prod.mk.injEq] at hp
    obtain ⟨⟨x, t⟩, hx, rfl, rfl⟩ := hp
    exact ⟨(OrderedSet.of_pop? hx).1, (OrderedSet.of_pop? hx).2, trivial⟩
  | calendar c =>
    simp only [pop?, Option.map_eq_some_iff, Prod.mk.injEq] at hp
    obtain ⟨⟨x, d⟩, hx, rfl, rfl⟩ := hp
    exact Calendar.Valid.of_pop? h hx
  | list es =>
    cases es with
    | nil => simp [pop?] at hp
    | cons x xs =>
      simp only [pop?, Option.some.injEq, Prod.mk.injEq] at hp
      obtain ⟨rfl, rfl⟩ := hp
      exact ⟨rfl, List.Perm.refl _, (List.pairwise_cons.mp h).2⟩

/-! ### Removal -/

lemma Valid.remove_eq_none_iff (h : q.Valid) : q.remove e = none ↔ e ∉ q.entries := by
  cases q with
  | heap a => exact Option.map_eq_none_iff.trans Heap.remove_eq_none_iff
  | map s => exact Option.map_eq_none_iff.trans OrderedSet.remove_eq_none_iff
  | calendar c => exact Option.map_eq_none_iff.trans (Calendar.Valid.remove_eq_none_iff h)
  | list es => exact Option.map_eq_none_iff.trans SortedList.remove_eq_none_iff

lemma Valid.of_remove (h : q.Valid) (hn : q.entries.Nodup) (hr : q.remove e = some r) :
    q.entries ~ e :: r.entries ∧ r.Valid := by
  have he : e ∈ q.entries := by
    by_contra hne
    rw [h.remove_eq_none_iff.mpr hne] at hr
    simp at hr
  cases q with
  | heap a =>
    simp only [remove, Option.map_eq_some_iff] at hr
    obtain ⟨b, hb, rfl⟩ := hr
    obtain ⟨hperm, hord⟩ := Heap.of_remove hb
    refine ⟨(List.perm_cons_erase he).trans (List.Perm.cons e ?_), hord⟩
    rw [List.Nodup.erase_eq_filter hn]
    refine (hperm.trans (List.Perm.of_eq (List.filter_congr ?_))).symm
    intro x _
    rw [Bool.eq_iff_iff, decide_eq_true_iff, bne_iff_ne]
  | map s =>
    simp only [remove, Option.map_eq_some_iff] at hr
    obtain ⟨t, ht, rfl⟩ := hr
    exact ⟨OrderedSet.of_remove ht, trivial⟩
  | calendar c =>
    simp only [remove, Option.map_eq_some_iff] at hr
    obtain ⟨d, hd, rfl⟩ := hr
    exact Calendar.Valid.of_remove h hd
  | list es =>
    simp only [remove, Option.map_eq_some_iff] at hr
    obtain ⟨xs, hx, rfl⟩ := hr
    exact ⟨SortedList.perm_of_remove hx, SortedList.pairwise_of_remove h hx⟩

/-! ### Moving and draining -/

/-- Moving the entries to another queue loses none and doubles none. -/
lemma Valid.moveInto (hq : q.Valid) (hi : into.Valid) (hn : (q.entries ++ into.entries).Nodup) :
    (q.moveInto into).Valid ∧ (q.moveInto into).entries ~ q.entries ++ into.entries ∧
      (q.moveInto into).kind = into.kind := by
  induction q, into using Queue.moveInto.induct with
  | case1 q into hp =>
    rw [Queue.moveInto]
    split
    · rw [hq.pop?_eq_none_iff.mp hp]
      exact ⟨hi, List.Perm.refl _, rfl⟩
    · rename_i hs
      simp [hp] at hs
  | case2 q into e r hp ih =>
    rw [Queue.moveInto]
    split
    · rename_i hs
      simp [hp] at hs
    · rename_i e' r' hs
      rw [hp] at hs
      cases hs
      obtain ⟨-, hperm, hr⟩ := hq.of_pop? hp
      have hn' := (hperm.append_right into.entries).nodup_iff.mp hn
      rw [List.cons_append, List.nodup_cons, List.mem_append, not_or] at hn'
      have hins := hi.perm_insert hn'.1.2
      have hmove : r.entries ++ (into.insert e).entries ~ q.entries ++ into.entries :=
        (hins.append_left r.entries).trans
          (List.perm_middle.trans (hperm.append_right into.entries).symm)
      obtain ⟨hv, hp', hk⟩ := ih hr (hi.insert e) (hmove.nodup_iff.mpr hn)
      exact ⟨hv, hp'.trans hmove, hk.trans (kind_insert e into)⟩

lemma Valid.drained (h : q.Valid) : q.drained.Valid ∧ q.drained.entries = [] := by
  induction q using Queue.drained.induct with
  | case1 q hp =>
    rw [Queue.drained]
    split
    · exact ⟨h, h.pop?_eq_none_iff.mp hp⟩
    · rename_i hs
      simp [hp] at hs
  | case2 q e r hp ih =>
    rw [Queue.drained]
    split
    · rename_i hs
      simp [hp] at hs
    · rename_i e' r' hs
      rw [hp] at hs
      cases hs
      exact ih (h.of_pop? hp).2.2

end EventKernel.Queue
