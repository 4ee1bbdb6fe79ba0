import EventKernel.Proofs.Queue.Contents
import EventKernel.Queue.Operation

/-!
# Histories of queues

Two queues that hold the same entries answer every operation alike and hold the same entries behind
it, so that whole histories agree. A calendar is compared with a sorted list, which holds its
entries in the order in which it gives them back. No assumption is made about the entries: they may
lie before zero, be put in twice, or come before the entry taken out last.
-/

namespace EventKernel

open scoped List

variable {q : Queue} {c : Calendar} {es : List Entry}

namespace Queue

/-- The queue behind a list of operations. -/
def after (q : Queue) (ops : List QueueOp) : Queue := ops.foldl (fun q op => (q.apply op).2) q

/-- What is seen of a history: each answer, and the number of entries behind it. -/
def seen (q : Queue) (ops : List QueueOp) : List (QueueReply × Nat) :=
  (q.history ops).map fun p => (p.1, p.2.size)

/-- The list has the entries of the queue in ascending order. -/
structure Lists (q : Queue) (es : List Entry) : Prop where
  valid : q.Valid
  pairwise : es.Pairwise (· ≤ ·)
  perm : q.entries ~ es

lemma lists_empty (buckets : Nat) (kind : QueueKind) : (empty buckets kind).Lists [] :=
  ⟨valid_empty buckets kind, List.Pairwise.nil, by rw [entries_empty]⟩

lemma Lists.size_eq (h : q.Lists es) : q.size = es.length :=
  h.valid.size_eq.trans h.perm.length_eq

lemma Lists.entries_eq_nil_iff (h : q.Lists es) : q.entries = [] ↔ es = [] := by
  rw [← List.length_eq_zero_iff, h.perm.length_eq, List.length_eq_zero_iff]

lemma Lists.least? (h : q.Lists es) : q.least? = es.head? := by
  cases hl : q.least? with
  | none =>
    rw [h.entries_eq_nil_iff.mp (h.valid.least?_eq_none_iff.mp hl), List.head?_nil]
  | some e =>
    obtain ⟨hmem, hle⟩ := h.valid.least?_le hl
    cases es with
    | nil => simp [List.perm_nil.mp h.perm] at hmem
    | cons x xs =>
      have hx : e ≤ x := hle x (h.perm.mem_iff.mpr List.mem_cons_self)
      rcases List.mem_cons.mp (h.perm.mem_iff.mp hmem) with rfl | he
      · rfl
      · rw [List.head?_cons, le_antisymm hx ((List.pairwise_cons.mp h.pairwise).1 e he)]

lemma Lists.pop? (h : q.Lists es) :
    (q.pop? = none ∧ es = []) ∨ ∃ e r xs, q.pop? = some (e, r) ∧ es = e :: xs ∧ r.Lists xs := by
  cases hp : q.pop? with
  | none =>
    exact Or.inl ⟨rfl, h.entries_eq_nil_iff.mp (h.valid.pop?_eq_none_iff.mp hp)⟩
  | some p =>
    obtain ⟨e, r⟩ := p
    obtain ⟨hl, hperm, hv⟩ := h.valid.of_pop? hp
    rw [h.least?] at hl
    obtain ⟨xs, rfl⟩ := List.head?_eq_some_iff.mp hl
    refine Or.inr ⟨e, r, xs, rfl, rfl, hv, (List.pairwise_cons.mp h.pairwise).2, ?_⟩
    exact (hperm.symm.trans h.perm).cons_inv

end Queue

namespace Calendar

/-- The list has the entries of the calendar in ascending order. -/
structure Lists (c : Calendar) (es : List Entry) : Prop where
  valid : c.Valid
  pairwise : es.Pairwise (· ≤ ·)
  perm : c.entries ~ es

lemma lists_empty (n : Nat) : (empty n).Lists [] :=
  ⟨valid_empty n, List.Pairwise.nil, by rw [entries_empty]⟩

lemma Lists.queue (h : c.Lists es) : (Queue.calendar c).Lists es :=
  ⟨h.valid, h.pairwise, h.perm⟩

lemma Lists.size_eq (h : c.Lists es) : c.size = es.length :=
  h.queue.size_eq

lemma Lists.insert (h : c.Lists es) (e : Entry) : (c.insert e).Lists (SortedList.insert e es) where
  valid := h.valid.insert e
  pairwise := SortedList.pairwise_insert e h.pairwise
  perm := (h.valid.perm_insert e).trans ((h.perm.cons e).trans (SortedList.perm_insert e es).symm)

lemma Lists.least? (h : c.Lists es) : c.least? = es.head? :=
  h.queue.least?

lemma Lists.pop? (h : c.Lists es) :
    (c.pop? = none ∧ es = []) ∨ ∃ e d xs, c.pop? = some (e, d) ∧ es = e :: xs ∧ d.Lists xs := by
  rcases h.queue.pop? with ⟨hp, hes⟩ | ⟨e, r, xs, hp, hes, hr⟩
  · exact Or.inl ⟨Option.map_eq_none_iff.mp hp, hes⟩
  · obtain ⟨⟨x, d⟩, hd, hx⟩ := Option.map_eq_some_iff.mp hp
    cases hx
    exact Or.inr ⟨e, d, xs, hd, hes, hr.valid, hr.pairwise, hr.perm⟩

lemma Lists.remove (h : c.Lists es) (e : Entry) :
    (c.remove e = none ∧ SortedList.remove e es = none) ∨
      ∃ d xs, c.remove e = some d ∧ SortedList.remove e es = some xs ∧ d.Lists xs := by
  cases hr : c.remove e with
  | none =>
    rw [h.valid.remove_eq_none_iff, h.perm.mem_iff] at hr
    exact Or.inl ⟨rfl, SortedList.remove_eq_none_iff.mpr hr⟩
  | some d =>
    obtain ⟨hperm, hv⟩ := h.valid.of_remove hr
    have he : e ∈ es := (hperm.symm.trans h.perm).mem_iff.mp List.mem_cons_self
    cases hs : SortedList.remove e es with
    | none => exact absurd he (SortedList.remove_eq_none_iff.mp hs)
    | some xs =>
      refine Or.inr ⟨d, xs, rfl, rfl, hv, SortedList.pairwise_of_remove h.pairwise hs, ?_⟩
      exact (hperm.symm.trans (h.perm.trans (SortedList.perm_of_remove hs))).cons_inv

/-- One operation: the same answer, and the same entries behind it. -/
lemma Lists.apply (h : c.Lists es) (op : QueueOp) :
    ∃ a d xs, (Queue.calendar c).apply op = (a, .calendar d) ∧
      (Queue.list es).apply op = (a, .list xs) ∧ d.Lists xs := by
  cases op with
  | insert e => exact ⟨.nothing, _, _, rfl, rfl, h.insert e⟩
  | pop =>
    rcases h.pop? with ⟨hp, rfl⟩ | ⟨e, d, xs, hp, rfl, hd⟩
    · exact ⟨.entry none, c, [], by simp [Queue.apply, Queue.pop?, hp], rfl, h⟩
    · exact ⟨.entry (some e), d, xs, by simp [Queue.apply, Queue.pop?, hp], rfl, hd⟩
  | least =>
    refine ⟨.entry es.head?, c, es, ?_, rfl, h⟩
    simp only [Queue.apply, Queue.least?, h.least?]
  | remove e =>
    rcases h.remove e with ⟨hr, hs⟩ | ⟨d, xs, hr, hs, hd⟩
    · exact ⟨.flag false, c, es, by simp [Queue.apply, Queue.remove, hr],
        by simp [Queue.apply, Queue.remove, hs], h⟩
    · exact ⟨.flag true, d, xs, by simp [Queue.apply, Queue.remove, hr],
        by simp [Queue.apply, Queue.remove, hs], hd⟩
  | isEmpty =>
    refine ⟨.flag (decide (es.length = 0)), c, es, ?_, rfl, h⟩
    simp only [Queue.apply, Queue.isEmpty, Queue.size, h.size_eq]

/-- A whole history: the same answers and the same sizes, and the same entries at its end. -/
lemma Lists.seen (h : c.Lists es) (ops : List QueueOp) :
    (Queue.calendar c).seen ops = (Queue.list es).seen ops ∧
      ∃ d xs, (Queue.calendar c).after ops = .calendar d ∧
        (Queue.list es).after ops = .list xs ∧ d.Lists xs := by
  induction ops generalizing c es with
  | nil => exact ⟨rfl, c, es, rfl, rfl, h⟩
  | cons op ops ih =>
    obtain ⟨a, d, xs, hc, hes, hd⟩ := h.apply op
    obtain ⟨hseen, hafter⟩ := ih hd
    simp only [Queue.seen, Queue.history, Queue.after, List.foldl_cons, hc, hes] at hseen hafter ⊢
    refine ⟨?_, hafter⟩
    rw [List.map_cons, List.map_cons, hseen]
    simp only [Queue.size, hd.size_eq]

/-- Whatever is done to it, a calendar cannot be told from a sorted list: it gives back its least
entry, resizing keeps the entries, and removal takes one copy away. -/
theorem history_eq_sortedList (n : Nat) (ops : List QueueOp) :
    (Queue.empty n .calendar).seen ops = (Queue.empty n .list).seen ops ∧
      ∃ c es, (Queue.empty n .calendar).after ops = .calendar c ∧
        (Queue.empty n .list).after ops = .list es ∧ c.entries ~ es ∧ es.Pairwise (· ≤ ·) ∧
        (∀ e d, c.pop? = some (e, d) → (∀ x ∈ c.entries, e ≤ x) ∧ c.entries ~ e :: d.entries) ∧
        (c.pop? = none ↔ c.entries = []) ∧
        (∀ e, (c.insert e).entries ~ e :: c.entries) ∧
        (∀ m, (c.resize m).entries ~ c.entries) ∧
        (∀ e d, c.remove e = some d → c.entries ~ e :: d.entries) ∧
        (∀ e, c.remove e = none ↔ e ∉ c.entries) := by
  obtain ⟨hseen, c, es, hc, hes, h⟩ := (lists_empty n).seen ops
  refine ⟨hseen, c, es, hc, hes, h.perm, h.pairwise, fun e d hp => ?_, h.valid.pop?_eq_none_iff,
    h.valid.perm_insert, c.perm_resize, fun e d hr => (h.valid.of_remove hr).1,
    fun e => h.valid.remove_eq_none_iff⟩
  obtain ⟨hl, hperm, -⟩ := h.valid.of_pop? hp
  exact ⟨(h.valid.least?_le hl).2, hperm⟩

end Calendar

end EventKernel
