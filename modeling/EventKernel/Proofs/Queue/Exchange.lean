import EventKernel.Proofs.Queue.History

/-!
# Queues whose entries are moved

The entries of a queue can be moved to a fresh queue of any kind between two operations. A queue of
any kind that is never asked to take an entry it already holds answers like a sorted list that is
never moved, whatever the moves in between. The condition is needed: an ordered set keeps one copy
of an entry that is put in twice, and a heap takes away all copies at once.
-/

namespace EventKernel

open scoped List

/-- An operation on a queue, or a move of its entries to a fresh queue. -/
inductive QueueStep where
  | op (o : QueueOp)
  | exchange (buckets : Nat) (kind : QueueKind)

/-- The operations among steps, without the moves between them. -/
def QueueStep.ops : List QueueStep → List QueueOp
  | [] => []
  | .op o :: steps => o :: ops steps
  | .exchange _ _ :: steps => ops steps

namespace Queue

variable {q r : Queue} {es : List Entry} {e : Entry}

/-- The entries of a queue in the order in which they are taken out. -/
def unloaded (q : Queue) : List Entry :=
  match _h : q.pop? with
  | none => []
  | some (e, q) => e :: q.unloaded
termination_by q.size
decreasing_by exact size_of_pop? _h

/-- The queue behind a step. -/
def through (q : Queue) : QueueStep → Queue
  | .op o => (q.apply o).2
  | .exchange buckets kind => q.moveInto (empty buckets kind)

/-- The queue behind a list of steps. -/
def run (q : Queue) (steps : List QueueStep) : Queue := steps.foldl through q

/-- What is seen of the operations among steps: each answer, and the number of entries behind
it. -/
def observed (q : Queue) : List QueueStep → List (QueueReply × Nat)
  | [] => []
  | .op o :: steps => ((q.apply o).1, (q.apply o).2.size) :: observed (q.apply o).2 steps
  | .exchange buckets kind :: steps => observed (q.moveInto (empty buckets kind)) steps

/-- An operation does not put in an entry that the queue holds. -/
def Admits (q : Queue) : QueueOp → Prop
  | .insert e => e ∉ q.entries
  | .pop | .least | .remove _ | .isEmpty => True

instance (q : Queue) : DecidablePred q.Admits
  | .insert e => inferInstanceAs (Decidable (e ∉ q.entries))
  | .pop | .least | .remove _ | .isEmpty => .isTrue trivial

/-- No operation of a history puts in an entry that the queue holds at that point. -/
def PutsInNew (q : Queue) : List QueueOp → Prop
  | [] => True
  | o :: ops => q.Admits o ∧ PutsInNew (q.apply o).2 ops

instance decidablePutsInNew (q : Queue) : DecidablePred q.PutsInNew
  | [] => .isTrue trivial
  | o :: ops =>
    have : Decidable ((q.apply o).2.PutsInNew ops) := decidablePutsInNew (q.apply o).2 ops
    inferInstanceAs (Decidable (q.Admits o ∧ (q.apply o).2.PutsInNew ops))

/-! ### Lists of steps -/

lemma putsInNew_append {os ops : List QueueOp} :
    q.PutsInNew (os ++ ops) ↔ q.PutsInNew os ∧ (q.after os).PutsInNew ops := by
  induction os generalizing q with
  | nil => exact (and_iff_right trivial).symm
  | cons o os ih =>
    rw [List.cons_append, PutsInNew, PutsInNew, ih, and_assoc]
    rfl

lemma run_append (steps more : List QueueStep) : q.run (steps ++ more) = (q.run steps).run more :=
  List.foldl_append

lemma ops_append (steps more : List QueueStep) :
    QueueStep.ops (steps ++ more) = QueueStep.ops steps ++ QueueStep.ops more := by
  induction steps with
  | nil => rfl
  | cons step steps ih =>
    cases step with
    | op o => exact congrArg (o :: ·) ih
    | exchange buckets kind => exact ih

lemma ops_map_op (ops : List QueueOp) : QueueStep.ops (ops.map .op) = ops := by
  induction ops with
  | nil => rfl
  | cons o ops ih => exact congrArg (o :: ·) ih

/-- Without moves the operations are observed as before. -/
lemma observed_map_op (ops : List QueueOp) : q.observed (ops.map .op) = q.seen ops := by
  induction ops generalizing q with
  | nil => rfl
  | cons o ops ih => exact congrArg (((q.apply o).1, (q.apply o).2.size) :: ·) ih

/-! ### Any kind of queue and the sorted list -/

lemma Lists.insert (h : q.Lists es) (he : e ∉ es) :
    (q.insert e).Lists (SortedList.insert e es) where
  valid := h.valid.insert e
  pairwise := SortedList.pairwise_insert e h.pairwise
  perm :=
    (h.valid.perm_insert (fun hm => he (h.perm.mem_iff.mp hm))).trans
      ((h.perm.cons e).trans (SortedList.perm_insert e es).symm)

lemma Lists.remove (h : q.Lists es) (hn : es.Nodup) (e : Entry) :
    (q.remove e = none ∧ SortedList.remove e es = none) ∨
      ∃ r xs, q.remove e = some r ∧ SortedList.remove e es = some xs ∧ r.Lists xs ∧ xs.Nodup := by
  cases hr : q.remove e with
  | none =>
    rw [h.valid.remove_eq_none_iff, h.perm.mem_iff] at hr
    exact Or.inl ⟨rfl, SortedList.remove_eq_none_iff.mpr hr⟩
  | some r =>
    obtain ⟨hperm, hv⟩ := h.valid.of_remove (h.perm.nodup_iff.mpr hn) hr
    have he : e ∈ es := (hperm.symm.trans h.perm).mem_iff.mp List.mem_cons_self
    cases hs : SortedList.remove e es with
    | none => exact absurd he (SortedList.remove_eq_none_iff.mp hs)
    | some xs =>
      have hxs := SortedList.perm_of_remove hs
      refine Or.inr ⟨r, xs, rfl, rfl, ⟨hv, SortedList.pairwise_of_remove h.pairwise hs, ?_⟩, ?_⟩
      · exact (hperm.symm.trans (h.perm.trans hxs)).cons_inv
      · exact (hxs.nodup_iff.mp hn).of_cons

/-- One operation: the same answer, and the same entries behind it. -/
lemma Lists.apply (h : q.Lists es) (hn : es.Nodup) {o : QueueOp} (ho : (list es).Admits o) :
    ∃ a r xs, q.apply o = (a, r) ∧ (list es).apply o = (a, list xs) ∧ r.Lists xs ∧ xs.Nodup := by
  cases o with
  | insert e =>
    have he : e ∉ es := ho
    refine ⟨.nothing, _, _, rfl, rfl, h.insert he, ?_⟩
    exact (SortedList.perm_insert e es).nodup_iff.mpr (List.nodup_cons.mpr ⟨he, hn⟩)
  | pop =>
    rcases h.pop? with ⟨hp, rfl⟩ | ⟨e, r, xs, hp, rfl, hr⟩
    · exact ⟨.entry none, q, [], by simp only [Queue.apply, hp], rfl, h, hn⟩
    · exact ⟨.entry (some e), r, xs, by simp only [Queue.apply, hp], rfl, hr, hn.of_cons⟩
  | least =>
    refine ⟨.entry es.head?, q, es, ?_, rfl, h, hn⟩
    rw [Queue.apply, h.least?]
  | remove e =>
    rcases h.remove hn e with ⟨hr, hs⟩ | ⟨r, xs, hr, hs, hl, hx⟩
    · exact ⟨.flag false, q, es, by simp only [Queue.apply, hr],
        by simp [Queue.apply, Queue.remove, hs], h, hn⟩
    · exact ⟨.flag true, r, xs, by simp only [Queue.apply, hr],
        by simp [Queue.apply, Queue.remove, hs], hl, hx⟩
  | isEmpty =>
    refine ⟨.flag (decide (es.length = 0)), q, es, ?_, rfl, h, hn⟩
    have hflag : q.isEmpty = decide (es.length = 0) := by
      rw [Bool.eq_iff_iff, h.valid.isEmpty_iff, h.entries_eq_nil_iff, decide_eq_true_iff,
        List.length_eq_zero_iff]
    rw [Queue.apply, hflag]

/-- A move to a fresh queue loses, doubles and reorders nothing. -/
lemma Lists.exchange (h : q.Lists es) (hn : es.Nodup) (buckets : Nat) (kind : QueueKind) :
    (q.moveInto (empty buckets kind)).Lists es ∧
      (q.moveInto (empty buckets kind)).kind = kind := by
  have hnil : q.entries ++ (empty buckets kind).entries = q.entries := by
    rw [entries_empty, List.append_nil]
  obtain ⟨hv, hp, hk⟩ := h.valid.moveInto (valid_empty buckets kind)
    (by rw [hnil]; exact h.perm.nodup_iff.mpr hn)
  rw [hnil] at hp
  exact ⟨⟨hv, h.pairwise, hp.trans h.perm⟩, hk.trans (kind_empty buckets kind)⟩

lemma unloaded_of_pop?_eq_none (h : q.pop? = none) : q.unloaded = [] := by
  rw [unloaded]
  split
  · rfl
  · rename_i hs
    rw [h] at hs
    cases hs

lemma unloaded_of_pop? (h : q.pop? = some (e, r)) : q.unloaded = e :: r.unloaded := by
  rw [unloaded]
  split
  · rename_i hs
    rw [h] at hs
    cases hs
  · rename_i hs
    rw [h] at hs
    cases hs
    rfl

lemma Lists.unloaded_eq (h : q.Lists es) : q.unloaded = es := by
  induction es generalizing q with
  | nil => exact unloaded_of_pop?_eq_none (h.valid.pop?_eq_none_iff.mpr (List.perm_nil.mp h.perm))
  | cons x xs ih =>
    rcases h.pop? with ⟨-, hnil⟩ | ⟨e, r, ys, hp, hes, hr⟩
    · cases hnil
    · cases hes
      rw [unloaded_of_pop? hp, ih hr]

/-- A whole run: the same answers and the same sizes, and the same entries at its end. -/
lemma Lists.run (h : q.Lists es) (hn : es.Nodup) {steps : List QueueStep}
    (hnew : (list es).PutsInNew (QueueStep.ops steps)) :
    q.observed steps = (list es).seen (QueueStep.ops steps) ∧
      ∃ xs, (list es).after (QueueStep.ops steps) = list xs ∧ (q.run steps).Lists xs ∧
        xs.Nodup := by
  induction steps generalizing q es with
  | nil => exact ⟨rfl, es, rfl, h, hn⟩
  | cons step steps ih =>
    cases step with
    | op o =>
      obtain ⟨a, r, xs, hq, hes, hr, hx⟩ := h.apply hn hnew.1
      have hrest := hnew.2
      rw [hes] at hrest
      obtain ⟨hseen, hafter⟩ := ih hr hx hrest
      simp only [QueueStep.ops, observed, seen, history, after, Queue.run, through, List.foldl_cons,
        List.map_cons, hq, hes] at hseen hafter ⊢
      refine ⟨?_, hafter⟩
      rw [hseen, hr.size_eq]
      rfl
    | exchange buckets kind => exact ih (h.exchange hn buckets kind).1 hn hnew

/-- An entry that is put in twice tells the kinds apart. -/
example :
    let e : Entry := ⟨⟨.zero, 0⟩, 0⟩
    let ops : List QueueOp := [.insert e, .insert e, .remove e]
    (list []).seen ops = [(.nothing, 1), (.nothing, 2), (.flag true, 1)] ∧
      (empty 2 .heap).seen ops = [(.nothing, 1), (.nothing, 2), (.flag true, 0)] ∧
      (empty 2 .map).seen ops = [(.nothing, 1), (.nothing, 1), (.flag true, 0)] := by
  decide +kernel

end Queue

end EventKernel
