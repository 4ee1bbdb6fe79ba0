import Mathlib.Data.List.Nodup
import Mathlib.Tactic.Lemma
import EventKernel.Simulator.Teardown

/-!
# Looking teardown events up

What sequence numbers name behind each operation on teardown events, told by what they named before.
-/

namespace EventKernel.TeardownList

variable {α : Type} {l : TeardownList α} {n k : Nat}

/-- The sequence numbers of the events, in the order of registration. -/
def sequences (l : TeardownList α) : List Nat := l.map (·.sequence)

/-- The event with a sequence number. -/
def get? (n : Nat) (l : TeardownList α) : Option (TeardownEvent α) :=
  l.find? fun ev => ev.sequence = n

@[simp] lemma get?_nil (n : Nat) : get? n ([] : TeardownList α) = none := rfl

lemma get?_cons (n : Nat) (ev : TeardownEvent α) (l : TeardownList α) :
    get? n (ev :: l) = if ev.sequence = n then some ev else l.get? n := by
  rw [get?, List.find?_cons]
  by_cases h : ev.sequence = n
  · simp [h]
  · simp [h, get?]

lemma get?_eq_none_iff : l.get? n = none ↔ n ∉ l.sequences := by
  simp [get?, sequences]

lemma mem_of_get? {ev : TeardownEvent α} (h : l.get? n = some ev) : ev ∈ l ∧ ev.sequence = n := by
  refine ⟨List.mem_of_find?_eq_some h, ?_⟩
  simpa using List.find?_some h

/-! ### Registration -/

lemma sequences_push (n : Nat) (task : α) (l : TeardownList α) :
    (l.push n task).sequences = l.sequences ++ [n] := by
  simp [sequences, push]

lemma get?_push (hn : n ∉ l.sequences) (task : α) :
    (l.push n task).get? k = if k = n then some ⟨n, task, false⟩ else l.get? k := by
  rw [get?, push, List.find?_append, ← get?]
  by_cases hk : k = n
  · subst hk
    rw [get?_eq_none_iff.mpr hn]
    simp
  · simp [hk, Ne.symm hk]

/-! ### Cancelling -/

lemma cancel_eq (n : Nat) (l : TeardownList α) :
    (l.cancel n).1 = (l.get? n).any (!·.cancelled) ∧
      ((l.get? n).any (!·.cancelled) = false → l.cancel n = (false, l)) := by
  induction l with
  | nil => exact ⟨rfl, fun _ => rfl⟩
  | cons ev l ih =>
    rw [cancel, get?_cons]
    split
    · refine ⟨rfl, ?_⟩
      intro hc
      rw [Option.any_some, Bool.not_eq_false'] at hc
      obtain ⟨sequence, task, cancelled⟩ := ev
      obtain rfl : cancelled = true := hc
      rfl
    · refine ⟨ih.1, ?_⟩
      intro hc
      simp only [ih.2 hc]

lemma get?_cancel (n k : Nat) (l : TeardownList α) :
    (l.cancel n).2.get? k =
      if k = n then (l.get? n).map fun ev => { ev with cancelled := true } else l.get? k := by
  induction l with
  | nil => simp [cancel]
  | cons ev l ih =>
    rw [cancel]
    split
    · next h =>
      subst h
      simp only [get?_cons, eq_comm (a := k)]
      split <;> simp_all
    · next h =>
      simp only [get?_cons, ih, h, if_false]
      by_cases hk : k = n
      · subst hk
        simp [h]
      · simp [hk]

@[simp] lemma sequences_cancel (n : Nat) (l : TeardownList α) :
    (l.cancel n).2.sequences = l.sequences := by
  induction l with
  | nil => rfl
  | cons ev l ih =>
    rw [cancel]
    split
    · rfl
    · exact congrArg (ev.sequence :: ·) ih

lemma map_task_cancel (n : Nat) (l : TeardownList α) :
    (l.cancel n).2.map (·.task) = l.map (·.task) := by
  induction l with
  | nil => rfl
  | cons ev l ih =>
    rw [cancel]
    split
    · rfl
    · exact congrArg (ev.task :: ·) ih

/-! ### Removal -/

lemma remove_sublist (n : Nat) (l : TeardownList α) : (l.remove n).2.Sublist l := by
  induction l with
  | nil => exact .slnil
  | cons ev l ih =>
    rw [remove]
    split
    · exact List.sublist_cons_self ev l
    · exact ih.cons_cons ev

lemma remove_eq (n : Nat) (l : TeardownList α) :
    (l.remove n).1 = (l.get? n).isSome ∧ (l.get? n = none → l.remove n = (false, l)) ∧
      (l.remove n).2.sequences = l.sequences.erase n := by
  induction l with
  | nil => exact ⟨rfl, fun _ => rfl, rfl⟩
  | cons ev l ih =>
    rw [remove, get?_cons]
    split
    · next h =>
      refine ⟨rfl, by simp, ?_⟩
      simp only [sequences, List.map_cons, h, List.erase_cons_head]
    · next h =>
      refine ⟨ih.1, ?_, ?_⟩
      · intro hnone
        simp only [ih.2.1 hnone]
      · have hne : (ev.sequence == n) = false := beq_eq_false_iff_ne.mpr h
        rw [sequences, List.map_cons, ← sequences, ih.2.2, sequences, sequences, List.map_cons,
          List.erase_cons_tail (by simp [hne])]

lemma get?_remove (hl : l.sequences.Nodup) (n k : Nat) :
    (l.remove n).2.get? k = if k = n then none else l.get? k := by
  induction l with
  | nil => simp [remove]
  | cons ev l ih =>
    obtain ⟨hev, hl⟩ := List.nodup_cons.mp hl
    rw [remove]
    split
    · next h =>
      subst h
      rw [get?_cons]
      by_cases hk : k = ev.sequence
      · subst hk
        rw [if_pos rfl]
        exact get?_eq_none_iff.mpr hev
      · rw [if_neg hk, if_neg (Ne.symm hk)]
    · next h =>
      simp only [get?_cons, ih hl]
      by_cases hk : k = n
      · subst hk
        simp [h]
      · simp [hk]

/-! ### Questions -/

lemma isPending_eq (hl : l.sequences.Nodup) (n : Nat) :
    l.isPending n = (l.get? n).any (!·.cancelled) := by
  induction l with
  | nil => rfl
  | cons ev l ih =>
    obtain ⟨hev, hl⟩ := List.nodup_cons.mp hl
    rw [isPending, List.any_cons, ← isPending, ih hl, get?_cons]
    by_cases h : ev.sequence = n
    · subst h
      rw [get?_eq_none_iff.mpr hev]
      simp
    · simp [h]

/-! ### Taking events out -/

/-- The first event that is not cancelled is taken out, with those in front of it. -/
lemma popLive_eq (l : TeardownList α) :
    ∃ rest, l = l.takeWhile (·.cancelled) ++ l.popLive.1.toList ++ rest ∧
      l.popLive.2 = rest ∧ ∀ ev, l.popLive.1 = some ev → ev.cancelled = false := by
  induction l with
  | nil => exact ⟨[], rfl, rfl, fun ev hev => by cases hev⟩
  | cons x l ih =>
    cases hx : x.cancelled with
    | false =>
      simp only [popLive, hx, Bool.false_eq_true, if_false, List.takeWhile_cons, List.nil_append]
      refine ⟨l, rfl, rfl, ?_⟩
      intro ev hev
      rwa [← Option.some.inj hev]
    | true =>
      obtain ⟨rest, hl, hrest, hlive⟩ := ih
      simp only [popLive, hx, if_true, List.takeWhile_cons]
      refine ⟨rest, ?_, hrest, hlive⟩
      rw [List.cons_append, List.cons_append, ← hl]

lemma get?_of_append {skipped : TeardownList α} (h : (skipped ++ l).sequences.Nodup) (n : Nat) :
    l.get? n = if n ∈ skipped.sequences then none else get? n (skipped ++ l) := by
  rw [sequences, List.map_append] at h
  split
  · next hn =>
    rw [get?_eq_none_iff]
    intro hl
    exact (List.nodup_append.mp h).2.2 n hn n hl rfl
  · next hn =>
    have hnone := get?_eq_none_iff.mpr hn
    rw [get?] at hnone
    simp only [get?, List.find?_append, hnone, Option.none_or]

end EventKernel.TeardownList
