import Mathlib.Data.List.Infix
import Mathlib.Tactic.Lemma
import EventKernel.Lint.DeadCode

/-!
# The paths of tests

The words that mark a test are looked for in whole paths. None of them has a slash between its ends,
so that none reaches across the slash between a root and a path below it. A path of a crate is
therefore taken for a test if the root, with its slash, is, or if the path from the root on is.
-/

namespace EventKernel

variable {α : Type*} {sep : α} {m r s : List α}

/-! ### Words in texts -/

lemma holdsInfix_iff {word text : List Char} : holdsInfix word text = true ↔ word <:+: text := by
  induction text with
  | nil => rw [holdsInfix, List.isEmpty_iff, List.infix_nil]
  | cons c text ih =>
    rw [holdsInfix, Bool.or_eq_true, List.isPrefixOf_iff_prefix, ih, List.infix_cons_iff]

/-- A word that has a separator at its ends at most stands before it, with it, or behind it. -/
lemma infix_append_cons_iff (hm : sep ∉ m.tail.dropLast) :
    m <:+: r ++ sep :: s ↔ m <:+: r ++ [sep] ∨ m <:+: sep :: s := by
  constructor
  · rintro ⟨a, b, hword⟩
    rw [List.append_assoc] at hword
    rcases List.append_eq_append_iff.mp hword with ⟨a', hr, hrest⟩ | ⟨c, -, hrest⟩
    · rcases List.append_eq_append_iff.mp hrest with ⟨b', ha', -⟩ | ⟨c, rfl, hsep⟩
      · exact Or.inl ⟨a, b' ++ [sep], by simp [hr, ha']⟩
      · cases c with
        | nil => exact Or.inl ⟨a, [sep], by simp [hr]⟩
        | cons x c =>
          obtain ⟨rfl, rfl⟩ := List.cons.inj hsep
          -- the separator is in the word, so that the word starts or ends there
          rcases a' with - | ⟨y, a'⟩
          · exact Or.inr ⟨[], b, by simp⟩
          · rcases List.eq_nil_or_concat' c with rfl | ⟨c, z, rfl⟩
            · exact Or.inl ⟨a, [], by simp [hr]⟩
            · rw [List.cons_append, List.tail_cons, ← List.cons_append, ← List.append_assoc,
                List.dropLast_concat] at hm
              exact absurd (List.mem_append_right a' List.mem_cons_self) hm
    · exact Or.inr ⟨c, b, by rw [hrest, List.append_assoc]⟩
  · rintro (h | h)
    · exact h.trans ⟨[], s, by simp⟩
    · exact h.trans ⟨r, [], by simp⟩

namespace DeadCode

/-! ### Paths -/

variable {root path : String}

lemma normalPath_append (path path' : String) :
    normalPath (path ++ path') = normalPath path ++ normalPath path' := by
  simp [normalPath, lowerCase]

lemma normalPath_slash : normalPath "/" = ['/'] := by decide

lemma isTestPath_iff :
    isTestPath path = true ↔
      (∃ mark ∈ testMarks, mark.toList <:+: normalPath path) ∨
        "tests.rs".toList <:+ normalPath path := by
  simp only [isTestPath, Bool.or_eq_true, List.any_eq_true, holdsInfix_iff,
    List.isSuffixOf_iff_suffix]

lemma slash_notMem_of_mark : ∀ mark ∈ testMarks, '/' ∉ mark.toList.tail.dropLast := by decide

/-- The path of a crate does not go on as a mark that begins with a slash does. -/
lemma mark_infix_slash_iff {mark : String} (hmark : mark ∈ testMarks)
    (hcrate : "eventide-".toList <+: path.toList) :
    mark.toList <:+: '/' :: normalPath path ↔ mark.toList <:+: normalPath path := by
  obtain ⟨rest, hpath⟩ : ∃ rest, normalPath path = 'e' :: rest := by
    obtain ⟨rest, hrest⟩ := hcrate
    rw [normalPath, ← hrest]
    exact ⟨_, rfl⟩
  rw [List.infix_cons_iff, or_iff_right]
  rw [hpath]
  revert mark
  simp [testMarks]

lemma exists_mark_below (hcrate : "eventide-".toList <+: path.toList) :
    (∃ mark ∈ testMarks, mark.toList <:+: normalPath (root ++ "/" ++ path)) ↔
      (∃ mark ∈ testMarks, mark.toList <:+: normalPath (root ++ "/")) ∨
        ∃ mark ∈ testMarks, mark.toList <:+: normalPath path := by
  rw [← exists_or]
  refine exists_congr fun mark => ?_
  rw [← and_or_left]
  refine and_congr_right fun hmark => ?_
  rw [normalPath_append, normalPath_append, normalPath_slash, List.append_assoc,
    List.singleton_append, infix_append_cons_iff (slash_notMem_of_mark mark hmark),
    mark_infix_slash_iff hmark hcrate]

/-- The path of a crate is as long as the end of a path that marks a test. -/
lemma ending_below (hcrate : "eventide-".toList <+: path.toList) :
    "tests.rs".toList <:+ normalPath (root ++ "/" ++ path) ↔
      "tests.rs".toList <:+ normalPath path := by
  have hlength : "tests.rs".toList.length ≤ (normalPath path).length := by
    simp only [normalPath, lowerCase, List.length_map]
    exact le_trans (by decide) hcrate.length_le
  rw [normalPath_append]
  constructor
  · exact fun h => List.suffix_of_suffix_length_le h (List.suffix_append _ _) hlength
  · exact fun h => h.trans (List.suffix_append _ _)

lemma not_ending_slash : ¬"tests.rs".toList <:+ normalPath (root ++ "/") := by
  rw [normalPath_append, normalPath_slash]
  rintro ⟨text, h⟩
  simpa using congrArg List.getLast? h

/-- A path of a crate below a root is taken for a test if the root with its slash is, or if the path
from the root on is. -/
lemma isTestPath_below (hcrate : "eventide-".toList <+: path.toList) :
    isTestPath (root ++ "/" ++ path) = (isTestPath (root ++ "/") || isTestPath path) := by
  rw [Bool.eq_iff_iff, Bool.or_eq_true, isTestPath_iff, isTestPath_iff, isTestPath_iff,
    exists_mark_below hcrate, ending_below hcrate, or_iff_left not_ending_slash, or_assoc]

end DeadCode

end EventKernel
