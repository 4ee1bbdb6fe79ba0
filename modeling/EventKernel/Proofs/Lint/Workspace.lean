import Mathlib
import EventKernel.Proofs.Lint.Search
import EventKernel.Proofs.Lint.TestPath

/-!
# Checks of a workspace at its root

A check examines the source files of crates whose paths are no test paths, and names each offending
line once. Where the workspace stands does not matter, nor does the order in which directories list
what they hold, unless the path of the root is marked as one of tests: the same files are examined,
and the same lines of them are named.
-/

namespace EventKernel

open scoped List
open SourceFile (Searched isHidden ofCrates under)

/-- The violation with a root in front of its path. -/
def Violation.under (root : String) (v : Violation) : Violation :=
  { v with path := root ++ "/" ++ v.path }

namespace DeadCode

variable {es es' : Entries} {files : List SourceFile} {root root' path : String} {f : SourceFile}
  {v : Violation} {ls : List (List Char)} {n : Nat}

/-! ### The lines of a file -/

/-- The violations of a file; none if it is not text. -/
def violations (f : SourceFile) : List Violation := (scanFile? f).getD []

/-- The violation is the one of an offending line of the file. -/
def Violates (f : SourceFile) (v : Violation) : Prop :=
  ∃ text i line, decodeStrict? f.bytes = some text ∧ (lines text)[i]? = some line ∧
    offends line = true ∧ v = ⟨f.path, i + 1, String.ofList (trim line)⟩

lemma scanFrom_under (root path : String) (n : Nat) (ls : List (List Char)) :
    scanFrom (root ++ "/" ++ path) n ls = (scanFrom path n ls).map (Violation.under root) := by
  induction ls generalizing n with
  | nil => rfl
  | cons l ls ih =>
    rw [scanFrom, scanFrom, ih]
    split_ifs <;> rfl

lemma mem_scanFrom :
    v ∈ scanFrom path n ls ↔
      ∃ i line, ls[i]? = some line ∧ offends line = true ∧
        v = ⟨path, n + i, String.ofList (trim line)⟩ := by
  induction ls generalizing n with
  | nil => simp [scanFrom]
  | cons l ls ih =>
    have htail : v ∈ scanFrom path (n + 1) ls ↔
        ∃ i line, (l :: ls)[i + 1]? = some line ∧ offends line = true ∧
          v = ⟨path, n + (i + 1), String.ofList (trim line)⟩ := by
      simp only [ih, List.getElem?_cons_succ, Nat.add_right_comm, Nat.add_assoc]
    rw [← Nat.or_exists_add_one, ← htail, scanFrom]
    split_ifs with hl
    · simp [hl]
    · simp [hl]

/-- The numbers of offending lines ascend. -/
lemma pairwise_scanFrom (path : String) (n : Nat) (ls : List (List Char)) :
    (scanFrom path n ls).Pairwise fun v w => v.line < w.line := by
  induction ls generalizing n with
  | nil => exact List.Pairwise.nil
  | cons l ls ih =>
    rw [scanFrom]
    split_ifs
    · refine List.Pairwise.cons (fun v hv => ?_) (ih (n + 1))
      obtain ⟨i, line, -, -, rfl⟩ := mem_scanFrom.mp hv
      exact Nat.lt_add_right i (Nat.lt_succ_self n)
    · exact ih (n + 1)

lemma scanFile?_under (root : String) (f : SourceFile) :
    scanFile? (f.under root) = (scanFile? f).map (List.map (Violation.under root)) := by
  rw [scanFile?, scanFile?, Option.map_map]
  exact congrArg (fun g => (decodeStrict? f.bytes).map g)
    (funext fun text => scanFrom_under root f.path 1 (lines text))

lemma violations_under (root : String) (f : SourceFile) :
    violations (f.under root) = (violations f).map (Violation.under root) := by
  rw [violations, violations, scanFile?_under]
  cases scanFile? f <;> rfl

lemma mem_violations : v ∈ violations f ↔ Violates f v := by
  rw [violations, scanFile?, Violates]
  cases decodeStrict? f.bytes with
  | none => simp
  | some text =>
    rw [Option.map_some, Option.getD_some, scan, mem_scanFrom]
    simp only [Nat.add_comm 1, Option.some.injEq, exists_and_left, exists_eq_left']

lemma path_of_mem_violations (h : v ∈ violations f) : v.path = f.path := by
  obtain ⟨_, _, _, -, -, -, rfl⟩ := mem_violations.mp h
  rfl

/-- Each offending line is named once. -/
lemma nodup_positions (h : (files.map SourceFile.path).Nodup) :
    ((files.flatMap violations).map fun v => (v.path, v.line)).Nodup := by
  rw [List.map_flatMap, List.nodup_flatMap]
  constructor
  · intro f _
    rw [violations, scanFile?]
    cases decodeStrict? f.bytes with
    | none => exact List.nodup_nil
    | some text =>
      refine List.pairwise_map.mpr ((pairwise_scanFrom f.path 1 (lines text)).imp ?_)
      intro v w hlt heq
      exact hlt.ne (Prod.mk.inj heq).2
  · refine (List.pairwise_map.mp h).imp ?_
    intro f f' hne p hp hp'
    obtain ⟨v, hv, rfl⟩ := List.mem_map.mp hp
    obtain ⟨v', hv', heq⟩ := List.mem_map.mp hp'
    rw [← path_of_mem_violations hv, ← path_of_mem_violations hv'] at hne
    exact hne (Prod.mk.inj heq).1.symm

/-! ### The files that are examined -/

/-- The file belongs to a crate, no name on the way to it is hidden, its own included, and its path
from the root of the workspace on is no test path. -/
def Examined (es : Entries) (f : SourceFile) : Prop :=
  ∃ crate ds names, (crate, .directory ds) ∈ es ∧ crate.startsWith "eventide-" = true ∧
    Holds ds names f.bytes ∧ Searched names ∧ f.path = "/".intercalate (crate :: names) ∧
    isTestPath f.path = false

/-- The files that are examined, with their paths from the root of the workspace on. -/
def examined (es : Entries) : List SourceFile := (ofCrates es).filter fun f => !isTestPath f.path

lemma mem_examined
    (hdeep : ∀ crate ds, (crate, .directory ds) ∈ es → crate.startsWith "eventide-" = true →
      nestsWithin 10 ds = true) : f ∈ examined es ↔ Examined es f := by
  rw [examined, List.mem_filter, SourceFile.mem_ofCrates, Bool.not_eq_true']
  constructor
  · rintro ⟨⟨crate, ds, names, hmem, hcrate, hnames, -, hsearched, hpath⟩, htest⟩
    exact ⟨crate, ds, names, hmem, hcrate, hnames, hsearched, hpath, htest⟩
  · rintro ⟨crate, ds, names, hmem, hcrate, hnames, hsearched, hpath, htest⟩
    have hlength : names.length ≤ SourceFile.searchedLevels :=
      length_le_of_nestsWithin (hdeep crate ds hmem hcrate) hnames
    exact ⟨⟨crate, ds, names, hmem, hcrate, hnames, hlength, hsearched, hpath⟩, htest⟩

lemma nodup_examined (h : WellNamed es) : ((examined es).map SourceFile.path).Nodup :=
  (SourceFile.nodup_ofCrates h).sublist (List.filter_sublist.map _)

lemma crate_of_mem (h : f ∈ ofCrates es) : "eventide-".toList <+: f.path.toList := by
  obtain ⟨crate, ds, names, -, hcrate, hnames, -, -, hpath⟩ := SourceFile.mem_ofCrates.mp h
  rw [hpath, String.intercalate_cons_of_ne_nil hnames.ne_nil, String.append_assoc,
    String.toList_append]
  exact (String.startsWith_string_iff.mp hcrate).trans (List.prefix_append _ _)

lemma perm_examined (h : Relisted es es') : examined es' ~ examined es :=
  (SourceFile.perm_ofCrates h).symm.filter _

/-- At a root that is not marked itself, the paths from the root on decide which files are checked. -/
lemma perm_checkedFiles (hroot : isTestPath (root ++ "/") = false) (es : Entries) :
    checkedFiles root es ~ (examined es).map (under root) := by
  have hfilter : ∀ f ∈ ofCrates es,
      ((fun f => !isTestPath f.path) ∘ under root) f = !isTestPath f.path := by
    intro f hf
    rw [Function.comp_apply, under, isTestPath_below (crate_of_mem hf), hroot, Bool.false_or]
  rw [checkedFiles, SourceFile.ofWorkspace_eq, List.filter_map, List.filter_congr hfilter]
  exact List.mergeSort_perm _ _

/-! ### What a check comes to -/

/-- What a check at a root comes to if these files are to be examined, and if these are their
violations, with all paths from the root on: it fails on a file that is not text, or for want of
files, or else it counts each file and reports the violations with the root in front. -/
inductive Verdict (root : String) (files : List SourceFile) (found : List Violation) :
    Except LintError LintReport → Prop
  | unreadable {f : SourceFile} (hmem : f ∈ files) (h : decodeStrict? f.bytes = none) :
      Verdict root files found (.error .unreadable)
  | noSources (h : files = []) : Verdict root files found (.error .noSources)
  | report {r : LintReport} (hne : files ≠ [])
      (htext : ∀ f ∈ files, (decodeStrict? f.bytes).isSome = true)
      (hcount : r.filesChecked = files.length)
      (hfound : r.violations ~ found.map (Violation.under root)) :
      Verdict root files found (.ok r)

/-- Checks at two roots fail alike. -/
lemma Verdict.error_of_error {x y : Except LintError LintReport} {found : List Violation}
    {e : LintError} (hx : Verdict root files found x) (hy : Verdict root' files found y)
    (h : x = .error e) : y = .error e := by
  cases hx with
  | unreadable hmem hbytes =>
    cases hy with
    | unreadable => exact h
    | noSources hnil => exact absurd (hnil ▸ hmem) List.not_mem_nil
    | report _ htext => exact absurd (htext _ hmem) (by simp [hbytes])
  | noSources hnil =>
    cases hy with
    | unreadable hmem => exact absurd (hnil ▸ hmem) List.not_mem_nil
    | noSources => exact h
    | report hne => exact absurd hnil hne
  | report => cases h

lemma mapM_scanFile?_cases (files : List SourceFile) :
    (∃ f ∈ files, decodeStrict? f.bytes = none ∧ files.mapM scanFile? = none) ∨
      (∀ f ∈ files, (decodeStrict? f.bytes).isSome = true) ∧
        files.mapM scanFile? = some (files.map violations) := by
  induction files with
  | nil => exact Or.inr ⟨fun _ h => absurd h List.not_mem_nil, rfl⟩
  | cons f files ih =>
    cases hf : decodeStrict? f.bytes with
    | none =>
      refine Or.inl ⟨f, List.mem_cons_self, hf, ?_⟩
      simp [scanFile?, hf]
    | some text =>
      have hscan : scanFile? f = some (violations f) := by simp [violations, scanFile?, hf]
      rcases ih with ⟨g, hg, hbytes, hnone⟩ | ⟨htext, hsome⟩
      · refine Or.inl ⟨g, List.mem_cons_of_mem f hg, hbytes, ?_⟩
        simp [hscan, hnone]
      · refine Or.inr ⟨List.forall_mem_cons.mpr ⟨by simp [hf], htext⟩, ?_⟩
        simp [hscan, hsome]

lemma verdict_check (h : checkedFiles root es ~ files.map (under root)) :
    Verdict root files (files.flatMap violations) (check root es) := by
  have hmem : ∀ f ∈ checkedFiles root es, ∃ g ∈ files, g.under root = f :=
    fun f hf => List.mem_map.mp (h.mem_iff.mp hf)
  rw [check]
  rcases mapM_scanFile?_cases (checkedFiles root es) with ⟨f, hf, hbytes, hnone⟩ | ⟨htext, hsome⟩
  · obtain ⟨g, hg, rfl⟩ := hmem f hf
    simp only [hnone]
    exact .unreadable hg hbytes
  · simp only [hsome, List.isEmpty_iff]
    split_ifs with hempty
    · rw [hempty] at h
      exact .noSources (List.map_eq_nil_iff.mp (List.nil_perm.mp h))
    · refine .report (fun hnil => hempty ?_) (fun f hf => ?_) ?_ ?_
      · rw [hnil] at h
        exact List.perm_nil.mp h
      · exact htext (f.under root) (h.mem_iff.mpr (List.mem_map_of_mem hf))
      · rw [h.length_eq, List.length_map]
      · rw [← List.flatMap_def, List.map_flatMap]
        refine (h.flatMap_right violations).trans ?_
        rw [List.flatMap_map]
        simp only [violations_under]
        exact List.Perm.refl _

/-- Wherever a workspace stands, and in whatever order its directories list what they hold, a check
examines the same files, each once: those of crates that are not hidden, stand in no hidden
directory, and have no test path from the root on. If there are some and all of them are text, it
names the same lines of them, each offending line once; else it fails alike at either root. A root
whose own path is marked as one of tests is left out. -/
theorem check_same_at_every_root (hroot : isTestPath (root ++ "/") = false)
    (hroot' : isTestPath (root' ++ "/") = false) (hlisted : Relisted es es')
    (hnamed : WellNamed es)
    (hdeep : ∀ crate ds, (crate, .directory ds) ∈ es → crate.startsWith "eventide-" = true →
      nestsWithin 10 ds = true) :
    ∃ files found,
      (files.map SourceFile.path).Nodup ∧ (∀ f, f ∈ files ↔ Examined es f) ∧
      (found.map fun v => (v.path, v.line)).Nodup ∧ (∀ v, v ∈ found ↔ ∃ f ∈ files, Violates f v) ∧
      checkedFiles root es ~ files.map (under root) ∧
      checkedFiles root' es' ~ files.map (under root') ∧
      Verdict root files found (check root es) ∧ Verdict root' files found (check root' es') ∧
      ∀ e, check root es = .error e ↔ check root' es' = .error e := by
  have hfiles := perm_checkedFiles hroot es
  have hfiles' := (perm_checkedFiles hroot' es').trans ((perm_examined hlisted).map _)
  have hverdict := verdict_check hfiles
  have hverdict' := verdict_check hfiles'
  refine ⟨examined es, (examined es).flatMap violations, nodup_examined hnamed,
    fun f => mem_examined hdeep, nodup_positions (nodup_examined hnamed), fun v => ?_, hfiles,
    hfiles', hverdict, hverdict', fun e => ?_⟩
  · simp only [List.mem_flatMap, mem_violations]
  · exact ⟨hverdict.error_of_error hverdict', hverdict'.error_of_error hverdict⟩

/-- The bytes of a line that allows dead code. -/
def allowance : List UInt8 := "#[allow(dead_code)]".toList.map fun c => c.toNat.toUInt8

/-- Two roots and two listings of a workspace that has a hidden file, a test, and a file of no crate,
too. -/
theorem check_same_at_every_root_moved :
    let src : Entries := [("lib.rs", .file allowance), (".lib.rs", .file [])]
    let tests : Entries := [("lib.rs", .file allowance)]
    let es : Entries :=
      [("eventide-a", .directory [("src", .directory src), ("tests", .directory tests)]),
        ("readme.md", .file [])]
    let es' : Entries := [("readme.md", .file []),
      ("eventide-a", .directory [("tests", .directory tests), ("src", .directory src.reverse)])]
    isTestPath ("/ws" ++ "/") = false ∧ isTestPath ("/home/kernel" ++ "/") = false ∧
      Relisted es es' ∧ WellNamed es ∧
      (∃ files found, (∀ f, f ∈ files ↔ Examined es f) ∧
        Verdict "/ws" files found (check "/ws" es) ∧
        Verdict "/home/kernel" files found (check "/home/kernel" es')) ∧
      check "/home/kernel" es' =
        .ok ⟨1, [⟨"/home/kernel/eventide-a/src/lib.rs", 1, "#[allow(dead_code)]"⟩]⟩ := by
  intro src tests es es'
  have hroot : isTestPath ("/ws" ++ "/") = false := by decide
  have hroot' : isTestPath ("/home/kernel" ++ "/") = false := by decide
  have hlisted : Relisted es es' :=
    .trans (.swap _ _ _) (.file _ _ (.directory _
      (.trans (.directory _ (.swap _ _ _) (.refl _)) (.swap _ _ _)) .nil))
  have hsrc : WellNamed src := .intro (by decide) (by decide) (by simp [src])
  have htests : WellNamed tests := .intro (by decide) (by decide) (by simp [tests])
  have hcrate : WellNamed [("src", .directory src), ("tests", .directory tests)] := by
    refine .intro (by simp) (by simp) fun name ds hmem => ?_
    simp only [List.mem_cons, Prod.mk.injEq, SourceTree.directory.injEq, List.not_mem_nil,
      or_false] at hmem
    rcases hmem with ⟨-, rfl⟩ | ⟨-, rfl⟩
    · exact hsrc
    · exact htests
  have hnamed : WellNamed es := by
    refine .intro (by simp [es]) (by simp [es]) fun name ds hmem => ?_
    simp only [es, List.mem_cons, Prod.mk.injEq, SourceTree.directory.injEq, List.not_mem_nil,
      or_false, reduceCtorEq, and_false] at hmem
    exact hmem.2 ▸ hcrate
  have hdeep : ∀ crate ds, (crate, .directory ds) ∈ es → crate.startsWith "eventide-" = true →
      nestsWithin 10 ds = true := by
    intro crate ds hmem _
    simp only [es, List.mem_cons, Prod.mk.injEq, SourceTree.directory.injEq, List.not_mem_nil,
      or_false, reduceCtorEq, and_false] at hmem
    rw [hmem.2]
    decide
  obtain ⟨files, found, -, hfiles, -, -, -, -, hverdict, hverdict', -⟩ :=
    check_same_at_every_root hroot hroot' hlisted hnamed hdeep
  exact ⟨hroot, hroot', hlisted, hnamed, ⟨files, found, hfiles, hverdict, hverdict'⟩, by cbv⟩

/-- What a check does not do: it passes over a file that is hidden itself, in a directory that is
not; it names no line if some file is not text; and at a root that is marked it finds no files. -/
theorem check_leaves_files_out :
    let hidden : Entries := [("eventide-a",
      .directory [("src", .directory [(".b.rs", .file allowance), ("lib.rs", .file [])])])]
    let broken : Entries := [("eventide-a",
      .directory [("a.rs", .file [0xff]), ("b.rs", .file allowance)])]
    let plain : Entries := [("eventide-a", .directory [("b.rs", .file allowance)])]
    (Holds hidden ["eventide-a", "src", ".b.rs"] allowance ∧
      "eventide-a".startsWith "eventide-" = true ∧ isHidden "src" = false ∧
      ".b.rs".endsWith ".rs" = true ∧ isTestPath "eventide-a/src/.b.rs" = false ∧
      violations ⟨"eventide-a/src/.b.rs", allowance⟩ =
        [⟨"eventide-a/src/.b.rs", 1, "#[allow(dead_code)]"⟩] ∧
      check "/ws" hidden = .ok ⟨1, []⟩) ∧
    check "/ws" broken = .error .unreadable ∧
    check "/ws" plain = .ok ⟨1, [⟨"/ws/eventide-a/b.rs", 1, "#[allow(dead_code)]"⟩]⟩ ∧
    check "/home/test_ws" plain = .error .noSources := by
  intro hidden broken plain
  refine ⟨⟨?_, ?_, ?_, ?_, ?_, ?_, ?_⟩, ?_, ?_, ?_⟩
  · exact .directory List.mem_cons_self (.directory List.mem_cons_self (.file List.mem_cons_self))
  all_goals cbv

end DeadCode

end EventKernel
