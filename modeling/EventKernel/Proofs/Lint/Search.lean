import Mathlib.Data.List.Nodup
import Mathlib.Data.List.Perm.Basic
import Mathlib.Data.List.TakeWhile
import Mathlib.Tactic.Lemma
import EventKernel.Lint.SourceTree

/-!
# The search for source files

A file stands at a path of names below a directory, whatever the order in which the directories list
what they hold. The search finds the files of crates at paths of names that are not hidden, as deep
as it goes, each once, and finds the same ones when the listings change. What it finds below a root
are the files that it finds from the root on, with the root in front of their paths.
-/

namespace EventKernel

open scoped List

/-! ### What directories hold -/

/-- The file with these contents stands at a path of names below a directory. -/
inductive Holds : Entries → List String → List UInt8 → Prop
  | file {es : Entries} {name : String} {bytes : List UInt8} (h : (name, .file bytes) ∈ es) :
      Holds es [name] bytes
  | directory {es ds : Entries} {name : String} {names : List String} {bytes : List UInt8}
      (h : (name, .directory ds) ∈ es) (inner : Holds ds names bytes) :
      Holds es (name :: names) bytes

/-- Two listings of the same tree: in each directory, the entries may stand in another order. -/
inductive Relisted : Entries → Entries → Prop
  | nil : Relisted [] []
  | file {es es' : Entries} (name : String) (bytes : List UInt8) (h : Relisted es es') :
      Relisted ((name, .file bytes) :: es) ((name, .file bytes) :: es')
  | directory {es es' ds ds' : Entries} (name : String) (inner : Relisted ds ds')
      (h : Relisted es es') :
      Relisted ((name, .directory ds) :: es) ((name, .directory ds') :: es')
  | swap (a b : String × SourceTree) (es : Entries) : Relisted (a :: b :: es) (b :: a :: es)
  | trans {es es' es'' : Entries} (h : Relisted es es') (h' : Relisted es' es'') :
      Relisted es es''

/-- In each directory, no two entries have the same name, and no name has a slash. -/
inductive WellNamed : Entries → Prop
  | intro {es : Entries} (nodup : (es.map Prod.fst).Nodup) (slash : ∀ e ∈ es, '/' ∉ e.1.toList)
      (inner : ∀ name ds, (name, .directory ds) ∈ es → WellNamed ds) : WellNamed es

/-- Whether directories are nested at most so deep below a directory. -/
def nestsWithin : Nat → Entries → Bool
  | 0, es => es.all fun (_, t) =>
    match t with
    | .file _ => true
    | .directory _ => false
  | n + 1, es => es.all fun (_, t) =>
    match t with
    | .file _ => true
    | .directory ds => nestsWithin n ds

variable {es es' ds : Entries} {t : SourceTree} {names : List String} {bytes : List UInt8}
  {root path name : String} {f : SourceFile} {n : Nat}

lemma Relisted.refl : ∀ es : Entries, Relisted es es
  | [] => .nil
  | (name, .file bytes) :: es => .file name bytes (Relisted.refl es)
  | (name, .directory ds) :: es => .directory name (Relisted.refl ds) (Relisted.refl es)

lemma length_le_of_nestsWithin (h : nestsWithin n es = true) (hf : Holds es names bytes) :
    names.length ≤ n + 1 := by
  induction hf generalizing n with
  | file => simp
  | @directory es ds name names bytes hmem _ ih =>
    cases n with
    | zero => exact absurd (List.all_eq_true.mp h _ hmem) Bool.false_ne_true
    | succ n => simpa using ih (List.all_eq_true.mp h _ hmem)

lemma Holds.ne_nil (h : Holds es names bytes) : names ≠ [] := by
  cases h <;> exact List.cons_ne_nil _ _

/-- What one entry holds stands behind its name. -/
lemma Holds.head_eq (h : Holds [(name, t)] names bytes) : names.head? = some name := by
  cases h with
  | file hmem | directory hmem _ =>
    rw [List.mem_singleton, Prod.mk.injEq] at hmem
    rw [hmem.1, List.head?_cons]

/-! ### Paths -/

/-- The first name of a path is what stands in front of its first slash. -/
lemma takeWhile_intercalate (h : '/' ∉ name.toList) (names : List String) :
    ("/".intercalate (name :: names)).toList.takeWhile (· != '/') = name.toList := by
  have hname : ∀ c ∈ name.toList, (c != '/') = true := by
    intro c hc
    exact bne_iff_ne.mpr fun heq => h (heq ▸ hc)
  cases names with
  | nil => rw [String.intercalate_singleton, List.takeWhile_eq_self_iff.mpr hname]
  | cons name' names =>
    rw [String.intercalate_cons_cons, String.append_assoc, String.toList_append,
      List.takeWhile_append_of_pos hname]
    simp

lemma name_eq_of_intercalate_eq {name' : String} {names' : List String} (h : '/' ∉ name.toList)
    (h' : '/' ∉ name'.toList)
    (heq : "/".intercalate (name :: names) = "/".intercalate (name' :: names')) :
    name = name' := by
  rw [← String.toList_inj, ← takeWhile_intercalate h names, heq, takeWhile_intercalate h' names']

namespace SourceFile

/-! ### One entry after the other -/

lemma below_eq_flatMap (n : Nat) (path : String) (es : Entries) :
    below n path es = es.flatMap fun e => below n path [e] := by
  cases n with
  | zero => simp [below]
  | succ n => simp only [below, List.flatMap_singleton]

lemma below_cons (n : Nat) (path : String) (e : String × SourceTree) (es : Entries) :
    below n path (e :: es) = below n path [e] ++ below n path es := by
  rw [below_eq_flatMap, List.flatMap_cons, ← below_eq_flatMap]

lemma below_hidden (h : isHidden name = true) : below (n + 1) path [(name, t)] = [] := by
  simp [below, h]

lemma below_file (h : isHidden name = false) :
    below (n + 1) path [(name, .file bytes)] =
      if name.endsWith ".rs" then [⟨path ++ "/" ++ name, bytes⟩] else [] := by
  simp [below, h]

lemma below_directory (h : isHidden name = false) :
    below (n + 1) path [(name, .directory ds)] = below n (path ++ "/" ++ name) ds := by
  simp [below, h]

/-! ### What is found -/

/-- No name is hidden, and the last one is that of a source file. -/
def Searched (names : List String) : Prop :=
  (∀ name ∈ names, isHidden name = false) ∧
    ∃ name, names.getLast? = some name ∧ name.endsWith ".rs" = true

lemma searched_singleton :
    Searched [name] ↔ isHidden name = false ∧ name.endsWith ".rs" = true := by
  simp [Searched]

lemma searched_cons (h : names ≠ []) :
    Searched (name :: names) ↔ isHidden name = false ∧ Searched names := by
  rw [Searched, Searched, List.forall_mem_cons, List.getLast?_cons_of_ne_nil h, and_assoc]

lemma mem_below_file :
    f ∈ below (n + 1) path [(name, .file bytes)] ↔
      isHidden name = false ∧ name.endsWith ".rs" = true ∧ f = ⟨path ++ "/" ++ name, bytes⟩ := by
  cases hhidden : isHidden name with
  | true => simp [below_hidden hhidden]
  | false =>
    rw [below_file hhidden]
    split_ifs with hend <;> simp [hend]

lemma mem_below_directory :
    f ∈ below (n + 1) path [(name, .directory ds)] ↔
      isHidden name = false ∧ f ∈ below n (path ++ "/" ++ name) ds := by
  cases hhidden : isHidden name with
  | true => simp [below_hidden hhidden]
  | false => simp [below_directory hhidden]

lemma path_intercalate_cons (h : names ≠ []) :
    path ++ "/" ++ "/".intercalate (name :: names) =
      path ++ "/" ++ name ++ "/" ++ "/".intercalate names := by
  rw [String.intercalate_cons_of_ne_nil h]
  simp only [String.append_assoc]

/-- The search finds what stands at paths of names that it looks at, as deep as it goes. -/
lemma mem_below :
    f ∈ below n path es ↔
      ∃ names, Holds es names f.bytes ∧ names.length ≤ n ∧ Searched names ∧
        f.path = path ++ "/" ++ "/".intercalate names := by
  induction n generalizing path es with
  | zero =>
    refine iff_of_false List.not_mem_nil ?_
    rintro ⟨names, hnames, hlength, -⟩
    exact hnames.ne_nil (List.length_eq_zero_iff.mp (Nat.le_zero.mp hlength))
  | succ n ih =>
    rw [below_eq_flatMap, List.mem_flatMap]
    constructor
    · rintro ⟨⟨name, bytes | ds⟩, hmem, hf⟩
      · obtain ⟨hhidden, hend, rfl⟩ := mem_below_file.mp hf
        exact ⟨[name], .file hmem, by simp, searched_singleton.mpr ⟨hhidden, hend⟩, by simp⟩
      · obtain ⟨hhidden, hf⟩ := mem_below_directory.mp hf
        obtain ⟨names, hnames, hlength, hsearched, hpath⟩ := ih.mp hf
        exact ⟨name :: names, .directory hmem hnames, by simpa using hlength,
          (searched_cons hnames.ne_nil).mpr ⟨hhidden, hsearched⟩,
          hpath.trans (path_intercalate_cons hnames.ne_nil).symm⟩
    · rintro ⟨names, hnames, hlength, hsearched, hpath⟩
      cases hnames with
      | @file _ name _ hmem =>
        obtain ⟨hhidden, hend⟩ := searched_singleton.mp hsearched
        rw [String.intercalate_singleton] at hpath
        exact ⟨_, hmem, mem_below_file.mpr ⟨hhidden, hend, by rw [← hpath]⟩⟩
      | @directory _ ds name names _ hmem hin =>
        obtain ⟨hhidden, hsearched⟩ := (searched_cons hin.ne_nil).mp hsearched
        rw [path_intercalate_cons hin.ne_nil] at hpath
        exact ⟨_, hmem, mem_below_directory.mpr
          ⟨hhidden, ih.mpr ⟨names, hin, by simpa using hlength, hsearched, hpath⟩⟩⟩

/-- Paths through different entries differ in the names of the entries. -/
lemma nodup_flatMap {found : String × SourceTree → List SourceFile} (start : String)
    (hnodup : (es.map Prod.fst).Nodup) (hslash : ∀ e ∈ es, '/' ∉ e.1.toList)
    (heach : ∀ e ∈ es, ((found e).map SourceFile.path).Nodup)
    (hpath : ∀ e, ∀ f ∈ found e, ∃ names, f.path = start ++ "/".intercalate (e.1 :: names)) :
    ((es.flatMap found).map SourceFile.path).Nodup := by
  rw [List.map_flatMap, List.nodup_flatMap]
  refine ⟨heach, (List.pairwise_map.mp hnodup).imp_of_mem ?_⟩
  intro e e' hmem hmem' hne p hp hp'
  obtain ⟨f, hf, rfl⟩ := List.mem_map.mp hp
  obtain ⟨f', hf', heq⟩ := List.mem_map.mp hp'
  obtain ⟨names, hf⟩ := hpath e f hf
  obtain ⟨names', hf'⟩ := hpath e' f' hf'
  rw [hf, hf', String.append_right_inj] at heq
  exact hne (name_eq_of_intercalate_eq (hslash e' hmem') (hslash e hmem) heq).symm

/-- Each file is found once. -/
lemma nodup_below (h : WellNamed es) (n : Nat) (path : String) :
    ((below n path es).map SourceFile.path).Nodup := by
  induction n generalizing path es with
  | zero => exact List.nodup_nil
  | succ n ih =>
    obtain ⟨hnodup, hslash, hinner⟩ := h
    rw [below_eq_flatMap]
    refine nodup_flatMap (path ++ "/") hnodup hslash ?_ ?_
    · rintro ⟨name, t⟩ hmem
      by_cases hhidden : isHidden name = true
      · rw [below_hidden hhidden]
        exact List.nodup_nil
      rw [Bool.not_eq_true] at hhidden
      cases t with
      | file bytes =>
        rw [below_file hhidden]
        split_ifs
        · exact List.nodup_singleton _
        · exact List.nodup_nil
      | directory ds =>
        rw [below_directory hhidden]
        exact ih (hinner name ds hmem) _
    · rintro ⟨name, t⟩ f hf
      obtain ⟨names, hnames, -, -, hpath⟩ := mem_below.mp hf
      obtain ⟨rest, rfl⟩ := List.head?_eq_some_iff.mp hnames.head_eq
      exact ⟨rest, hpath⟩

/-- The search finds the same files in every listing. -/
lemma perm_below (h : Relisted es es') (n : Nat) (path : String) :
    below n path es ~ below n path es' := by
  induction h generalizing n path with
  | nil => exact List.Perm.refl _
  | @file es es' name bytes _ ih =>
    rw [below_cons, below_cons _ _ _ es']
    exact (ih n path).append_left _
  | @directory es es' ds ds' name _ _ ihin ih =>
    rw [below_cons, below_cons _ _ _ es']
    refine List.Perm.append ?_ (ih n path)
    cases n with
    | zero => exact List.Perm.refl _
    | succ n =>
      by_cases hhidden : isHidden name = true
      · rw [below_hidden hhidden, below_hidden hhidden]
      rw [Bool.not_eq_true] at hhidden
      rw [below_directory hhidden, below_directory hhidden]
      exact ihin n _
  | swap a b es =>
    rw [below_eq_flatMap, below_eq_flatMap _ _ (b :: a :: es)]
    exact (List.Perm.swap b a es).flatMap_right _
  | trans _ _ ih ih' => exact (ih n path).trans (ih' n path)

/-! ### Crates -/

/-- The file with a root in front of its path. -/
def under (root : String) (f : SourceFile) : SourceFile := ⟨root ++ "/" ++ f.path, f.bytes⟩

/-- The source files of all crates, with their paths from the root of the workspace on. -/
def ofCrates (es : Entries) : List SourceFile :=
  es.flatMap fun (name, t) =>
    match t with
    | .directory es => if name.startsWith "eventide-" then below searchedLevels name es else []
    | .file _ => []

lemma below_under (root : String) (n : Nat) (path : String) (es : Entries) :
    below n (root ++ "/" ++ path) es = (below n path es).map (under root) := by
  induction n generalizing path es with
  | zero => rfl
  | succ n ih =>
    rw [below_eq_flatMap, below_eq_flatMap _ path, List.map_flatMap]
    refine List.flatMap_congr fun ⟨name, t⟩ _ => ?_
    have hpath : root ++ "/" ++ path ++ "/" ++ name = root ++ "/" ++ (path ++ "/" ++ name) := by
      simp only [String.append_assoc]
    by_cases hhidden : isHidden name = true
    · rw [below_hidden hhidden, below_hidden hhidden, List.map_nil]
    rw [Bool.not_eq_true] at hhidden
    cases t with
    | file bytes =>
      rw [below_file hhidden, below_file hhidden, hpath]
      split_ifs <;> rfl
    | directory ds => rw [below_directory hhidden, below_directory hhidden, hpath, ih]

lemma ofWorkspace_eq (root : String) (es : Entries) :
    ofWorkspace root es = (ofCrates es).map (under root) := by
  rw [ofWorkspace, ofCrates, List.map_flatMap]
  refine List.flatMap_congr fun ⟨name, t⟩ _ => ?_
  cases t with
  | file bytes => rfl
  | directory ds =>
    simp only
    split_ifs
    · exact below_under root _ name ds
    · rfl

lemma ofCrates_eq_flatMap (es : Entries) : ofCrates es = es.flatMap fun e => ofCrates [e] := by
  simp only [ofCrates, List.flatMap_singleton]

lemma ofCrates_cons (e : String × SourceTree) (es : Entries) :
    ofCrates (e :: es) = ofCrates [e] ++ ofCrates es := by
  rw [ofCrates_eq_flatMap, List.flatMap_cons, ← ofCrates_eq_flatMap]

lemma ofCrates_directory :
    ofCrates [(name, .directory ds)] =
      if name.startsWith "eventide-" then below searchedLevels name ds else [] := by
  simp only [ofCrates, List.flatMap_singleton]

lemma mem_ofCrates :
    f ∈ ofCrates es ↔
      ∃ crate ds names, (crate, .directory ds) ∈ es ∧ crate.startsWith "eventide-" = true ∧
        Holds ds names f.bytes ∧ names.length ≤ searchedLevels ∧ Searched names ∧
        f.path = "/".intercalate (crate :: names) := by
  rw [ofCrates, List.mem_flatMap]
  constructor
  · rintro ⟨⟨crate, t⟩, hmem, hf⟩
    cases t with
    | file bytes => exact absurd hf List.not_mem_nil
    | directory ds =>
      simp only at hf
      split_ifs at hf with hcrate
      · obtain ⟨names, hnames, hlength, hsearched, hpath⟩ := mem_below.mp hf
        refine ⟨crate, ds, names, hmem, hcrate, hnames, hlength, hsearched, ?_⟩
        rw [hpath, String.intercalate_cons_of_ne_nil hnames.ne_nil]
      · exact absurd hf List.not_mem_nil
  · rintro ⟨crate, ds, names, hmem, hcrate, hnames, hlength, hsearched, hpath⟩
    refine ⟨_, hmem, ?_⟩
    simp only
    rw [if_pos hcrate, mem_below]
    refine ⟨names, hnames, hlength, hsearched, ?_⟩
    rw [hpath, String.intercalate_cons_of_ne_nil hnames.ne_nil]

/-- Each file of a crate is found once. -/
lemma nodup_ofCrates (h : WellNamed es) : ((ofCrates es).map SourceFile.path).Nodup := by
  obtain ⟨hnodup, hslash, hinner⟩ := h
  rw [ofCrates_eq_flatMap]
  refine nodup_flatMap "" hnodup hslash ?_ ?_
  · rintro ⟨name, t⟩ hmem
    cases t with
    | file bytes => exact List.nodup_nil
    | directory ds =>
      rw [ofCrates_directory]
      split_ifs
      · exact nodup_below (hinner name ds hmem) _ _
      · exact List.nodup_nil
  · rintro ⟨name, t⟩ f hf
    obtain ⟨crate, ds, names, hmem, -, -, -, -, hpath⟩ := mem_ofCrates.mp hf
    rw [List.mem_singleton, Prod.mk.injEq] at hmem
    exact ⟨names, by rw [hpath, hmem.1, String.empty_append]⟩

lemma perm_ofCrates (h : Relisted es es') : ofCrates es ~ ofCrates es' := by
  induction h with
  | nil => exact List.Perm.refl _
  | @file es es' name bytes _ ih =>
    rw [ofCrates_cons, ofCrates_cons _ es']
    exact ih.append_left _
  | @directory es es' ds ds' name hin _ _ ih =>
    rw [ofCrates_cons, ofCrates_cons _ es', ofCrates_directory, ofCrates_directory]
    refine List.Perm.append ?_ ih
    split_ifs
    · exact perm_below hin _ _
    · exact List.Perm.refl _
  | swap a b es => exact (List.Perm.swap b a es).flatMap_right _
  | trans _ _ ih ih' => exact ih.trans ih'

end SourceFile

end EventKernel
