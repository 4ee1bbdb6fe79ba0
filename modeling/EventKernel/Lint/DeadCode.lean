import EventKernel.Lint.SourceTree
import EventKernel.Text.Blank
import EventKernel.Text.Case
import EventKernel.Text.Utf8

/-!
# Allowances of dead code

Source files may not allow dead code, except in tests and benchmarks, which are told by their paths.
-/

namespace EventKernel

/-- A line that allows dead code. -/
structure Violation where
  path : String
  /-- The number of the line, from 1. -/
  line : Nat
  /-- The line without the blanks around it. -/
  context : String
  deriving DecidableEq, Repr

/-- Why a workspace cannot be judged. -/
inductive LintError where
  /-- A file to be checked is not text. -/
  | unreadable
  /-- No file was checked. -/
  | noSources
  deriving DecidableEq, Repr

/-- The result of a check. -/
structure LintReport where
  filesChecked : Nat
  violations : List Violation

namespace DeadCode

/-- A path with forward slashes, in lower case. -/
def normalPath (path : String) : List Char :=
  lowerCase (path.toList.map fun c => if c = '\\' then '/' else c)

/-- Words that mark the path of a test or a benchmark wherever they stand. -/
def testMarks : List String := ["/tests/", "/benches/", "eventide-tests/", "test_", "_test"]

def isTestPath (path : String) : Bool :=
  let cs := normalPath path
  testMarks.any (fun mark => holdsInfix mark.toList cs) || "tests.rs".toList.isSuffixOf cs

def offends (line : List Char) : Bool :=
  let cs := trim line
  "#[allow(".toList.isPrefixOf cs && holdsInfix "dead_code".toList cs

/-- The offending lines among those that start with number `n`. -/
def scanFrom (path : String) (n : Nat) : List (List Char) → List Violation
  | [] => []
  | l :: ls =>
    if offends l then ⟨path, n, String.ofList (trim l)⟩ :: scanFrom path (n + 1) ls
    else scanFrom path (n + 1) ls

def scan (path : String) (text : List Char) : List Violation := scanFrom path 1 (lines text)

/-- The offending lines of a file; nothing if it is not text. -/
def scanFile? (f : SourceFile) : Option (List Violation) :=
  (decodeStrict? f.bytes).map (scan f.path)

/-- The files that are checked, in the order of their paths. -/
def checkedFiles (root : String) (es : Entries) : List SourceFile :=
  ((SourceFile.ofWorkspace root es).filter fun f => !isTestPath f.path).mergeSort
    fun a b => a.path ≤ b.path

def check (root : String) (es : Entries) : Except LintError LintReport :=
  let files := checkedFiles root es
  match files.mapM scanFile? with
  | none => .error .unreadable
  | some found =>
    if files.isEmpty then .error .noSources
    else .ok ⟨files.length, found.flatten⟩

end DeadCode

namespace LintReport

/-- Whether a check passed. -/
def passed (r : LintReport) : Bool := r.violations.isEmpty

/-- The line that shows the offending source line. -/
def contextLine (v : Violation) : String := "  " ++ v.context

/-- The lines about one violation. -/
def showViolation (v : Violation) : List String :=
  [v.path ++ ":" ++ toString v.line, contextLine v, ""]

/-- The last lines about a check that failed. -/
def tail (r : LintReport) : List String :=
  ["Found " ++ toString r.violations.length ++ " violation(s) in " ++ toString r.filesChecked
    ++ " file(s) checked",
   "Remove the unused item or use it; test files are exempt."]

/-- The first line about a check. -/
def headline (r : LintReport) : String :=
  if r.passed then
    "Dead code enforcement: " ++ toString r.filesChecked ++ " files checked, no violations found"
  else "Dead code enforcement violations found:"

/-- All lines about a check. -/
def print (r : LintReport) : List String :=
  if r.passed then [r.headline]
  else r.headline :: "" :: r.violations.flatMap showViolation ++ r.tail

end LintReport

end EventKernel
