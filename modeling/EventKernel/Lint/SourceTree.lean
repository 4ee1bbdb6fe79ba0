/-!
# Source trees

A directory holds named files and directories. The source files of a workspace are searched in its
crates, which are the directories at its top whose names start with `eventide-`.
-/

namespace EventKernel

/-- A file or a directory. -/
inductive SourceTree where
  | file (bytes : List UInt8)
  | directory (entries : List (String × SourceTree))

/-- What a directory holds, by name. -/
abbrev Entries := List (String × SourceTree)

namespace SourceTree

/-- What stands below a directory; a file holds nothing. -/
def entries : SourceTree → Entries
  | file _ => []
  | directory es => es

/-- Put a tree at a path below a directory, making the directories on the way. -/
def place (t : SourceTree) : List String → Entries → Entries
  | [], es => es
  | [name], es => es.filter (fun e => e.1 != name) ++ [(name, t)]
  | name :: path, es =>
    let inner := ((es.lookup name).map entries).getD []
    es.filter (fun e => e.1 != name) ++ [(name, directory (place t path inner))]

def components (path : String) : List String :=
  ((path.splitOn "/").filter fun c => !c.isEmpty)

/-- The top of a workspace with the given files and empty directories. -/
def ofPaths (files : List (String × List UInt8)) (directories : List String) : Entries :=
  let es := files.foldl (fun es (path, bytes) => place (file bytes) (components path) es) []
  directories.foldl (fun es path => place (directory []) (components path) es) es

end SourceTree

/-- A source file with its path. -/
structure SourceFile where
  path : String
  bytes : List UInt8

namespace SourceFile

/-- Whether an entry is passed over in the search. -/
def isHidden (name : String) : Bool := name.startsWith "." || name == "target"

/-- The source files in a directory and in the directories below it, as deep as `levels` of them. -/
def below : Nat → String → Entries → List SourceFile
  | 0, _, _ => []
  | levels + 1, path, es => es.flatMap fun (name, t) =>
    if isHidden name then []
    else
      let path := path ++ "/" ++ name
      match t with
      | .directory es => below levels path es
      | .file bytes => if name.endsWith ".rs" then [⟨path, bytes⟩] else []

/-- How many levels of directories are searched in a crate. -/
def searchedLevels : Nat := 11

/-- The source files of all crates of the workspace at `root`. -/
def ofWorkspace (root : String) (es : Entries) : List SourceFile :=
  es.flatMap fun (name, t) =>
    match t with
    | .directory es =>
      if name.startsWith "eventide-" then below searchedLevels (root ++ "/" ++ name) es else []
    | .file _ => []

end SourceFile

end EventKernel
