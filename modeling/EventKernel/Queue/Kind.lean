import EventKernel.Text.Case

/-!
# The kinds of queues

Four ways to keep entries in order. They differ in cost only.
-/

namespace EventKernel

/-- How a queue keeps its entries. -/
inductive QueueKind where
  | heap | map | calendar | list
  deriving DecidableEq, Repr, Inhabited

namespace QueueKind

/-- All kinds, the default first. -/
def all : List QueueKind := [heap, map, calendar, list]

/-- The lower-case name, used on the command line and in printed text. -/
def text : QueueKind → String
  | heap => "heap"
  | map => "map"
  | calendar => "calendar"
  | list => "list"

/-- The name in a configuration and in descriptions. -/
def name : QueueKind → String
  | heap => "Heap"
  | map => "Map"
  | calendar => "Calendar"
  | list => "List"

/-- Read a kind without regard to case. -/
def read? (s : String) : Option QueueKind :=
  let word := String.ofList (lowerCase s.toList)
  all.find? fun k => k.text == word

/-- The text about a word that names no kind. -/
def invalidMessage (word : String) : String := "Invalid scheduler kind: " ++ word

end QueueKind

end EventKernel
