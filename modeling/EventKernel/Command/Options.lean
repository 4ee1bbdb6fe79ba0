/-!
# Options on the command line

An option has a long name behind two dashes, perhaps also a letter behind one, and perhaps a value:
`--name value`, `--name=value`, `-n value`, `-n=value` or `-nvalue`. A value in a word of its own
does not start with a dash, unless it is a single dash. No option may be given twice.
-/

namespace EventKernel

/-- An option that a command knows. -/
structure OptionSpec where
  name : String
  letter : Option Char := none
  takesValue : Bool := true

/-- The options that were given, with their values. -/
abbrev Given := List (String × String)

/-- What a word on the command line is. -/
inductive OptionWord where
  /-- No option. -/
  | plain
  /-- An option, with its value if it takes one. -/
  | given (name value : String)
  /-- An option whose value is the next word. -/
  | awaiting (name : String)
  /-- The mark behind which there are no options. -/
  | endMark
  | wrong

namespace OptionSpec

/-- Whether a word looks like an option. -/
def isDashed (word : List Char) : Bool :=
  match word with
  | '-' :: _ :: _ => true
  | _ => false

/-- Cut a text at its first equals sign. -/
def cutAtEquals (cs : List Char) : List Char × Option (List Char) :=
  match cs.dropWhile (· ≠ '=') with
  | [] => (cs, none)
  | _ :: value => (cs.takeWhile (· ≠ '='), some value)

/-- Read what stands behind two dashes. -/
def readLong (specs : List OptionSpec) (cs : List Char) : OptionWord :=
  let (name, value) := cutAtEquals cs
  match specs.find? fun s => s.name.toList = name with
  | none => .wrong
  | some s =>
    match s.takesValue, value with
    | true, some value => .given s.name (String.ofList value)
    | true, none => .awaiting s.name
    | false, none => .given s.name ""
    | false, some _ => .wrong

/-- Read what stands behind one dash: a letter and perhaps its value. -/
def readShort (specs : List OptionSpec) (letter : Char) (value : List Char) : OptionWord :=
  match specs.find? fun s => s.letter = some letter with
  | none => .wrong
  | some s =>
    match s.takesValue, value with
    | true, [] => .awaiting s.name
    | true, '=' :: value => .given s.name (String.ofList value)
    | true, value => .given s.name (String.ofList value)
    | false, [] => .given s.name ""
    | false, _ => .wrong

def readWord (specs : List OptionSpec) (word : String) : OptionWord :=
  match word.toList with
  | ['-', '-'] => .endMark
  | '-' :: '-' :: cs => readLong specs cs
  | '-' :: letter :: cs => readShort specs letter cs
  | _ => .plain

/-- Add an option, unless it was given before. -/
def give? (name value : String) (given : Given) : Option Given :=
  if (given.lookup name).isSome then none else some ((name, value) :: given)

/-- Read options up to the first word that is none; the words from there on are left. Nothing may
stand behind the end mark. -/
def read? (specs : List OptionSpec) (given : Given) : List String → Option (Given × List String)
  | [] => some (given, [])
  | word :: words =>
    match readWord specs word with
    | .plain => some (given, word :: words)
    | .given name value => (give? name value given).bind fun given => read? specs given words
    | .awaiting name =>
      match words with
      | [] => none
      | value :: words =>
        if isDashed value.toList then none
        else (give? name value given).bind fun given => read? specs given words
    | .endMark => if words.isEmpty then some (given, []) else none
    | .wrong => none

end OptionSpec

namespace Given

/-- The value of an option, read in some way, or a default. Nothing if it cannot be read. -/
def value? {α : Type} (g : Given) (name : String) (readValue : String → Option α) (default : α) :
    Option α :=
  match g.lookup name with
  | none => some default
  | some text => readValue text

/-- Whether an option was given. -/
def has (g : Given) (name : String) : Bool := (g.lookup name).isSome

end Given

end EventKernel
