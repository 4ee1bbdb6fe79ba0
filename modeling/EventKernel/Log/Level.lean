import EventKernel.Text.Case

/-!
# Log levels

The levels of detail of log messages, and the filter text that gives the loop and the descriptor
readers levels of their own. The messages themselves are not modelled.
-/

namespace EventKernel

/-- How much is logged. -/
inductive LogLevel where
  | error | warn | info | debug | trace
  deriving DecidableEq, Repr

namespace LogLevel

instance : Inhabited LogLevel := ⟨warn⟩

/-- All levels, from little to much. -/
def all : List LogLevel := [error, warn, info, debug, trace]

/-- The lower-case name, used on the command line and in filters. -/
def text : LogLevel → String
  | error => "error"
  | warn => "warn"
  | info => "info"
  | debug => "debug"
  | trace => "trace"

/-- The capitalized name. -/
def name : LogLevel → String
  | error => "Error"
  | warn => "Warn"
  | info => "Info"
  | debug => "Debug"
  | trace => "Trace"

/-- The upper-case name, used in front of log messages. -/
def label (l : LogLevel) : String := l.text.map Char.toUpper

/-- Read a level without regard to case. -/
def read? (s : String) : Option LogLevel :=
  let word := String.ofList (lowerCase s.toList)
  all.find? fun l => l.text == word

/-- The text about a word that names no level. -/
def invalidMessage (word : String) : String := "Invalid log level: " ++ word

end LogLevel

/-- Levels for single components. -/
structure ComponentLevels where
  /-- The level of the loop. -/
  dispatch : Option LogLevel := none
  /-- The level of the descriptor readers. -/
  readers : Option LogLevel := none

namespace ComponentLevels

/-- The part of the filter text that sets the level of one component. -/
def directive (target : String) : Option LogLevel → String
  | none => ""
  | some l => "," ++ target ++ "=" ++ l.text

/-- The filter text for a base level and the levels of the components. -/
def directives (c : ComponentLevels) (base : LogLevel) : String :=
  base.text ++ directive "eventide_core::simulator" c.dispatch ++ directive "eventide_io" c.readers

end ComponentLevels

end EventKernel
