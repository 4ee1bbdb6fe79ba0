import EventKernel.Text.Blank
import EventKernel.Text.Case

/-!
# Units of time

The decimal units from seconds to femtoseconds, their suffixes, and the words by which a text may
name them.
-/

namespace EventKernel

/-- A decimal unit of time. -/
inductive TimeUnit where
  | seconds | millis | micros | nanos | picos | femtos
  deriving DecidableEq, Repr, Inhabited

namespace TimeUnit

/-- All units, the coarsest first. -/
def all : List TimeUnit :=
  [seconds, millis, micros, nanos, picos, femtos]

/-- The power of ten of one unit in seconds. -/
def exponent : TimeUnit → Int
  | seconds => 0
  | millis => -3
  | micros => -6
  | nanos => -9
  | picos => -12
  | femtos => -15

/-- The suffix printed behind a number of units. -/
def suffix : TimeUnit → String
  | seconds => "s"
  | millis => "ms"
  | micros => "us"
  | nanos => "ns"
  | picos => "ps"
  | femtos => "fs"

def name : TimeUnit → String
  | seconds => "Seconds"
  | millis => "Millis"
  | micros => "Micros"
  | nanos => "Nanos"
  | picos => "Picos"
  | femtos => "Femtos"

/-- The words that name the unit in a text. -/
def words : TimeUnit → List String
  | seconds => ["s", "sec", "seconds"]
  | millis => ["ms", "millis", "milliseconds"]
  | micros => ["us", "micros", "microseconds"]
  | nanos => ["ns", "nanos", "nanoseconds"]
  | picos => ["ps", "picos", "picoseconds"]
  | femtos => ["fs", "femtos", "femtoseconds"]

/-- Read a unit, without regard to case and to blanks around it. -/
def read? (s : String) : Option TimeUnit :=
  let word := String.ofList (lowerCase (trim s.toList))
  all.find? fun u => u.words.contains word

def ofSuffix? (s : String) : Option TimeUnit :=
  all.find? fun u => u.suffix == s

end TimeUnit

end EventKernel
