import EventKernel.Command.Options
import EventKernel.Event.Basic
import EventKernel.Log.Level
import EventKernel.Queue.Kind
import EventKernel.Text.Choice
import EventKernel.Text.Integer

/-!
# Commands

What one can ask for on the command line: general options, then the name of a command, then its own
options.
-/

namespace EventKernel

/-- A command with its settings. -/
inductive Command where
  /-- Dispatch a fixed set of events and print the order. -/
  | order (kind : QueueKind) (json : Bool)
  /-- Run the hold model on one or all kinds of queues. -/
  | bench (events population : Nat) (seed : UInt64) (kind : Option QueueKind)
  /-- Carry standard input through virtual time. -/
  | relay (latencyMicros : Int) (context : ContextId)
  /-- Print the effective settings. -/
  | config

namespace Command

def readKind? (s : String) : Option QueueKind :=
  chooseWord? QueueKind.text QueueKind.all false s

def readLevel? (s : String) : Option LogLevel :=
  chooseWord? LogLevel.text LogLevel.all false s

/-- Read a context. Its number may carry a minus sign as long as it is zero. -/
def readContext? (s : String) : Option ContextId :=
  ((IntRange.signed64.read? s).filter IntRange.word32.holds).map fun n => ⟨UInt32.ofNat n.toNat⟩

def readCount? (s : String) : Option Nat := (IntRange.word64.read? s).map Int.toNat

/-! ### The options of each command -/

def generalOptions : List OptionSpec :=
  [{ name := "log-level" }, { name := "dispatch-log-level" }, { name := "reader-log-level" }]

def orderOptions : List OptionSpec :=
  [{ name := "scheduler", letter := some 's' }, { name := "json", takesValue := false }]

def benchOptions : List OptionSpec :=
  [{ name := "events", letter := some 'e' }, { name := "population" }, { name := "seed" },
   { name := "scheduler", letter := some 's' }]

def relayOptions : List OptionSpec := [{ name := "latency-us" }, { name := "context" }]

/-- Read options behind which nothing else may stand. -/
def readAll? (specs : List OptionSpec) (words : List String) : Option Given :=
  match OptionSpec.read? specs [] words with
  | some (given, []) => some given
  | _ => none

def readOrder? (words : List String) : Option Command := do
  let g ← readAll? orderOptions words
  let kind ← g.value? "scheduler" readKind? default
  return .order kind (g.has "json")

def readBench? (words : List String) : Option Command := do
  let g ← readAll? benchOptions words
  let events ← g.value? "events" readCount? 100000
  let population ← g.value? "population" readCount? 256
  let seed ← g.value? "seed" readCount? 42
  let kind ← g.value? "scheduler" (fun s => (readKind? s).map some) none
  return .bench events population (UInt64.ofNat seed) kind

def readRelay? (words : List String) : Option Command := do
  let g ← readAll? relayOptions words
  let latency ← g.value? "latency-us" IntRange.signed64.read? 0
  let context ← g.value? "context" readContext? ⟨1⟩
  return .relay latency context

def readConfig? (words : List String) : Option Command := do
  let _ ← readAll? [] words
  return .config

/-- Whether the general options have readable values. -/
def levelsReadable (g : Given) : Bool := g.all fun (_, level) => (readLevel? level).isSome

/-- Read a command line; nothing if it is wrong. -/
def read? (words : List String) : Option Command := do
  let (g, words) ← OptionSpec.read? generalOptions [] words
  if levelsReadable g then
    match words with
    | "order" :: words => readOrder? words
    | "bench" :: words => readBench? words
    | "relay" :: words => readRelay? words
    | "config" :: words => readConfig? words
    | _ => none
  else none

end Command

end EventKernel
