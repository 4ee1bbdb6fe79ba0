import EventKernel.Config.Basic
import EventKernel.Json.Basic

/-!
# Configurations as JSON

A configuration is written as a record of four records. What is read back may have its fields in any
order, may have further fields, and may leave out the stop delay.
-/

namespace EventKernel

/-! ### Writing -/

def Json.record (fields : List (String × Json)) : Json :=
  .object (fields.map fun (k, v) => (some k, v))

def Json.text (s : String) : Json := .string (some s)

def SyncMode.toJson : SyncMode → Json
  | .sequential => .text "Sequential"
  | .conservative id window =>
    .record [("Conservative", .record
      [("system_id", .integer id.toNat), ("lookahead", .integer window.ticks)])]

def Config.stopToJson : Option Int64 → Json
  | none => .null
  | some nanos => .integer nanos.toInt

/-- A configuration as JSON. -/
def Config.toJson (c : Config) : Json :=
  .record
    [("time", .record [("resolution", .text c.resolution.name)]),
     ("scheduler", .record
       [("kind", .text c.kind.name), ("calendar_buckets", .integer c.calendarBuckets.toNat)]),
     ("run", .record
       [("stop_after_ns", stopToJson c.stopAfterNanos), ("sync", c.sync.toJson)]),
     ("reader", .record [("buffer_size", .integer c.bufferSize.toNat)])]

/-! ### Reading -/

/-- Read a unit by its name. -/
def TimeUnit.ofJson? (v : Json) : Option TimeUnit := do
  let (name, content) ← v.variant?
  if Json.isBare content then all.find? fun u => u.name == name else none

/-- Read a kind of queue by its name. -/
def QueueKind.ofJson? (v : Json) : Option QueueKind := do
  let (name, content) ← v.variant?
  if Json.isBare content then all.find? fun k => k.name == name else none

/-- Read a word of 64 bits. -/
def Json.word64? (v : Json) : Option UInt64 :=
  (v.integerIn? .word64).map fun n => UInt64.ofNat n.toNat

/-- Read the content of a conservative mode. -/
def SyncMode.conservativeOfJson? (v : Json) : Option SyncMode := do
  match ← v.fields? ["system_id", "lookahead"] with
  | [some id, some window] =>
    let id ← id.integerIn? .word32
    let window ← window.integerIn? .signed64
    return .conservative (UInt32.ofNat id.toNat) (.clamp window)
  | _ => none

/-- Read a synchronization mode. -/
def SyncMode.ofJson? (v : Json) : Option SyncMode := do
  let (name, content) ← v.variant?
  if name == "Sequential" then
    if Json.isBare content then some .sequential else none
  else if name == "Conservative" then content.bind conservativeOfJson?
  else none

namespace Config

/-- Read a stop delay. -/
def stopOfJson? : Option Json → Option (Option Int64)
  | none => some none
  | some .null => some none
  | some v => (v.integerIn? .signed64).map fun n => some (Int64.ofInt n)

/-- Read the record of the unit. -/
def timeOfJson? (v : Json) : Option TimeUnit := do
  match ← v.fields? ["resolution"] with
  | [some u] => TimeUnit.ofJson? u
  | _ => none

/-- Read the record of the queue. -/
def schedulerOfJson? (v : Json) : Option (QueueKind × UInt64) := do
  match ← v.fields? ["kind", "calendar_buckets"] with
  | [some kind, some buckets] => return (← QueueKind.ofJson? kind, ← buckets.word64?)
  | _ => none

/-- Read the record of the loop. -/
def runOfJson? (v : Json) : Option (Option Int64 × SyncMode) := do
  match ← v.fields? ["stop_after_ns", "sync"] with
  | [stop, some sync] => return (← stopOfJson? stop, ← SyncMode.ofJson? sync)
  | _ => none

/-- Read the record of the readers. -/
def readerOfJson? (v : Json) : Option UInt64 := do
  match ← v.fields? ["buffer_size"] with
  | [some size] => size.word64?
  | _ => none

/-- Read a configuration. -/
def ofJson? (v : Json) : Option Config := do
  match ← v.fields? ["time", "scheduler", "run", "reader"] with
  | [some time, some scheduler, some run, some reader] =>
    let resolution ← timeOfJson? time
    let (kind, calendarBuckets) ← schedulerOfJson? scheduler
    let (stopAfterNanos, sync) ← runOfJson? run
    let bufferSize ← readerOfJson? reader
    return ⟨resolution, kind, calendarBuckets, stopAfterNanos, sync, bufferSize⟩
  | _ => none

/-- Read a configuration from a text. -/
def read? (s : String) : Option Config := (Json.read? s).bind ofJson?

end Config

end EventKernel
