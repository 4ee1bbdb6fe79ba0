import EventKernel.Queue.Kind
import EventKernel.Simulator.Basic

/-!
# Configurations

The settings of a simulator and of its descriptor readers. Sizes are words of 64 bits. The stop
delay is kept in nanoseconds, so that holding a configuration does not choose the unit of a tick.
-/

namespace EventKernel

/-- Settings of the kernel. -/
structure Config where
  /-- The unit of a tick. -/
  resolution : TimeUnit := .nanos
  /-- The kind of queue. -/
  kind : QueueKind := .heap
  /-- The number of buckets a calendar starts with. -/
  calendarBuckets : UInt64 := 2
  /-- When to stop, in nanoseconds from the start. -/
  stopAfterNanos : Option Int64 := none
  sync : SyncMode := .sequential
  /-- The number of bytes asked for in one read. -/
  bufferSize : UInt64 := 65536
  deriving DecidableEq

instance : Inhabited Config := ⟨{}⟩

/-- Why a configuration is refused. -/
inductive ConfigError where
  /-- A size is zero. -/
  | zeroSize (field : String)
  /-- The stop lies in the past. -/
  | negativeStop (nanos : Int64)
  deriving DecidableEq

/-- The text of a refusal. -/
def ConfigError.message : ConfigError → String
  | zeroSize field => "Invalid configuration: " ++ field ++ " must be greater than zero"
  | negativeStop nanos =>
    "Invalid configuration: stop_after_ns " ++ toString nanos.toInt ++ " is negative"

namespace Config

/-- Small settings for tests. -/
def testing : Config := { kind := .map, bufferSize := 4096 }

/-- Check the values that a simulator or a reader would reject. -/
def validate (c : Config) : Except ConfigError PUnit :=
  if c.calendarBuckets = 0 then .error (.zeroSize "scheduler.calendar_buckets")
  else if c.bufferSize = 0 then .error (.zeroSize "reader.buffer_size")
  else match c.stopAfterNanos with
    | some nanos => if nanos < 0 then .error (.negativeStop nanos) else .ok ()
    | none => .ok ()

end Config

namespace Simulator

variable {K : Type}

/-- Build a simulator from a configuration. This chooses the unit of a tick, and the stop delay is
converted only after that. -/
def ofConfig (identity : Nat) (c : Config) (r : Resolution) :
    Except SimError (Simulator K) × Resolution :=
  match r.choose c.resolution with
  | (.error e, r) => (.error (.frozen e), r)
  | (.ok _, r) =>
    let s := create identity c.kind c.calendarBuckets.toNat c.sync
    match c.stopAfterNanos with
    | none => (.ok s, r)
    | some nanos =>
      match s.stopAfter (.ofUnit r.unit nanos.toInt .nanos) with
      | (.error e, _) => (.error e, r)
      | (.ok _, s) => (.ok s, r)

end Simulator

end EventKernel
