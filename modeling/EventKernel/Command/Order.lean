import EventKernel.Config.Json
import EventKernel.Machine.World

/-!
# The order of dispatch

Four labelled events are scheduled and run, and the order in which they ran is printed.
-/

namespace EventKernel

/-- A line of the trace. -/
structure DispatchRecord where
  label : String
  time : Time
  sequence : Nat
  context : ContextId

namespace DispatchRecord

def toJson (r : DispatchRecord) : Json :=
  .record
    [("label", .text r.label), ("time", .integer r.time.ticks), ("sequence", .integer r.sequence),
     ("context", .integer r.context.raw.toNat)]

def line (r : DispatchRecord) : String :=
  "  " ++ r.label ++ " at t=" ++ toString r.time.ticks ++ " (seq " ++ toString r.sequence ++ ")"

end DispatchRecord

namespace DispatchOrder

/-- What the events and the observer write down. -/
structure Notes where
  records : Array DispatchRecord := #[]
  sequences : Array Nat := #[]

/-- The code of the events; the observer has an empty label. -/
def code : Code String Notes where
  routine label := do
    let now : Time ← Program.sim .now
    let context : ContextId ← Program.sim .context
    Program.modify fun n => { n with records := n.records.push ⟨label, now, 0, context⟩ }
  observe _ _ info n := ({ n with sequences := n.sequences.push info.id.sequence }, [])

/-- The labels of the events, with their delays. -/
def events : List (String × Time) :=
  [("A", .clamp 5), ("B", .clamp 3), ("C", .clamp 3), ("D", .clamp 7)]

/-- Schedule the events and run them. -/
def schedule : Program String Notes PUnit := do
  Program.forEach (fun (label, delay) => do
    let _ : Except SimError EventId ← Program.sim (.schedule delay label)) events
  Program.sim (.observe (some ""))

def trace (kind : QueueKind) : List DispatchRecord :=
  let w : World String Notes := { memory := { user := {} } }
  let w := (w.add (some (.create 0 kind Scheduler.defaultBuckets .sequential))).perform code 0 schedule
  let w := w.perform code 0 (.run fun _ => .done ())
  let w := w.drop code 0
  w.user.records.toList.zipWith (fun r n => { r with sequence := n }) w.user.sequences.toList

/-- A line of dashes. -/
def rule (width : Nat) : String := String.ofList (List.replicate width '-')

/-- The printed trace. -/
def report (kind : QueueKind) (json : Bool) : String :=
  let records := trace kind
  if json then (Json.array (records.map (·.toJson))).pretty ++ "\n"
  else
    String.join ((("Dispatch order (" ++ kind.text ++ " scheduler)") :: rule 40
      :: records.map (·.line)).map (· ++ "\n"))

end DispatchOrder

end EventKernel
