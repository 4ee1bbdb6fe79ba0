import EventKernel.Command.Order
import EventKernel.Random.Generator

/-!
# The hold model

A number of events is in flight, and each event that runs schedules another one at a random delay,
until a given number of events was scheduled. All kinds of queues have to dispatch the same events.
-/

namespace EventKernel

namespace Hold

/-- What the events share. -/
structure State (G : Type) where
  random : G
  /-- How many events are still to be scheduled. -/
  left : Nat

section

variable {G : Type} (draw : G → Nat × G)

/-- Schedule the next event, unless there were enough. -/
def hold : Program PUnit (State G) PUnit := do
  let s : State G ← Program.load
  if s.left ≠ 0 then
    let (delay, random) := draw s.random
    Program.store { random, left := s.left - 1 }
    let _ : Except SimError EventId ← Program.sim (.schedule (.clamp delay) ())

/-- Schedule `n` events, or as many as are still to be scheduled. -/
def fill : Nat → Program PUnit (State G) PUnit
  | 0 => return
  | n + 1 => do
    hold draw
    let s : State G ← Program.load
    if s.left ≠ 0 then fill n

def code : Code PUnit (State G) where
  routine _ := hold draw
  observe _ _ _ s := (s, [])

/-- More steps of the machine than the model can make: an event takes a few steps, and so does each
of the first ones. -/
def stepLimit (events population : Nat) : Nat := 16 * (events + population + 2)

/-- Before anything is in flight. -/
def opened (g : G) (events : Nat) (kind : QueueKind) : World PUnit (State G) :=
  let w : World PUnit (State G) := { memory := { user := { random := g, left := events } } }
  w.add (some (.create 0 kind Scheduler.defaultBuckets .sequential))

/-- The first events are in flight; there is one at least. -/
def filled (g : G) (events population : Nat) (kind : QueueKind) : World PUnit (State G) :=
  (opened g events kind).performFor (stepLimit events population) (code draw) 0
    (fill draw (max population 1))

/-- All events have run. -/
def finished (g : G) (events population : Nat) (kind : QueueKind) : World PUnit (State G) :=
  (filled draw g events population kind).performFor (stepLimit events population) (code draw) 0
    (.run fun _ => .done ())

/-- What came of a run. -/
structure Result where
  dispatched : Nat
  finish : Time

/-- Run the model on a stream of delays. -/
def runOn (g : G) (events population : Nat) (kind : QueueKind) : Result :=
  match (finished draw g events population kind).sim? 0 with
  | none => ⟨0, .zero⟩
  | some s => ⟨s.eventCount, s.now⟩

end

def run (events population : Nat) (seed : UInt64) (kind : QueueKind) : Result :=
  runOn (·.below 1 9999) (Generator.ofSeed seed) events population kind

/-- The line about a run. -/
def line (kind : QueueKind) (r : Result) : String :=
  "  " ++ kind.text ++ " " ++ toString r.dispatched ++ " events end " ++ r.finish.text .nanos

/-- The printed results, for one kind of queue or for all. -/
def report (events population : Nat) (seed : UInt64) (only : Option QueueKind) : String :=
  let kinds := match only with
    | some kind => [kind]
    | none => QueueKind.all
  let headline := "Hold model: " ++ toString events ++ " events, " ++ toString population
    ++ " in flight, seed " ++ toString seed.toNat
  String.join ((headline :: DispatchOrder.rule 60
    :: kinds.map fun kind => line kind (run events population seed kind)).map (· ++ "\n"))

end Hold

end EventKernel
