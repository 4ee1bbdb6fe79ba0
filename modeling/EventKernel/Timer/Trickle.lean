import EventKernel.Random.Generator
import EventKernel.Simulator.Basic

/-!
# Trickle timers

A trickle timer runs through intervals that double in length up to a limit. In each interval its
function runs once, at a random point in the second half, unless enough consistent transmissions
were counted in the interval before that point.
-/

namespace EventKernel

/-- A trickle timer with a function named by `K`. -/
structure Trickle (K : Type) where
  minInterval : Time
  maxInterval : Time
  /-- The largest interval as a multiple of the smallest. -/
  multiples : Nat
  /-- The count at which the function does not run; zero for no limit. -/
  redundancy : UInt16
  interval : Time := .zero
  /-- The consistent transmissions counted in the interval. -/
  counter : UInt16 := 0
  /-- The end of the interval. -/
  intervalEvent : EventId := .detached
  /-- The firing point in the interval. -/
  fireEvent : EventId := .detached
  generator : Generator
  /-- What to run; absent before it is set and while it runs. -/
  function : Option K := none

namespace Trickle

variable {K : Type}

/-- A stopped timer. At most 63 doublings count. -/
def create (minInterval : Time) (doublings : Nat) (redundancy : UInt16) (seed : UInt64) :
    Trickle K :=
  let multiples : Nat := Nat.pow 2 (min doublings 63)
  { minInterval
    maxInterval := minInterval.scale (min (multiples : Int) 9223372036854775807)
    multiples, redundancy
    generator := .ofSeed seed }

def setFunction (k : K) (t : Trickle K) : Trickle K := { t with function := some k }

/-- Begin the current interval of the timer `self`: schedule its end and its firing point, and count
anew. -/
def beginInterval (self : Nat) (t : Trickle K) (s : Simulator K) :
    Except SimError PUnit × Trickle K × Simulator K :=
  let (x, generator) := t.generator.upperHalf
  let t := { t with generator := generator, counter := 0 }
  match s.schedule t.interval (.trickleInterval self) with
  | (.error e, s) => (.error e, t, s)
  | (.ok id, s) =>
    let t := { t with intervalEvent := id }
    match s.schedule (t.interval.scaleBy x) (.trickleFire self) with
    | (.error e, s) => (.error e, t, s)
    | (.ok id, s) => (.ok (), { t with fireEvent := id }, s)

/-- Begin with an interval of random length between the smallest and the largest. -/
def enable (self : Nat) (t : Trickle K) (s : Simulator K) :
    Except SimError PUnit × Trickle K × Simulator K :=
  let (whole, generator) := t.generator.below 1 t.multiples
  let (factor, generator) :=
    if whole < t.multiples then
      let (x, generator) := generator.fraction
      ((Binary64.ofInt whole).add x, generator)
    else (Binary64.ofInt whole, generator)
  { t with generator := generator, interval := t.minInterval.scaleBy factor }.beginInterval self s

/-- Cancel the end of the interval and its firing point. -/
def stop (t : Trickle K) (s : Simulator K) : Simulator K :=
  ((s.cancel t.intervalEvent).2.cancel t.fireEvent).2

/-- Begin anew with the smallest interval. -/
def reset (self : Nat) (t : Trickle K) (s : Simulator K) :
    Except SimError PUnit × Trickle K × Simulator K :=
  { t with interval := t.minInterval }.beginInterval self (t.stop s)

/-- Count a consistent transmission. -/
def consistent (t : Trickle K) : Trickle K :=
  { t with counter := if t.counter = 65535 then 65535 else t.counter + 1 }

/-- Go back to the smallest interval, unless the timer is there. -/
def inconsistent (self : Nat) (t : Trickle K) (s : Simulator K) :
    Except SimError PUnit × Trickle K × Simulator K :=
  if t.minInterval < t.interval then t.reset self s else (.ok (), t, s)

/-- Whether an interval runs. -/
def isRunning (t : Trickle K) (s : Simulator K) : Bool := !s.isExpired t.intervalEvent

/-- Handle the end of the interval of the timer `self`: begin the next one. -/
def endInterval (self : Nat) (t : Trickle K) (s : Simulator K) : Trickle K × Simulator K :=
  let (_, t, s) :=
    { t with interval := (t.interval.scale 2).earlier t.maxInterval }.beginInterval self s
  (t, s)

/-- Handle the firing point: unless enough transmissions were counted, the function is taken out to
be run. -/
def fire (t : Trickle K) : Option K × Trickle K :=
  if t.redundancy ≠ 0 ∧ t.redundancy ≤ t.counter then (none, t)
  else (t.function, { t with function := none })

/-- Put a function back that was taken out, unless another one has been put in place. -/
def restore (k : K) (t : Trickle K) : Trickle K :=
  { t with function := t.function.or (some k) }

end Trickle

end EventKernel
