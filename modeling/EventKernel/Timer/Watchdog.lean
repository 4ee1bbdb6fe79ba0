import EventKernel.Simulator.Basic

/-!
# Watchdogs

A watchdog runs its function once its deadline has passed without a further ping. A ping that moves
the deadline back only records the new deadline: the expiry that is already scheduled finds the
deadline moved and schedules itself again for the rest. A ping that moves the deadline forward
cancels that expiry and schedules a new one.
-/

namespace EventKernel

/-- A watchdog with a function named by `K`. -/
structure Watchdog (K : Type) where
  /-- The expiry scheduled last. -/
  event : EventId := .detached
  /-- The time recorded by the latest ping. -/
  deadline : Time := .zero
  cancelled : Bool := true
  /-- What to run on expiry; absent while it runs. -/
  function : Option K

namespace Watchdog

variable {K : Type}

/-- A watchdog that is not armed. -/
def create (k : K) : Watchdog K := { function := some k }

/-- Put another function in place. -/
def setFunction (k : K) (w : Watchdog K) : Watchdog K := { w with function := some k }

/-- Disarm the watchdog until the next ping. -/
def cancel (w : Watchdog K) : Watchdog K := { w with cancelled := true }

/-- Schedule an expiry of the watchdog `self` and record it. -/
def scheduleExpiry (self : Nat) (delay : Time) (w : Watchdog K) (s : Simulator K) :
    Except SimError PUnit × Watchdog K × Simulator K :=
  match s.schedule delay (.watchdog self) with
  | (.ok id, s) => (.ok (), { w with event := id }, s)
  | (.error e, s) => (.error e, w, s)

/-- Arm the watchdog `self` that has no scheduled expiry. -/
def arm (self : Nat) (delay : Time) (w : Watchdog K) (s : Simulator K) :
    Except SimError PUnit × Watchdog K × Simulator K :=
  let deadline := s.now + delay
  match w.scheduleExpiry self delay s with
  | (.ok _, w, s) => (.ok (), { w with deadline }, s)
  | (.error e, w, s) => (.error e, w, s)

/-- Expire `delay` from now, unless pinged again before. -/
def ping (self : Nat) (delay : Time) (w : Watchdog K) (s : Simulator K) :
    Except SimError PUnit × Watchdog K × Simulator K :=
  if delay.isNegative then (.error (.negativeDelay delay), w, s)
  else
    let w := { w with cancelled := false }
    if s.isExpired w.event then w.arm self delay s
    else
      let deadline := s.now + delay
      let left := s.delayLeft w.event
      if left < delay then (.ok (), { w with deadline := w.deadline.later deadline }, s)
      else if delay < left then
        let (_, s) := s.cancel w.event
        { w with deadline }.scheduleExpiry self delay s
      else (.ok (), w, s)

/-- Whether the watchdog is armed. -/
def isPending (w : Watchdog K) (s : Simulator K) : Bool :=
  !w.cancelled && !s.isExpired w.event

/-- Handle an expiry of the watchdog `self`. If the deadline has passed, its function is taken out
to be run. -/
def expire (self : Nat) (w : Watchdog K) (s : Simulator K) :
    Option K × Watchdog K × Simulator K :=
  if w.cancelled then (none, w, s)
  else if s.now < w.deadline then
    let (_, w, s) := w.scheduleExpiry self (w.deadline - s.now) s
    (none, w, s)
  else (w.function, { w with function := none }, s)

/-- Put a function back that was taken out, unless another one has been put in place. -/
def restore (k : K) (w : Watchdog K) : Watchdog K :=
  { w with function := w.function.or (some k) }

end Watchdog

end EventKernel
