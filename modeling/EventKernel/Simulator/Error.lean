import EventKernel.Time.Resolution

/-!
# Refusals of a simulator
-/

namespace EventKernel

/-- Why a simulator refuses a request. -/
inductive SimError where
  /-- A delay pointed into the past. -/
  | negativeDelay (delay : Time)
  /-- The simulator was torn down. -/
  | destroyed
  /-- A run was asked for during a run. -/
  | alreadyRunning
  /-- Teardown was asked for during a run. -/
  | notStopped
  /-- The unit of a tick cannot be changed any more. -/
  | frozen (e : ResolutionFrozen)
  deriving DecidableEq

/-- Print a refusal; this needs the unit of a tick if a delay is printed. -/
def SimError.print (e : SimError) (r : Resolution) : String × Resolution :=
  match e with
  | negativeDelay delay =>
    let (text, r) := delay.print r
    ("Invalid time: delay " ++ text ++ " is negative", r)
  | destroyed => ("Simulator destroyed", r)
  | alreadyRunning => ("Simulator is already running", r)
  | notStopped => ("Simulator cannot be destroyed while running", r)
  | frozen e => (e.message, r)

end EventKernel
