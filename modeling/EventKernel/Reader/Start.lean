import EventKernel.Machine.Program
import EventKernel.Reader.Basic

/-!
# Starting a reader

A reader is started on a simulator, which stops it at its teardown. The teardown event is registered
anew unless one is still pending on the same simulator.
-/

namespace EventKernel

/-- Why a reader does not start. -/
inductive StartError where
  /-- There is a thread, which reads the descriptor with the given name. -/
  | alreadyRunning (target : String)
  /-- A call of `stop` waits for the thread to end. -/
  | stopping
  /-- The wake-pipe could not be made. -/
  | noWakePipe (e : Errno)
  /-- The simulator refused the teardown event. -/
  | refused (e : SimError)
  deriving DecidableEq

def StartError.print (e : StartError) (r : Resolution) : String × Resolution :=
  match e with
  | alreadyRunning target => ("FdReader already running on fd " ++ target, r)
  | stopping => ("FdReader is stopping", r)
  | noWakePipe e => ("Wake-pipe setup failed: " ++ e.message, r)
  | refused e => e.print r

namespace Reader

variable {E K U : Type}

/-- What keeps a reader from starting, before its simulator is asked. -/
def obstacle? (pipesForbidden : Bool) (target : String) (r : Reader E) : Option StartError :=
  match r.state with
  | .running => some (.alreadyRunning (r.target.getD target))
  | .stopping => some .stopping
  | .idle => if pipesForbidden then some (.noWakePipe .tooManyFiles) else none

/-- Whether the latest teardown event of a reader is pending on the simulator at hand. -/
def teardownPending (r : Reader E) : Program K U Bool := do
  match r.teardown with
  | none => return false
  | some (owner, id) =>
    let own : Nat ← Program.sim .identity
    if owner = own then
      let expired : Bool ← Program.sim (.isExpired id)
      return !expired
    else return false

/-- Start a reader on the simulator at hand, whose teardown is to perform the code `k`. -/
def start (k : K) (pipesForbidden : Bool) (plan : ReadPlan E) (r : Reader E) :
    Program K U (Except StartError PUnit × Reader E) := do
  match r.obstacle? pipesForbidden plan.target with
  | some e => return (.error e, r)
  | none =>
    if ← r.teardownPending then return (.ok (), r.spawn plan)
    else
      let own : Nat ← Program.sim .identity
      match ← (Program.sim (.scheduleDestroy k) : Program K U (Except SimError EventId)) with
      | .error e => return (.error (.refused e), r)
      | .ok id => return (.ok (), { r with teardown := some (own, id) }.spawn plan)

end Reader

end EventKernel
