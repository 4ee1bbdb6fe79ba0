import EventKernel.Config.Basic

/-!
# Answers

Scripts ask for things of many kinds; an answer is what one action of a script came to.
-/

namespace EventKernel.Script

/-- Why an action failed. -/
inductive Cause where
  | negativeDelay | destroyed | alreadyRunning | notStopped | frozen
  | noSimulator | noWatchdog | noTrickle
  deriving DecidableEq, Repr

/-- The cause of a refusal by a simulator. -/
def Cause.ofSimError : SimError → Cause
  | .negativeDelay _ => negativeDelay
  | .destroyed => destroyed
  | .alreadyRunning => alreadyRunning
  | .notStopped => notStopped
  | .frozen _ => frozen

/-- The text about an action that misses its object. -/
def Cause.message : Cause → String
  | noSimulator => "no such simulator"
  | noWatchdog => "no such watchdog"
  | noTrickle => "no such trickle"
  | _ => ""

/-- What an action came to. -/
inductive Answer where
  /-- The action has no result. -/
  | nothing
  /-- The action, which can fail, succeeded. -/
  | ok
  | flag (b : Bool)
  | number (n : Int)
  | text (s : String)
  | real (x : Binary64)
  | list (items : List Answer)
  | record (fields : List (String × Answer))
  | failure (cause : Cause) (message : String)
  /-- A configuration was looked at. -/
  | config (c : Config)

instance : Inhabited Answer := ⟨.nothing⟩

namespace Answer

/-- The answer of an optional item. -/
def ofOption {α : Type} (f : α → Answer) : Option α → Answer
  | none => nothing
  | some a => f a

def time (t : Time) : Answer := number t.ticks

/-- The failure of an action that misses its object. -/
def missing (c : Cause) : Answer := failure c c.message

/-- The failure of an action that a simulator refused. -/
def refused (e : SimError) (r : Resolution) : Answer × Resolution :=
  let (message, r) := e.print r
  (failure (.ofSimError e) message, r)

end Answer

end EventKernel.Script
