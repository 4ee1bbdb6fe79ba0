import EventKernel.Config.Basic
import EventKernel.Time.Question

/-!
# Actions of a script

A script says what to do with simulators, and the callbacks it schedules are lists of the same
actions. Things are called by names; a callback's actions are written in place or under the name of
a procedure, which is looked up when the callback fires.
-/

namespace EventKernel.Script

mutual

/-- Something to do with the simulator at hand. -/
inductive Action where
  | schedule (name : String) (delay : Time) (body : Body)
  | scheduleNow (name : String) (body : Body)
  | scheduleWith (name : String) (context : ContextId) (delay : Time) (body : Body)
  | scheduleDestroy (name : String) (body : Body)
  | stopAfter (name : String) (delay : Time)
  | cancel (name : String)
  | remove (name : String)
  | isExpired (name : String)
  | delayLeft (name : String)
  | showHandle (name : String)
  /-- Whether two names stand for the same handle. -/
  | sameHandle (a b : String)
  | run
  | destroy
  | stop
  | look
  | setScheduler (kind : QueueKind)
  | boundLookahead (bound : Time)
  /-- Observe each event; with a limit, stop the loop once that many events were observed. -/
  | observe (limit : Option Nat)
  | unobserve
  /-- Keep a handle to the inbox of the simulator. -/
  | keepRemote (name : String)
  | remoteSchedule (name : String) (via : Option String) (context : ContextId) (delay : Time)
      (body : Body)
  | remoteStop (via : Option String)
  | remoteClosed (via : Option String)
  | remoteDescribe (via : Option String)
  | describe
  | log (text : String)
  /-- Perform actions at once. -/
  | perform (body : Body)
  | newWatchdog (name : String) (body : Body)
  | setWatchdogFunction (name : String) (body : Body)
  | pingWatchdog (name : String) (delay : Time)
  | cancelWatchdog (name : String)
  | lookAtWatchdog (name : String)
  | dropWatchdog (name : String)
  | newTrickle (name : String) (minInterval : Time) (doublings : Nat) (redundancy : UInt16)
      (seed : UInt64)
  | setTrickleFunction (name : String) (body : Body)
  | enableTrickle (name : String)
  | resetTrickle (name : String)
  | inconsistent (name : String)
  /-- Count consistent transmissions. -/
  | consistent (name : String) (times : Nat)
  | stopTrickle (name : String)
  | lookAtTrickle (name : String)
  | dropTrickle (name : String)
  | askTime (q : TimeQuestion)

/-- The actions of a callback. -/
inductive Body where
  | inPlace (actions : List Action)
  | procedure (name : String)

end

instance : Inhabited Action := ⟨.look⟩
instance : Inhabited Body := ⟨.inPlace []⟩

end EventKernel.Script
