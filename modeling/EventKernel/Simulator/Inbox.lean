import EventKernel.Event.Basic
import EventKernel.Simulator.Error

/-!
# Inboxes

Other threads hand events to a simulator through its inbox, which it empties at the top of every
round of its loop. Through the inbox they can also ask the loop to stop. Once closed, an inbox
accepts nothing any more.
-/

namespace EventKernel

/-- An event handed in from outside; its delay counts from the moment it is picked up. -/
structure RemoteEvent (α : Type) where
  context : ContextId
  delay : Time
  task : α

/-- What waits for a simulator to pick it up. -/
structure Inbox (α : Type) where
  /-- The events, in the order in which they were accepted. -/
  events : Array (RemoteEvent α) := #[]
  closed : Bool := false
  stop : Bool := false

namespace Inbox

variable {α : Type}

/-- The inbox of a simulator that is gone. -/
def shut : Inbox α := { closed := true }

/-- Whether no event waits. -/
def isEmpty (b : Inbox α) : Bool := b.events.isEmpty

/-- Hand in an event, unless its delay is negative or the inbox is closed. -/
def push (ev : RemoteEvent α) (b : Inbox α) : Except SimError PUnit × Inbox α :=
  if ev.delay.isNegative then (.error (.negativeDelay ev.delay), b)
  else if b.closed then (.error .destroyed, b)
  else (.ok (), { b with events := b.events.push ev })

def takeAll (b : Inbox α) : Array (RemoteEvent α) × Inbox α :=
  match b with
  | ⟨events, closed, stop⟩ => (events, ⟨#[], closed, stop⟩)

/-- Ask the loop to stop. -/
def requestStop (b : Inbox α) : Inbox α := { b with stop := true }

/-- Forget a request to stop. -/
def clearStop (b : Inbox α) : Inbox α := { b with stop := false }

/-- Accept nothing any more. -/
def close (b : Inbox α) : Inbox α := { b with closed := true }

/-- Drop the events that wait. -/
def clear (b : Inbox α) : Inbox α := { b with events := #[] }

/-- The description of a handle to an inbox. -/
def describeRemote (b : Inbox α) : String :=
  "RemoteScheduler \x7b closed: " ++ (if b.closed then "true" else "false") ++ ", .. \x7d"

end Inbox

end EventKernel
