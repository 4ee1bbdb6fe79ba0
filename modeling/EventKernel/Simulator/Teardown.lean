/-!
# Teardown events

Events that run when a simulator is torn down, in the order in which they were registered. They are
named by their sequence numbers.
-/

namespace EventKernel

/-- An event that waits for teardown. -/
structure TeardownEvent (α : Type) where
  sequence : Nat
  task : α
  cancelled : Bool := false

/-- Teardown events in the order of registration. -/
abbrev TeardownList (α : Type) := List (TeardownEvent α)

namespace TeardownList

variable {α : Type}

/-- Register an event. -/
def push (sequence : Nat) (task : α) (l : TeardownList α) : TeardownList α :=
  l ++ [⟨sequence, task, false⟩]

/-- Mark the event with a sequence number as cancelled; tells whether it was there and not yet
marked. -/
def cancel (sequence : Nat) : TeardownList α → Bool × TeardownList α
  | [] => (false, [])
  | ev :: l =>
    if ev.sequence = sequence then (!ev.cancelled, { ev with cancelled := true } :: l)
    else
      let (b, l) := cancel sequence l
      (b, ev :: l)

/-- Take out the event with a sequence number; tells whether it was there. -/
def remove (sequence : Nat) : TeardownList α → Bool × TeardownList α
  | [] => (false, [])
  | ev :: l =>
    if ev.sequence = sequence then (true, l)
    else
      let (b, l) := remove sequence l
      (b, ev :: l)

/-- Whether the event with a sequence number waits and is not cancelled. -/
def isPending (sequence : Nat) (l : TeardownList α) : Bool :=
  l.any fun ev => ev.sequence = sequence && !ev.cancelled

/-- Take out the first event that is not cancelled, and drop the cancelled ones in front of it. -/
def popLive : TeardownList α → Option (TeardownEvent α) × TeardownList α
  | [] => (none, [])
  | ev :: l => if ev.cancelled then popLive l else (some ev, l)

end TeardownList

end EventKernel
