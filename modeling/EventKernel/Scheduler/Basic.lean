import EventKernel.Queue.Basic
import EventKernel.Scheduler.Arena

/-!
# Schedulers

A scheduler holds the records of pending events in an arena and their entries in a queue.
Cancelling an event only marks its record: the event is still taken out in its turn, and whoever
takes it out skips it. Removing an event takes record and entry away at once.
-/

namespace EventKernel

/-- Pending events, ordered by a queue of some kind. -/
structure Scheduler (α : Type) where
  arena : Arena α
  queue : Queue
  /-- The number of buckets a calendar starts with. -/
  buckets : Nat

namespace Scheduler

variable {α : Type}

/-- The number of buckets a calendar starts with if nothing else is asked for. -/
def defaultBuckets : Nat := 2

/-- The empty scheduler with a queue of the given kind. -/
def empty (kind : QueueKind) (buckets : Nat) : Scheduler α where
  arena := {}
  queue := .empty buckets kind
  buckets := buckets

def kind (s : Scheduler α) : QueueKind := s.queue.kind

/-- The number of stored events, cancelled ones included. -/
def size (s : Scheduler α) : Nat := s.arena.live

/-- Whether nothing is stored. -/
def isEmpty (s : Scheduler α) : Bool := s.queue.isEmpty

/-- The record a handle names. -/
def get? (s : Scheduler α) : EventId → Option (Event α)
  | .queued slot sequence => s.arena.get? slot sequence
  | .destroy _ => none

/-- Whether a handle names a stored event that is not cancelled. -/
def isPending (s : Scheduler α) (id : EventId) : Bool :=
  (s.get? id).any fun ev => !ev.cancelled

/-- Store an event and give out its handle. -/
def insert (ev : Event α) (s : Scheduler α) : EventId × Scheduler α :=
  match s with
  | ⟨arena, queue, buckets⟩ =>
    let key := ev.key
    let (slot, arena) := arena.insert ev
    (.queued slot key.sequence, ⟨arena, queue.insert ⟨key, slot⟩, buckets⟩)

/-- The earliest event, cancelled or not. -/
def least? (s : Scheduler α) : Option (Event α) :=
  s.queue.least?.bind fun e => s.arena.get? e.slot e.key.sequence

/-- Take out the earliest event; entries without a record are passed over. -/
def removeNext (s : Scheduler α) : Option (EventId × Event α) × Scheduler α :=
  match s with
  | ⟨arena, queue, buckets⟩ =>
    match _h : queue.pop? with
    | none => (none, ⟨arena, queue, buckets⟩)
    | some (e, queue) =>
      match arena.take e.slot e.key.sequence with
      | (none, arena) => removeNext ⟨arena, queue, buckets⟩
      | (some ev, arena) => (some (.ofEntry e, ev), ⟨arena, queue, buckets⟩)
termination_by s.queue.size
decreasing_by exact Queue.size_of_pop? _h

/-- Take out the event a handle names. -/
def remove (id : EventId) (s : Scheduler α) : Option (Event α) × Scheduler α :=
  match id with
  | .destroy _ => (none, s)
  | .queued slot sequence =>
    match s.arena.take slot sequence with
    | (none, _) => (none, s)
    | (some ev, arena) =>
      let queue := (s.queue.remove ⟨ev.key, slot⟩).getD s.queue
      (some ev, { s with arena := arena, queue := queue })

/-- Mark the event a handle names as cancelled; tells whether it was there and not yet marked. -/
def cancel (id : EventId) (s : Scheduler α) : Bool × Scheduler α :=
  match id with
  | .destroy _ => (false, s)
  | .queued slot sequence =>
    match s.arena.get? slot sequence with
    | none => (false, s)
    | some ev =>
      if ev.cancelled then (false, s)
      else (true, { s with arena := s.arena.set slot { ev with cancelled := true } })

/-- Move all entries to a queue of another kind. -/
def setKind (kind : QueueKind) (s : Scheduler α) : Scheduler α :=
  { s with queue := s.queue.moveInto (.empty s.buckets kind) }

/-- Drop all events. -/
def clear (s : Scheduler α) : Scheduler α :=
  { s with arena := {}, queue := s.queue.drained }

/-- The text of an optional number in a description. -/
def optionText : Option Nat → String
  | none => "None"
  | some n => "Some(" ++ toString n ++ ")"

/-- The description of a scheduler. -/
def describe (s : Scheduler α) : String :=
  "Scheduler \x7b kind: " ++ s.kind.name ++ ", buckets: " ++ optionText s.queue.bucketCount?
    ++ ", len: " ++ toString s.size ++ " \x7d"

end Scheduler

/-- The description of a stored event. -/
def Event.describe {α : Type} (ev : Event α) : String :=
  "Event \x7b time: Time(" ++ toString ev.key.time.ticks ++ "), sequence: "
    ++ toString ev.key.sequence ++ ", context: ContextId(" ++ toString ev.context.raw.toNat
    ++ "), cancelled: " ++ (if ev.cancelled then "true" else "false") ++ ", .. \x7d"

end EventKernel
