import EventKernel.Event.Sequence
import EventKernel.Scheduler.Basic
import EventKernel.Script.Names

/-!
# Scripts for a bare scheduler

A script works on one scheduler whose events carry their names as work. Names stand for the handles
of the events inserted under them; a name never used stands for the detached handle.
-/

namespace EventKernel.Script

/-- An operation of a scheduler script. -/
inductive SchedulerOp where
  /-- Insert an event, under the next sequence number unless one is given. -/
  | insert (name : String) (time : Time) (context : ContextId) (sequence : Option Nat)
  | least
  | pop
  /-- Take out all events. -/
  | drain
  | remove (name : String)
  | cancel (name : String)
  | get (name : String)
  | isPending (name : String)
  | setKind (kind : QueueKind)
  | clear
  | describe
  | describeEvent (name : String)

/-- The answer of an operation. -/
inductive SchedulerReply where
  | nothing
  | handle (id : EventId)
  | event (ev : Option (Event String))
  | popped (found : Option (EventId × Event String))
  | drained (found : List (EventId × Event String))
  | flag (b : Bool)
  | text (s : Option String)

/-- The state of a scheduler script. -/
structure SchedulerSession where
  scheduler : Scheduler String
  sequences : SequenceSource := {}
  handles : Names EventId := {}

namespace SchedulerSession

def handle (s : SchedulerSession) (name : String) : EventId := s.handles.getD name .detached

def takeAll : Nat → Scheduler String → List (EventId × Event String) × Scheduler String
  | 0, s => ([], s)
  | n + 1, s =>
    match s.removeNext with
    | (none, s) => ([], s)
    | (some found, s) =>
      let (rest, s) := takeAll n s
      (found :: rest, s)

/-- Carry out an operation. -/
def apply (s : SchedulerSession) : SchedulerOp → SchedulerReply × SchedulerSession
  | .insert name time context sequence =>
    let (number, sequences) := match sequence with
      | some number => (number, s.sequences)
      | none => s.sequences.draw
    let (id, scheduler) :=
      s.scheduler.insert { key := ⟨time, number⟩, context, task := name }
    (.handle id, ⟨scheduler, sequences, s.handles.insert name id⟩)
  | .least => (.event s.scheduler.least?, s)
  | .pop =>
    let (found, scheduler) := s.scheduler.removeNext
    (.popped found, { s with scheduler := scheduler })
  | .drain =>
    let (found, scheduler) := takeAll (s.scheduler.queue.size + 1) s.scheduler
    (.drained found, { s with scheduler := scheduler })
  | .remove name =>
    let (ev, scheduler) := s.scheduler.remove (s.handle name)
    (.event ev, { s with scheduler := scheduler })
  | .cancel name =>
    let (b, scheduler) := s.scheduler.cancel (s.handle name)
    (.flag b, { s with scheduler := scheduler })
  | .get name => (.event (s.scheduler.get? (s.handle name)), s)
  | .isPending name => (.flag (s.scheduler.isPending (s.handle name)), s)
  | .setKind kind => (.nothing, { s with scheduler := s.scheduler.setKind kind })
  | .clear => (.nothing, { s with scheduler := s.scheduler.clear })
  | .describe => (.text (some s.scheduler.describe), s)
  | .describeEvent name =>
    (.text ((s.scheduler.get? (s.handle name)).map (·.describe)), s)

/-- Carry out operations in turn: each answer, and the scheduler behind it. -/
def history (s : SchedulerSession) :
    List SchedulerOp → List (SchedulerReply × Scheduler String)
  | [] => []
  | op :: ops =>
    let (a, s) := s.apply op
    (a, s.scheduler) :: history s ops

end SchedulerSession

end EventKernel.Script
