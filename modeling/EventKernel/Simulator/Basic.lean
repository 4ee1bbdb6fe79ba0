import EventKernel.Event.Sequence
import EventKernel.Scheduler.Basic
import EventKernel.Simulator.Inbox
import EventKernel.Simulator.Sync
import EventKernel.Simulator.Teardown

/-!
# Simulators

A simulator owns a virtual clock, the pending events, the events that wait for its teardown, and its
inbox. This file has everything a callback can ask of it at once; the loop that dispatches events,
which hands control to callbacks, is in `EventKernel.Machine.Basic`.

Events carry tasks: code of the user, or the internal work of a stop and of the timers.
-/

namespace EventKernel

/-! ### Tasks and phases -/

/-- The work of an event. -/
inductive Task (K : Type) where
  /-- Code of the user. -/
  | user (k : K)
  /-- Stop the loop. -/
  | stop
  /-- The expiry of a watchdog. -/
  | watchdog (w : Nat)
  /-- The end of an interval of a trickle timer. -/
  | trickleInterval (t : Nat)
  /-- The firing point inside an interval of a trickle timer. -/
  | trickleFire (t : Nat)

/-- The stages in the life of a simulator. -/
inductive Phase where
  | notRunning | running | stopped | destroyed
  deriving DecidableEq, Repr

/-- The name of a stage. -/
def Phase.name : Phase → String
  | notRunning => "NotRunning"
  | running => "Running"
  | stopped => "Stopped"
  | destroyed => "Destroyed"

/-- A simulator whose user code is named by `K`. -/
structure Simulator (K : Type) where
  /-- The number that tells simulators apart. -/
  identity : Nat
  scheduler : Scheduler (Task K)
  /-- The sequence numbers of events, of both kinds. -/
  sequences : SequenceSource := {}
  teardown : TeardownList (Task K) := []
  inbox : Inbox (Task K) := {}
  now : Time := .zero
  /-- The context of the running callback. -/
  context : ContextId := .none
  phase : Phase := .notRunning
  stopRequested : Bool := false
  sync : SyncMode := .sequential
  /-- The number of callbacks invoked. -/
  eventCount : Nat := 0
  /-- What is told about each event in front of its callback. -/
  observer : Option K := none

namespace Simulator

variable {K : Type}

/-- A new simulator. -/
def create (identity : Nat) (kind : QueueKind) (buckets : Nat) (sync : SyncMode) : Simulator K :=
  { identity, scheduler := .empty kind buckets, sync }

/-! ### Scheduling -/

/-- Store an event `delay` from now. -/
def insert (context : ContextId) (delay : Time) (task : Task K) (s : Simulator K) :
    EventId × Simulator K :=
  let (sequence, sequences) := s.sequences.draw
  let ev : Event (Task K) := { key := ⟨s.now + delay, sequence⟩, context, task }
  let (id, scheduler) := s.scheduler.insert ev
  (id, { s with scheduler := scheduler, sequences := sequences })

/-- Schedule an event `delay` from now under an explicit context. -/
def scheduleWith (context : ContextId) (delay : Time) (task : Task K) (s : Simulator K) :
    Except SimError EventId × Simulator K :=
  if s.phase = .destroyed then (.error .destroyed, s)
  else if delay.isNegative then (.error (.negativeDelay delay), s)
  else
    let (id, s) := s.insert context delay task
    (.ok id, s)

/-- Schedule an event `delay` from now under the current context. -/
def schedule (delay : Time) (task : Task K) (s : Simulator K) :
    Except SimError EventId × Simulator K :=
  s.scheduleWith s.context delay task

/-- Schedule an event now, behind all that is due now. -/
def scheduleNow (task : Task K) (s : Simulator K) : Except SimError EventId × Simulator K :=
  s.schedule .zero task

/-- Schedule a stop of the loop. -/
def stopAfter (delay : Time) (s : Simulator K) : Except SimError EventId × Simulator K :=
  s.scheduleWith .none delay .stop

/-- Register an event for teardown. -/
def scheduleDestroy (task : Task K) (s : Simulator K) : Except SimError EventId × Simulator K :=
  if s.phase = .destroyed then (.error .destroyed, s)
  else
    let (sequence, sequences) := s.sequences.draw
    (.ok (.destroy sequence),
      { s with teardown := s.teardown.push sequence task, sequences := sequences })

/-! ### Handles -/

/-- Cancel an event; tells whether anything was cancelled. -/
def cancel (id : EventId) (s : Simulator K) : Bool × Simulator K :=
  if id.isDetached then (false, s)
  else match id with
    | .destroy n =>
      let (b, teardown) := s.teardown.cancel n
      (b, { s with teardown := teardown })
    | .queued .. =>
      let (b, scheduler) := s.scheduler.cancel id
      (b, { s with scheduler := scheduler })

/-- Take an event away; tells whether anything was taken away. -/
def remove (id : EventId) (s : Simulator K) : Bool × Simulator K :=
  if id.isDetached then (false, s)
  else match id with
    | .destroy n =>
      let (b, teardown) := s.teardown.remove n
      (b, { s with teardown := teardown })
    | .queued .. =>
      let (ev, scheduler) := s.scheduler.remove id
      (ev.isSome, { s with scheduler := scheduler })

/-- Whether an event ran, was cancelled or taken away, or never was. -/
def isExpired (id : EventId) (s : Simulator K) : Bool :=
  id.isDetached || match id with
    | .destroy n => !s.teardown.isPending n
    | .queued .. => !s.scheduler.isPending id

/-- The time left until an event is due; zero for a handle that has expired. Teardown is as far
away as the clock can go. -/
def delayLeft (id : EventId) (s : Simulator K) : Time :=
  if s.isExpired id then .zero
  else match id with
    | .destroy _ => .never - s.now
    | .queued .. =>
      match s.scheduler.get? id with
      | none => .zero
      | some ev => ev.key.time - s.now

/-! ### State -/

/-- The number of stored events, cancelled ones included. -/
def pendingEvents (s : Simulator K) : Nat := s.scheduler.size

/-- Whether the loop was asked to stop. -/
def stopPending (s : Simulator K) : Bool := s.stopRequested || s.inbox.stop

/-- Whether nothing is left to run, or the loop was asked to stop. -/
def isFinished (s : Simulator K) : Bool :=
  s.stopPending || (s.scheduler.isEmpty && s.inbox.isEmpty)

/-- Ask the loop to stop after the current callback. -/
def stop (s : Simulator K) : Simulator K := { s with stopRequested := true }

/-- Move the pending events to a queue of another kind. -/
def setScheduler (kind : QueueKind) (s : Simulator K) : Simulator K :=
  { s with scheduler := s.scheduler.setKind kind }

/-- Narrow the window ahead of other partitions. -/
def boundLookahead (bound : Time) (s : Simulator K) : Simulator K :=
  { s with sync := s.sync.boundLookahead bound }

/-- Store the events that wait in the inbox, in the order in which they were accepted. -/
def drainInbox (s : Simulator K) : Simulator K :=
  if s.inbox.isEmpty then s
  else
    let (events, inbox) := s.inbox.takeAll
    events.foldl (fun s ev => (s.insert ev.context ev.delay ev.task).2) { s with inbox := inbox }

/-- The description of a simulator; its identity is not shown. -/
def describe (s : Simulator K) : String :=
  "Simulator \x7b instance: _, now: Time(" ++ toString s.now.ticks ++ "), context: ContextId("
    ++ toString s.context.raw.toNat ++ "), state: " ++ s.phase.name ++ ", scheduler: "
    ++ s.scheduler.describe ++ ", sync: " ++ s.sync.describe ++ ", event_count: "
    ++ toString s.eventCount ++ ", .. \x7d"

end Simulator

end EventKernel
