import EventKernel.Event.Basic
import EventKernel.Reader.Thread

/-!
# Readers

A reader owns at most one thread at a time. Calls of `stop` can come from any thread, also from the
callback of the reader itself. A call takes the lock, raises the stop flag, wakes the thread, claims
the join and gives the lock back; then it waits for the thread to end and takes the lock once more to
make the reader idle. A call that finds another one at this work returns at once.

The thread and the calls of `stop` are actors that make one small step at a time, in any order.
-/

namespace EventKernel

/-- The states of a reader. -/
inductive ReaderState where
  /-- There is no thread. -/
  | idle
  /-- There is a thread, perhaps one that has ended. -/
  | running
  /-- A call of `stop` waits for the thread to end. -/
  | stopping
  deriving DecidableEq, Repr

def ReaderState.name : ReaderState → String
  | idle => "Idle"
  | running => "Running"
  | stopping => "Stopping"

/-- How far a call of `stop` has come. -/
inductive StopStage where
  /-- Wants the lock. -/
  | arriving
  /-- Has the lock and has raised the stop flag. -/
  | raised
  /-- Has the lock and has woken the thread. -/
  | woken
  /-- Waits for the thread to end. -/
  | joining
  /-- The thread has ended; wants the lock again. -/
  | joined
  | returned
  deriving DecidableEq, Repr

/-- A reader whose callbacks give values of type `E` to the outside. -/
structure Reader (E : Type) where
  /-- The number of bytes asked for in one read. -/
  bufferSize : Nat
  state : ReaderState := .idle
  /-- The name of the descriptor that is read. -/
  target : Option String := none
  /-- The latest thread, until it is joined. -/
  thread : Option (ReaderThread E) := none
  stopFlag : Bool := false
  /-- Why the latest thread ended. -/
  exit : Option ReaderExit := none
  /-- Whether a call of `stop` has the lock. -/
  locked : Bool := false
  /-- The calls of `stop`, in the order in which they came. -/
  stops : List StopStage := []
  /-- The latest teardown event, with the identity of its simulator. -/
  teardown : Option (Nat × EventId) := none
  /-- Whether callbacks that wait may go on. -/
  gateOpen : Bool := false

namespace Reader

variable {E : Type}

/-- An idle reader; it asks for at least one byte. -/
def create (bufferSize : Nat) : Reader E := { bufferSize := max bufferSize 1 }

/-- Start a thread. -/
def spawn (plan : ReadPlan E) (r : Reader E) : Reader E :=
  { r with
    state := .running
    target := some plan.target
    thread := some { plan, buffer := { size := r.bufferSize } }
    stopFlag := false
    exit := none }

/-- Change the thread, if there is one. -/
def updateThread (f : ReaderThread E → ReaderThread E) (r : Reader E) : Reader E :=
  { r with thread := r.thread.map f }

/-- Bring the thread to another stage. -/
def setStage (stage : ThreadStage E) (r : Reader E) : Reader E :=
  r.updateThread fun t => { t with stage }

/-- Whether there is no thread that could make a step any more. -/
def threadEnded (r : Reader E) : Bool :=
  match r.thread with
  | none => true
  | some t => t.stage.isEnded

/-! ### Steps of a call of `stop` -/

def raise (r : Reader E) : Reader E := { r with stopFlag := true }

/-- Wake the thread, unless its exit is known. -/
def wake (r : Reader E) : Reader E :=
  if r.exit.isSome then r else r.updateThread fun t => { t with wakePipe := t.wakePipe.wake }

/-- Become idle after the thread has ended. -/
def settleDown (r : Reader E) : Reader E :=
  { r with state := .idle, target := none, thread := none, stopFlag := false }

/-- The next step of a call of `stop`; nothing if it has to wait. -/
def stepStop (r : Reader E) : StopStage → Option (StopStage × Reader E)
  | .arriving =>
    if r.locked then none
    else if r.state = .running then some (.raised, { r.raise with locked := true })
    else some (.returned, r)
  | .raised => some (.woken, r.wake)
  | .woken => some (.joining, { r with state := .stopping, locked := false })
  | .joining =>
    if r.threadEnded then
      some (.joined, r.updateThread fun t =>
        { t with wakePipe := { t.wakePipe with writerOpen := false } })
    else none
  | .joined => if r.locked then none else some (.returned, r.settleDown)
  | .returned => none

/-- A step of the `i`-th call of `stop`. -/
def advanceStop (i : Nat) (r : Reader E) : Option (Reader E) := do
  let (stage, r) ← r.stepStop (← r.stops[i]?)
  return { r with stops := r.stops.set i stage }

def callStop (r : Reader E) : Reader E := { r with stops := r.stops ++ [.arriving] }

/-! ### Steps of the thread -/

/-- A stop asked for by the callback: the thread cannot wait for its own end. -/
def stopFromCallback (r : Reader E) : Reader E :=
  if r.state = .running then r.raise.wake else r

/-- What a step of a thread leads to. -/
structure ThreadStep (E : Type) where
  reader : Reader E
  descriptor : Descriptor
  /-- What the callback gave to the outside. -/
  emitted : Option E := none

def afterRead (plan : ReadPlan E) (buffer : Buffer) : ReadOutcome → ThreadStage E
  | .data n => .calling (plan.callback (buffer.take n))
  | .skip => .polling
  | .closed => .leaving .endOfFile
  | .failed e => .leaving (.failed e)

/-- The next step of the thread `t` of a reader, whose descriptor is `d`; nothing if it has to wait.
If waiting on descriptors is forbidden, it fails at the next attempt. -/
def stepThread (pollForbidden : Bool) (d : Descriptor) (t : ReaderThread E) (r : Reader E) :
    Option (ThreadStep E) :=
  match t.stage with
  | .polling =>
    let stage := if pollForbidden then .leaving (.failed .invalidArgument) else .waiting
    some ⟨r.setStage stage, d, none⟩
  | .waiting =>
    if d.readiness = .quiet && !t.wakePipe.isReady then none
    else some ⟨r.setStage (.woken d.readiness t.wakePipe.isReady), d, none⟩
  | .woken target false => some ⟨r.setStage (.checking target), d, none⟩
  | .woken target true =>
    let (drained, wakePipe) := t.wakePipe.drain
    let stage := if !drained && !r.stopFlag then .ended else .checking target
    some ⟨r.updateThread fun t => { t with wakePipe, stage }, d, none⟩
  | .checking target =>
    let stage :=
      if r.stopFlag then .leaving .stopped
      else match target with
        | .invalid => .leaving (.failed .badDescriptor)
        | .quiet => .polling
        | .ready => .reading
    some ⟨r.setStage stage, d, none⟩
  | .reading => do
    let (outcome, buffer, d) ← t.plan.strategy.read? d t.buffer
    let stage := afterRead t.plan buffer outcome
    return ⟨r.updateThread fun t => { t with buffer, stage }, d, none⟩
  | .calling [] => some ⟨r.setStage .polling, d, none⟩
  | .calling (.emit e :: rest) => some ⟨r.setStage (.calling rest), d, some e⟩
  | .calling (.stop :: rest) =>
    if r.locked then none else some ⟨r.stopFromCallback.setStage (.calling rest), d, none⟩
  | .calling (.awaitGate :: rest) =>
    if r.gateOpen then some ⟨r.setStage (.calling rest), d, none⟩ else none
  | .calling (.panic :: _) => some ⟨r.setStage .ended, d, none⟩
  | .leaving exit => some ⟨{ r with exit := some exit }.setStage .ended, d, none⟩
  | .ended => none

/-- A step of the thread of a reader, if it has one that need not wait. -/
def advanceThread (pollForbidden : Bool) (d : Descriptor) (r : Reader E) : Option (ThreadStep E) :=
  r.thread.bind fun t => r.stepThread pollForbidden d t

/-- A signal interrupts the waiting of the thread, which then waits anew. -/
def interrupt (r : Reader E) : Reader E :=
  r.updateThread fun t =>
    match t.stage with
    | .waiting => { t with stage := .polling }
    | _ => t

/-! ### Running until all actors wait -/

/-- A step of the first call of `stop` that need not wait. -/
def advanceSomeStop (r : Reader E) : Option (Reader E) :=
  (List.range r.stops.length).findSome? fun i => r.advanceStop i

/-- A step of a call of `stop`, or else of the thread. -/
def advance (pollForbidden : Bool) (d : Descriptor) (r : Reader E) : Option (ThreadStep E) :=
  match r.advanceSomeStop with
  | some r => some ⟨r, d, none⟩
  | none => r.advanceThread pollForbidden d

/-- Forget the calls of `stop` that have returned. -/
def forgetReturned (r : Reader E) : Reader E :=
  { r with stops := r.stops.filter fun s => s ≠ .returned }

/-- What a reader came to. -/
structure Settled (E : Type) where
  reader : Reader E
  descriptor : Descriptor
  emitted : Array E

/-- At most `n` steps, fewer if all actors wait; what is given to the outside is added to
`emitted`. -/
def settleFor (pollForbidden : Bool) :
    Nat → Reader E → Descriptor → Array E → Settled E
  | 0, r, d, emitted => ⟨r, d, emitted⟩
  | n + 1, r, d, emitted =>
    match r.advance pollForbidden d with
    | none => ⟨r, d, emitted⟩
    | some ⟨r, d, none⟩ => settleFor pollForbidden n r d emitted
    | some ⟨r, d, some e⟩ => settleFor pollForbidden n r d (emitted.push e)

/-- More steps than the actors of a reader can make before they all wait: each byte takes the thread
a few steps, and so does each call of `stop`. -/
def patience (d : Descriptor) (r : Reader E) : Nat := 16 * (d.available + r.stops.length + 4)

/-- Let the thread and the calls of `stop` go on until all of them wait. -/
def settle (pollForbidden : Bool) (d : Descriptor) (r : Reader E) : Settled E :=
  let a := settleFor pollForbidden (r.patience d) r d #[]
  { a with reader := a.reader.forgetReturned }

/-! ### Looking at a reader -/

/-- The description of a reader. -/
def describe (r : Reader E) : String :=
  "FdReader \x7b state: " ++ r.state.name ++ ", fd: "
    ++ (if r.target.isSome then "Some(_)" else "None") ++ ", buffer_size: "
    ++ toString r.bufferSize ++ ", .. \x7d"

end Reader

end EventKernel
