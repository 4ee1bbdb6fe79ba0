import EventKernel.Command.Relay
import EventKernel.Proofs.Fleet.View

/-!
# A relay among threads

The loop of a relay runs its simulator and then looks whether the reader has ended. If so, it runs
the simulator once more and is left; else it sleeps and starts over. Meanwhile the thread of the
reader goes on, and between any two steps of the loop it hands in a chunk or makes its end known;
the input changes, reads give fewer bytes than there are, waiting fails, and signals interrupt the
thread.
-/

namespace EventKernel

namespace Relay

/-- The loop of the simulator, run once. -/
def oneRun : Program RelayCode State PUnit := .run fun _ => .done ()

/-- The task that a chunk becomes. -/
def printing (chunk : List UInt8) : Task RelayCode :=
  .user (.print (String.ofList (decodeLenient chunk)))

def isPrinting : Task RelayCode → Bool
  | .user (.print _) => true
  | _ => false

/-- Where the loop of a relay is. -/
inductive Place where
  /-- About to run the simulator, perhaps still asleep. -/
  | ahead
  /-- In a run of the simulator; whether it is the last one. -/
  | running (last : Bool)
  /-- About to look whether the reader has ended. -/
  | looking
  | left
  deriving DecidableEq

/-- A relay among threads. It also keeps a record of the chunks that the reader has delivered, and
of the events that were taken off the queue. -/
structure Session where
  world : Stage
  place : Place := .ahead
  /-- What is left to do in the current run. -/
  stack : List (Frame RelayCode State) := []
  delivered : List (List UInt8) := []
  dispatched : List (EventId × Event (Task RelayCode)) := []

/-- The simulator and the reader of a relay that has just started them. -/
def opening (sim : Simulator RelayCode) (r : Resolution) (bufferSize : Nat) (input : Descriptor)
    (context : ContextId) : Stage :=
  let state : State := { resolution := r, reader := .create bufferSize, input }
  let w : Stage := { memory := { user := state } }
  (w.add (some sim)).perform code 0 (begin context)

namespace Session

variable (latency : Time) (context : ContextId)

/-- Start a run of the simulator. -/
def enter (last : Bool) (x : Session) : Session :=
  { x with place := .running last, stack := [.exec oneRun] }

/-- A step of a run of the simulator. -/
def stepRun (frame : Frame RelayCode State) (frames : List (Frame RelayCode State))
    (s : Simulator RelayCode) (x : Session) : Session :=
  let a : Machine RelayCode State := ⟨s, x.world.memory, frame :: frames, false⟩
  let b := Machine.step code a
  { x with
    world := x.world.put 0 b.sim b.memory
    stack := b.stack
    dispatched := x.dispatched ++ a.taken?.toList }

/-- A step of the loop. -/
def stepLoop (x : Session) : Session :=
  match x.place with
  | .ahead => x.enter false
  | .running last =>
    match x.stack, x.world.sim? 0 with
    | [], _ => { x with place := if last then .left else .looking }
    | _ :: _, none => x
    | frame :: frames, some s => x.stepRun frame frames s
  | .looking => if x.world.user.reader.exit.isSome then x.enter true else { x with place := .ahead }
  | .left => x

/-- A step of the thread of the reader, whose next read gives so many bytes at most. -/
def stepReader (limit : Nat) (pollForbidden : Bool) (x : Session) : Session :=
  let s := x.world.user
  match s.reader.thread with
  | none => x
  | some t =>
    match s.reader.stepThread pollForbidden s.input (t.curb limit) with
    | none => x
    | some step =>
      let w := x.world.modifyUser fun s =>
        { s with reader := step.reader, input := step.descriptor }
      { x with
        world := step.emitted.toList.foldl (forward latency context) w
        delivered := x.delivered ++ step.emitted.toList }

/-- What can happen to a relay. -/
inductive Action where
  /-- The loop goes on. -/
  | loop
  /-- The thread goes on. A read gives so many bytes at most, and waiting may be forbidden. -/
  | reader (limit : Nat) (pollForbidden : Bool)
  /-- A signal interrupts the thread. -/
  | interrupt
  /-- The input changes. -/
  | change (f : Descriptor → Descriptor)

def act (x : Session) : Action → Session
  | .loop => x.stepLoop
  | .reader limit pollForbidden => x.stepReader latency context limit pollForbidden
  | .interrupt =>
    { x with world := x.world.modifyUser fun s => { s with reader := s.reader.interrupt } }
  | .change f => { x with world := x.world.modifyUser fun s => { s with input := f s.input } }

/-- Actions in turn. -/
def play (acts : List Action) (x : Session) : Session := acts.foldl (act latency context) x

/-- What some actions write to the input, and whether it is open before and behind them. They write
to it only while it is open, and change it in no other way but to close it. -/
inductive Brings : Bool → List Action → List UInt8 → Bool → Prop where
  | nothing (isOpen : Bool) : Brings isOpen [] [] isOpen
  | loop {acts : List Action} {before behind : Bool} {bytes : List UInt8}
      (h : Brings before acts bytes behind) : Brings before (.loop :: acts) bytes behind
  | reader {acts : List Action} {before behind : Bool} {bytes : List UInt8} (limit : Nat)
      (pollForbidden : Bool) (h : Brings before acts bytes behind) :
      Brings before (.reader limit pollForbidden :: acts) bytes behind
  | interrupt {acts : List Action} {before behind : Bool} {bytes : List UInt8}
      (h : Brings before acts bytes behind) : Brings before (.interrupt :: acts) bytes behind
  | write {acts : List Action} {behind : Bool} {bytes : List UInt8} (piece : List UInt8)
      (h : Brings true acts bytes behind) :
      Brings true (.change (·.write piece) :: acts) (piece ++ bytes) behind
  | close {acts : List Action} {behind : Bool} {bytes : List UInt8}
      (h : Brings false acts bytes behind) : Brings true (.change (·.close) :: acts) bytes behind

/-- Actions that do not change the input bring nothing. -/
lemma Brings.undisturbed {acts : List Action} (h : ∀ f, .change f ∉ acts) (isOpen : Bool) :
    Brings isOpen acts [] isOpen := by
  induction acts with
  | nil => exact .nothing isOpen
  | cons y acts ih =>
    have hacts := ih fun f hf => h f (List.mem_cons_of_mem y hf)
    cases y with
    | loop => exact .loop hacts
    | reader limit pollForbidden => exact .reader limit pollForbidden hacts
    | interrupt => exact .interrupt hacts
    | change f => exact absurd List.mem_cons_self (h f)

lemma Brings.append {acts acts' : List Action} {before between behind : Bool}
    {bytes bytes' : List UInt8} (h : Brings before acts bytes between)
    (h' : Brings between acts' bytes' behind) :
    Brings before (acts ++ acts') (bytes ++ bytes') behind := by
  induction h with
  | nothing => exact h'
  | loop _ ih => exact .loop (ih h')
  | reader limit pollForbidden _ ih => exact .reader limit pollForbidden (ih h')
  | interrupt _ ih => exact .interrupt (ih h')
  | write piece _ ih =>
    rw [List.append_assoc]
    exact .write piece (ih h')
  | close _ ih => exact .close (ih h')

end Session

end Relay

end EventKernel
