import EventKernel.Machine.World
import EventKernel.Reader.Start
import EventKernel.Script.Names

/-!
# Scripts for readers

A script makes pipes, readers and simulators, and drives them from one thread. After each step the
reader threads and the pending calls of `stop` go on until all of them wait, so that each answer is
determined.
-/

namespace EventKernel.Script

/-! ### Steps and replies -/

/-- What a callback does besides recording its chunk. -/
inductive Reaction where
  | nothing
  /-- Stop the own reader. -/
  | stop
  /-- Ask the simulator to stop. -/
  | stopSim
  /-- Hand the chunk to the simulator. -/
  | forward (context : ContextId) (delay : Time)
  /-- Panic after recording. -/
  | panic
  /-- After recording, wait for the gate. -/
  | gate

/-- How to damage a wake-pipe. -/
inductive Damage where
  | closed | unreadable | unwritable

/-- A step of a script. -/
inductive ReaderStep where
  | newSim
  | dropSim (i : Nat)
  | run (i : Nat)
  | destroy (i : Nat)
  | lookAtSim (i : Nat)
  /-- Register a teardown event that logs the state of readers. -/
  | marker (i : Nat) (readers : List String)
  | newPipe (pipe : String) (nonblocking : Bool)
  | write (pipe : String) (bytes : List UInt8)
  | close (pipe : String)
  /-- Read once into a buffer of the given size. If the read waits, the given bytes are written
  meanwhile, else after it. -/
  | read (pipe : String) (size : Nat) (arriving : List UInt8)
  | newReader (reader : String) (bufferSize : Nat)
  | dropReader (reader : String)
  | start (reader : String) (i : Nat) (target : String) (strategy : Strategy) (reaction : Reaction)
  | stop (reader : String)
  | look (reader : String)
  /-- Take the chunks that were recorded; whether they hold so many bytes in so many calls. -/
  | takeChunks (reader : String) (bytes calls : Nat)
  | describe (reader : String)
  | openGate (reader : String)
  | interrupt (reader : String)
  | damage (reader : String) (how : Damage)
  /-- Forbid or allow the process to open descriptors. -/
  | forbidOpening (b : Bool)
  | pause

/-- What can be seen of a reader. -/
structure ReaderInfo where
  state : ReaderState
  target : Option String
  exit : Option ReaderExit

/-- What can be seen of a reader. -/
def ReaderInfo.ofReader {E : Type} (r : Reader E) : ReaderInfo := ⟨r.state, r.target, r.exit⟩

/-- The reply to a step. -/
inductive ReaderReply where
  | nothing
  | ok
  | flag (b : Bool)
  | count (n : Nat)
  | text (s : String)
  | handle (id : EventId)
  /-- The outcome of a read, with the start of the buffer. -/
  | outcome (o : ReadOutcome) (bytes : List UInt8)
  | chunks (complete : Bool) (chunks : List (List UInt8))
  | info (i : ReaderInfo)
  | sim (now : Time) (phase : Phase) (pending count : Nat) (finished : Bool)
  | notStarted (e : StartError) (message : String)

/-- An entry in the log of callbacks. -/
inductive ReaderLogItem where
  | chunk (bytes : List UInt8) (now : Time) (context : ContextId)
  | marker (infos : List ReaderInfo)

/-! ### The state of a script -/

/-- The code of a script. -/
inductive ReaderCode where
  /-- Log a chunk. -/
  | chunk (bytes : List UInt8)
  /-- Stop the reader with a number. -/
  | teardown (r : Nat)
  /-- Log the state of readers. -/
  | marker (readers : List String)

/-- What a callback gives to the outside. -/
inductive Signal where
  /-- A chunk to be recorded. -/
  | chunk (bytes : List UInt8)
  /-- A message to a simulator. -/
  | message (m : Message ReaderCode)

namespace Signal

def chunk? : Signal → Option (List UInt8)
  | chunk bytes => some bytes
  | message _ => none

def message? : Signal → Option (Message ReaderCode)
  | chunk _ => none
  | message m => some m

end Signal

/-- A reader and the chunks that its callbacks recorded. -/
structure Recorder where
  reader : Reader Signal
  chunks : Array (List UInt8) := #[]

/-- What a script keeps besides simulators. -/
structure ReaderSession where
  resolution : Resolution
  descriptors : Names Descriptor := Std.HashMap.ofList [("dir", .directory)]
  /-- The readers, those dropped absent. -/
  recorders : Array (Option Recorder) := #[]
  /-- The numbers of the readers. -/
  names : Names Nat := {}
  openingForbidden : Bool := false
  /-- Messages that are still to be sent. -/
  outbox : Array (Message ReaderCode) := #[]
  log : Array ReaderLogItem := #[]
  /-- The reply to the step at hand. -/
  reply : ReaderReply := .nothing

namespace ReaderSession

def descriptor (s : ReaderSession) (name : String) : Descriptor := s.descriptors.getD name .absent

/-- Change the descriptor a name stands for. -/
def setDescriptor (name : String) (d : Descriptor) (s : ReaderSession) : ReaderSession :=
  match d with
  | .absent => s
  | d => { s with descriptors := s.descriptors.insert name d }

/-- The reader with a number. -/
def recorder? (s : ReaderSession) (r : Nat) : Option Recorder := (s.recorders[r]?).join

/-- The reader a name stands for, with its number. -/
def find? (s : ReaderSession) (name : String) : Option (Nat × Recorder) := do
  let r ← s.names[name]?
  return (r, ← s.recorder? r)

/-- Change the reader with a number. -/
def setRecorder (r : Nat) (c : Recorder) (s : ReaderSession) : ReaderSession :=
  { s with recorders := s.recorders.setIfInBounds r (some c) }

/-- Change the reader with a number. -/
def update (f : Reader Signal → Reader Signal) (r : Nat) (s : ReaderSession) : ReaderSession :=
  match s.recorder? r with
  | none => s
  | some c => s.setRecorder r { c with reader := f c.reader }

/-- Change the reader a name stands for. -/
def updateNamed (f : Reader Signal → Reader Signal) (name : String) (s : ReaderSession) :
    ReaderSession :=
  match s.names[name]? with
  | none => s
  | some r => s.update f r

/-- Let the actors of the reader with a number go on until all of them wait. Chunks are recorded, and
messages put into the outbox. -/
def settleOne (s : ReaderSession) (r : Nat) : ReaderSession :=
  match s.recorder? r with
  | none => s
  | some c =>
    let target := c.reader.target.getD ""
    let a := c.reader.settle s.openingForbidden (s.descriptor target)
    let c := { reader := a.reader, chunks := c.chunks ++ a.emitted.filterMap Signal.chunk? }
    let s := (s.setRecorder r c).setDescriptor target a.descriptor
    { s with outbox := s.outbox ++ a.emitted.filterMap Signal.message? }

/-- Let the actors of all readers go on until all of them wait. -/
def settle (s : ReaderSession) : ReaderSession :=
  (List.range s.recorders.size).foldl settleOne s

/-- Call `stop` of the reader with a number from outside of its thread. -/
def stop (r : Nat) (s : ReaderSession) : ReaderSession := (s.update Reader.callStop r).settleOne r

/-- Drop the reader a name stands for; this stops it. -/
def drop (name : String) (s : ReaderSession) : ReaderSession :=
  match s.names[name]? with
  | none => s
  | some r =>
    let s := s.stop r
    { s with recorders := s.recorders.setIfInBounds r none, names := s.names.erase name }

/-- Make a reader; one that had its name is dropped. -/
def add (name : String) (bufferSize : Nat) (s : ReaderSession) : ReaderSession :=
  let s := s.drop name
  { s with
    names := s.names.insert name s.recorders.size
    recorders := s.recorders.push (some { reader := .create bufferSize }) }

/-- What can be seen of the reader a name stands for. -/
def info? (s : ReaderSession) (name : String) : Option ReaderInfo :=
  (s.find? name).map fun (_, c) => .ofReader c.reader

/-- Reply with what can be seen of a reader. -/
def replyInfo (name : String) (s : ReaderSession) : ReaderSession :=
  { s with reply := ((s.info? name).map .info).getD .nothing }

/-- Reply with the outcome of a read and the start of its buffer. -/
def replyOutcome (o : ReadOutcome) (buffer : Buffer) (s : ReaderSession) : ReaderSession :=
  let bytes := match o with
    | .data n => buffer.take n
    | _ => []
  { s with reply := .outcome o bytes }

/-- Read once from the descriptor a name stands for, while bytes arrive. -/
def readOnce (name : String) (size : Nat) (arriving : List UInt8) (s : ReaderSession) :
    ReaderSession :=
  let d := s.descriptor name
  match Strategy.single.read? d ⟨size, []⟩ with
  | some (o, buffer, d) => (s.setDescriptor name (d.write arriving)).replyOutcome o buffer
  | none =>
    match Strategy.single.read? (d.write arriving) ⟨size, []⟩ with
    | some (o, buffer, d) => (s.setDescriptor name d).replyOutcome o buffer
    | none => s

/-- Take the chunks that the reader a name stands for has recorded. -/
def takeChunks (name : String) (bytes calls : Nat) (s : ReaderSession) : ReaderSession :=
  match s.find? name with
  | none => s
  | some (r, c) =>
    let chunks := c.chunks.toList
    let complete := bytes ≤ chunks.flatten.length && calls ≤ chunks.length
    { s.setRecorder r { c with chunks := #[] } with reply := .chunks complete chunks }

end ReaderSession

/-- Damage the wake-pipe of the running thread. -/
def Damage.apply {E : Type} (how : Damage) (r : Reader E) : Reader E :=
  r.updateThread fun t =>
    { t with wakePipe := match how with
      | .closed => { t.wakePipe with writerOpen := false }
      | .unreadable => { t.wakePipe with readable := false }
      | .unwritable => { t.wakePipe with writable := false } }

/-! ### The code of callbacks -/

abbrev ReaderScript (α : Type) := Program ReaderCode ReaderSession α

def Reaction.callback (sim : Nat) (bytes : List UInt8) : Reaction → List (Effect Signal)
  | nothing => [.emit (.chunk bytes)]
  | stop => [.stop, .emit (.chunk bytes)]
  | stopSim => [.emit (.message (.stop sim)), .emit (.chunk bytes)]
  | forward context delay =>
    [.emit (.message (.schedule sim context delay (.chunk bytes))), .emit (.chunk bytes)]
  | panic => [.emit (.chunk bytes), .panic]
  | gate => [.emit (.chunk bytes), .awaitGate]

/-- Send a message to a simulator; a refusal is ignored. -/
def sendMessage : Message ReaderCode → ReaderScript PUnit
  | .schedule target context delay k => do
    let _ : Except SimError PUnit ← Program.inbox target (.schedule context delay k)
  | .stop target => Program.inbox target .stop

def sendOutbox : ReaderScript PUnit := do
  let s ← Program.load
  Program.store { s with outbox := #[] }
  Program.forEach sendMessage s.outbox.toList

/-- What a callback of a simulator does. -/
def readerRoutine : ReaderCode → ReaderScript PUnit
  | .chunk bytes => do
    let now : Time ← Program.sim .now
    let context : ContextId ← Program.sim .context
    Program.modify fun s => { s with log := s.log.push (.chunk bytes now context) }
  | .teardown r => do
    Program.modify (·.stop r)
    sendOutbox
  | .marker readers =>
    Program.modify fun s => { s with log := s.log.push (.marker (readers.filterMap s.info?)) }

def readerCode : Code ReaderCode ReaderSession where
  routine := readerRoutine
  observe _ _ _ s := (s, [])

/-! ### Carrying out steps -/

/-- Reply to a request that a simulator may refuse. -/
def replyOrRefusal {α : Type} (f : α → ReaderReply) : Except SimError α → ReaderScript PUnit
  | .ok a => Program.modify fun s => { s with reply := f a }
  | .error e => Program.modify fun s =>
    let (message, resolution) := e.print s.resolution
    { s with reply := .notStarted (.refused e) message, resolution := resolution }

/-- Start the reader a name stands for on the simulator at hand. -/
def startReader (name target : String) (strategy : Strategy) (reaction : Reaction) :
    ReaderScript PUnit := do
  let s ← Program.load
  if let some (r, c) := s.find? name then
    let own : Nat ← Program.sim .identity
    let plan : ReadPlan Signal :=
      { target, strategy, callback := fun bytes => reaction.callback own bytes }
    let (result, reader) ← c.reader.start (.teardown r) s.openingForbidden plan
    Program.modify (·.setRecorder r { c with reader := reader })
    match result with
    | .ok _ => Program.modify fun s => { s with reply := .ok }
    | .error e => Program.modify fun s =>
      let (message, resolution) := e.print s.resolution
      { s with reply := .notStarted e message, resolution := resolution }

/-- Look at the simulator at hand. -/
def lookAtSim : ReaderScript PUnit := do
  let now : Time ← Program.sim .now
  let phase : Phase ← Program.sim .phase
  let pending : Nat ← Program.sim .pendingEvents
  let count : Nat ← Program.sim .eventCount
  let finished : Bool ← Program.sim .isFinished
  Program.modify fun s => { s with reply := .sim now phase pending count finished }

/-- The simulators, pipes and readers of a script. -/
abbrev ReaderStage := World ReaderCode ReaderSession

namespace ReaderStage

def empty : ReaderStage := { memory := { user := { resolution := some .nanos } } }

/-- Have the simulator `i` carry out a program. -/
def on (i : Nat) (p : ReaderScript PUnit) (w : ReaderStage) : ReaderStage :=
  w.perform readerCode i p

/-- Carry out a step, after which actors may be able to go on. -/
def carryOut (w : ReaderStage) : ReaderStep → ReaderStage
  | .newSim =>
    w.add (some (.create w.sims.size default Scheduler.defaultBuckets .sequential))
  | .dropSim i => w.drop readerCode i
  | .run i => on i (.run (replyOrRefusal fun _ => .ok)) w
  | .destroy i => on i (.destroy (replyOrRefusal fun _ => .ok)) w
  | .lookAtSim i => on i lookAtSim w
  | .marker i readers =>
    on i (do replyOrRefusal .handle (← Program.sim (.scheduleDestroy (.marker readers)))) w
  | .newPipe pipe nonblocking => w.modifyUser (·.setDescriptor pipe (.pipe ⟨[], true, nonblocking⟩))
  | .write pipe bytes => w.modifyUser fun s =>
    { s.setDescriptor pipe ((s.descriptor pipe).write bytes) with reply := .count bytes.length }
  | .close pipe => w.modifyUser fun s => s.setDescriptor pipe (s.descriptor pipe).close
  | .read pipe size arriving => w.modifyUser (·.readOnce pipe size arriving)
  | .newReader reader bufferSize => w.modifyUser (·.add reader bufferSize)
  | .dropReader reader => w.modifyUser (·.drop reader)
  | .start reader i target strategy reaction => on i (startReader reader target strategy reaction) w
  | .stop reader =>
    w.modifyUser fun s => ((s.updateNamed Reader.callStop reader).settle).replyInfo reader
  | .look reader => w.modifyUser (·.replyInfo reader)
  | .takeChunks reader bytes calls => w.modifyUser (·.takeChunks reader bytes calls)
  | .describe reader => w.modifyUser fun s =>
    { s with reply := ((s.find? reader).map fun (_, c) => .text c.reader.describe).getD .nothing }
  | .openGate reader => w.modifyUser (·.updateNamed (fun r => { r with gateOpen := true }) reader)
  | .interrupt reader => w.modifyUser (·.updateNamed Reader.interrupt reader)
  | .damage reader how => w.modifyUser fun s =>
    let reply := match how with
      | .closed => .flag true
      | .unreadable | .unwritable => .nothing
    { s.updateNamed how.apply reader with reply := reply }
  | .forbidOpening b => w.modifyUser fun s => { s with openingForbidden := b }
  | .pause => w

/-- Let all actors go on until they wait, and deliver what they send. -/
def settle (w : ReaderStage) : ReaderStage :=
  let w := w.modifyUser (·.settle)
  let outbox := w.user.outbox
  outbox.foldl World.deliver (w.modifyUser fun s => { s with outbox := #[] })

/-- Carry out a step; the reply and what callbacks logged. -/
def step (w : ReaderStage) (st : ReaderStep) :
    (ReaderReply × List ReaderLogItem) × ReaderStage :=
  let w := w.modifyUser fun s => { s with reply := .nothing, log := #[] }
  let w := settle (carryOut w st)
  ((w.user.reply, w.user.log.toList), w)

/-- Carry out steps in turn. -/
def steps (w : ReaderStage) : List ReaderStep → List (ReaderReply × List ReaderLogItem)
  | [] => []
  | st :: rest =>
    let (o, w) := step w st
    o :: steps w rest

end ReaderStage

/-- Carry out a script for readers. -/
def playReaders (script : List ReaderStep) : List (ReaderReply × List ReaderLogItem) :=
  ReaderStage.empty.steps script

end EventKernel.Script
