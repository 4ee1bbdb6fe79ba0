import EventKernel.Config.Basic
import EventKernel.Machine.World
import EventKernel.Reader.Start
import EventKernel.Text.Utf8

/-!
# The relay

A reader takes chunks from an input and hands each to a simulator, which prints it some virtual time
later. The loop is run again and again until the reader has seen the end of the input.

What is printed here is what the relay itself prints. The log is left out: its lines carry the time
of day, and the console writes those that its levels let through to the standard output as well. At
the default level this is one line of a relay, the warning of its reader that the descriptor was
closed by its peer, which may stand anywhere in front of the summary. With `--reader-log-level error`
there is no such line, and the standard output is what is printed here.
-/

namespace EventKernel

/-- Why a command fails. -/
inductive CommandError where
  /-- The simulator could not be built. -/
  | noSimulator (message : String)
  | negativeLatency
  | badConfig (e : ConfigError)

/-- The text about a command that failed. -/
def CommandError.message : CommandError → String
  | noSimulator message => "building simulator\n\nCaused by:\n    " ++ message
  | negativeLatency => "latency must not be negative"
  | badConfig e => e.message

namespace Relay

/-- The code of a relay. -/
inductive RelayCode where
  /-- Print a chunk. -/
  | print (text : String)
  /-- Count the events of a context. -/
  | count (context : ContextId)
  /-- Stop the reader. -/
  | teardown

/-- What a relay keeps besides its simulator. -/
structure State where
  resolution : Resolution
  /-- The reader; its callback gives each chunk to the outside. -/
  reader : Reader (List UInt8)
  input : Descriptor := .pipe {}
  /-- The number of bytes that were read. -/
  bytes : Nat := 0
  /-- The number of events in the context of the relay. -/
  chunks : Nat := 0
  output : String := ""

/-- Print a chunk behind the time and the context. -/
def printChunk (text : String) : Program RelayCode State PUnit := do
  let now : Time ← Program.sim .now
  let context : ContextId ← Program.sim .context
  Program.modify fun s =>
    let (time, resolution) := now.print s.resolution
    { s with
      resolution := resolution
      output := s.output ++ ("[" ++ time ++ " " ++ context.text ++ "] ") ++ text }

/-- Stop the reader, which then reads nothing any more. -/
def stopReader (s : State) : State :=
  let a := s.reader.callStop.settle false s.input
  { s with reader := a.reader, input := a.descriptor }

def code : Code RelayCode State where
  routine
    | .print text => printChunk text
    | .count _ => return
    | .teardown => Program.modify stopReader
  observe k _ info s :=
    match k with
    | .count context => (if info.context = context then { s with chunks := s.chunks + 1 } else s, [])
    | _ => (s, [])

/-- The simulator and the reader of a relay. -/
abbrev Stage := World RelayCode State

/-- Hand a chunk to the simulator. -/
def forward (latency : Time) (context : ContextId) (w : Stage) (chunk : List UInt8) : Stage :=
  let text := String.ofList (decodeLenient chunk)
  (w.modifyUser fun s => { s with bytes := s.bytes + chunk.length }).deliver
    (.schedule 0 context latency (.print text))

/-- Change the input, and let the reader go on until it waits. -/
def afterInput (latency : Time) (context : ContextId) (f : Descriptor → Descriptor) (w : Stage) :
    Stage :=
  let s := w.user
  let a := s.reader.settle false (f s.input)
  a.emitted.foldl (forward latency context)
    (w.modifyUser fun s => { s with reader := a.reader, input := a.descriptor })

/-- Let pieces of the input arrive. -/
def arrive (latency : Time) (context : ContextId) (pieces : List (List UInt8)) (w : Stage) : Stage :=
  pieces.foldl (fun w piece => afterInput latency context (·.write piece) w) w

/-- More steps of the machine than a run can make: each event that waits takes a few steps, and none
schedules another one. -/
def stepLimit (w : Stage) : Nat :=
  match w.sim? 0 with
  | none => 0
  | some s => 16 * (s.inbox.events.size + s.pendingEvents + 1)

def runOnce (w : Stage) : Stage := w.performFor (stepLimit w) code 0 (.run fun _ => .done ())

/-- Run the loop again and again: before each of the first runs the pieces of a round arrive, and
before the last two the `last` pieces and the end of the input. -/
def runRounds (latency : Time) (context : ContextId) (last : List (List UInt8)) :
    List (List (List UInt8)) → Stage → Stage
  | [], w =>
    runOnce (runOnce (afterInput latency context (·.close) (arrive latency context last w)))
  | round :: rounds, w =>
    runRounds latency context last rounds (runOnce (arrive latency context round w))

/-- Start the reader and install the counter. -/
def begin (context : ContextId) : Program RelayCode State PUnit := do
  let s : State ← Program.load
  let (_, reader) ← s.reader.start .teardown false { target := "stdin", callback := fun c => [.emit c] }
  Program.store { s with reader := reader }
  Program.sim (.observe (some (.count context)))

/-- How the reader ended, as it is shown. -/
def showExit : Option ReaderExit → String
  | none => "None"
  | some e => "Some(" ++ e.text ++ ")"

/-- The last line of a relay. -/
def summary (now : Time) (s : State) : String :=
  "\nRelayed " ++ toString s.chunks ++ " chunks (" ++ toString s.bytes ++ " bytes), virtual time "
    ++ (now.print s.resolution).1 ++ " (" ++ showExit s.reader.exit ++ ")\n"

/-- Carry an input, which comes in pieces in rounds, through virtual time. The text is what the relay
prints; no line of the log is in it. -/
def relay (c : Config) (latencyMicros : Int) (context : ContextId)
    (rounds : List (List (List UInt8))) (last : List (List UInt8)) : Except CommandError String :=
  match Simulator.ofConfig 0 c none with
  | (.error e, r) => .error (.noSimulator (e.print r).1)
  | (.ok sim, r) =>
    let latency := Time.ofUnit r.unit latencyMicros .micros
    if latency.isNegative then .error .negativeLatency
    else
      let state : State := { resolution := r, reader := .create c.bufferSize.toNat }
      let w : Stage := { memory := { user := state } }
      let w := (w.add (some sim)).perform code 0 (begin context)
      let w := runRounds latency context last rounds w
      let now := ((w.sim? 0).map (·.now)).getD .zero
      .ok (w.user.output ++ summary now w.user)

end Relay

end EventKernel
