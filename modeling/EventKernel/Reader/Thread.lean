import EventKernel.Reader.Strategy
import EventKernel.Reader.WakePipe

/-!
# Reader threads

A reader thread waits for its descriptor or its wake-pipe, empties the wake-pipe, looks at the stop
flag, reads once, and hands what it read to a callback. This file has the states of a thread; its
steps, which also concern the reader it belongs to, are in `EventKernel.Reader.Basic`.
-/

namespace EventKernel

/-- Why a reader thread ended. -/
inductive ReaderExit where
  /-- A stop was asked for. -/
  | stopped
  /-- The end of file was reached. -/
  | endOfFile
  /-- Waiting or reading failed. -/
  | failed (e : Errno)
  deriving DecidableEq, Repr

/-- The name of an exit. -/
def ReaderExit.text : ReaderExit → String
  | stopped => "Stopped"
  | endOfFile => "Eof"
  | failed e => "Failed(" ++ e.name ++ ")"

/-- One thing that a callback does. What it gives to the outside is of type `E`. -/
inductive Effect (E : Type) where
  | emit (e : E)
  /-- Stop the reader whose thread runs the callback. -/
  | stop
  /-- Wait until the gate of the reader is open. -/
  | awaitGate
  /-- End the thread without a word. -/
  | panic

/-- How far a reader thread has come. -/
inductive ThreadStage (E : Type) where
  /-- About to wait. -/
  | polling
  /-- Waits for its descriptor or its wake-pipe. -/
  | waiting
  /-- Has waited; what it found. -/
  | woken (target : Readiness) (wake : Bool)
  /-- Is about to look at the stop flag. -/
  | checking (target : Readiness)
  /-- Is about to read. -/
  | reading
  /-- Runs the callback, of which the given rest is left. -/
  | calling (rest : List (Effect E))
  /-- Has left its loop and closed its end of the wake-pipe, but the exit is not yet known. -/
  | leaving (exit : ReaderExit)
  | ended

namespace ThreadStage

variable {E : Type}

def isEnded : ThreadStage E → Bool
  | ended => true
  | _ => false

def isLooping : ThreadStage E → Bool
  | leaving _ | ended => false
  | _ => true

/-- Whether the callback runs. -/
def isCalling : ThreadStage E → Bool
  | calling _ => true
  | _ => false

end ThreadStage

/-- What a reader is to read, and what to do with it. -/
structure ReadPlan (E : Type) where
  /-- The name of the descriptor. -/
  target : String
  strategy : Strategy := .single
  /-- What the callback does with a chunk. -/
  callback : List UInt8 → List (Effect E)

/-- A thread that carries out a plan. -/
structure ReaderThread (E : Type) where
  plan : ReadPlan E
  buffer : Buffer
  wakePipe : WakePipe := {}
  stage : ThreadStage E := .polling

end EventKernel
