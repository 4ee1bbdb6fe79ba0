import EventKernel.Config.Basic
import EventKernel.Machine.World
import EventKernel.Script.Session

/-!
# Scripts for simulators

A script builds simulators, drives them one after the other, and drops them. Each step is answered,
together with what the callbacks logged and the status of a simulator.
-/

namespace EventKernel.Script

/-- Which simulator to build. -/
inductive Blueprint where
  | ofKind (kind : QueueKind)
  | ofConfig (c : Config)

/-- A step of a script. -/
inductive Step where
  | newSim (b : Blueprint)
  | dropSim (i : Nat)
  /-- Whether the identities of the living simulators increase. -/
  | identitiesIncrease
  | showConfig (c : Config)
  /-- Ask about time. -/
  | askTime (q : TimeQuestion)
  | act (i : Nat) (a : Action)

/-- What can be seen of a simulator between steps. -/
structure Status where
  now : Time
  context : ContextId
  phase : Phase
  pending : Nat
  count : Nat
  finished : Bool

/-- What can be seen of a simulator. -/
def Status.ofSim {K : Type} (s : Simulator K) : Status where
  now := s.now
  context := s.context
  phase := s.phase
  pending := s.pendingEvents
  count := s.eventCount
  finished := s.isFinished

/-- What a step came to. -/
structure Outcome where
  answer : Answer
  status : Option Status
  log : List LogItem

/-- The simulators of a script. -/
abbrev Stage := World Callback Session

namespace Stage

def empty (r : Resolution) : Stage := { memory := { user := { resolution := r } } }

/-- Set the answer of a step. -/
def answering (a : Answer) (w : Stage) : Stage := w.modifyUser fun s => { s with answer := a }

def build (identity : Nat) (r : Resolution) :
    Blueprint → Except SimError (Simulator Callback) × Resolution
  | .ofKind kind => (.ok (.create identity kind Scheduler.defaultBuckets .sequential), r.settle)
  | .ofConfig c => Simulator.ofConfig identity c r

/-- Add a simulator, or a gap if its construction fails. -/
def addSim (b : Blueprint) (w : Stage) : Stage :=
  let i := w.sims.size
  match build i w.user.resolution b with
  | (.ok s, r) =>
    (w.add (some s)).modifyUser fun u => { u with resolution := r, answer := .number i }
  | (.error e, r) =>
    let (answer, r) := Answer.refused e r
    (w.add none).modifyUser fun u => { u with resolution := r, answer := answer }

def carryOut (code : Code Callback Session) (w : Stage) : Step → Stage
  | .newSim b => w.addSim b
  | .dropSim i => answering .nothing (w.drop code i)
  | .identitiesIncrease => w.answering (.flag (World.increasing w.identities))
  | .showConfig c => w.answering (.config c)
  | .askTime q =>
    let (a, r) := q.answer w.user.resolution
    w.modifyUser fun u => { u with answer := .ofTime a, resolution := r }
  | .act i a =>
    match w.sim? i with
    | none => w.answering (.missing .noSimulator)
    | some _ =>
      w.perform code i ((Script.carryOut a).bind fun answer =>
        Program.modify fun s => { s with answer := answer })

def takeLog (w : Stage) : List LogItem × Stage :=
  (w.user.log.toList, w.modifyUser fun s => { s with log := #[] })

/-- Carry out a step and report it; `i` is the simulator whose status is reported, the newest one
if it is absent. -/
def step (code : Code Callback Session) (w : Stage) (i : Option Nat) (st : Step) :
    Outcome × Stage :=
  let (log, w) := (w.carryOut code st).takeLog
  let status := (w.sim? (i.getD (w.sims.size - 1))).map Status.ofSim
  (⟨w.user.answer, status, log⟩, w)

/-- Carry out steps in turn. -/
def steps (code : Code Callback Session) (w : Stage) :
    List (Option Nat × Step) → List Outcome × Stage
  | [] => ([], w)
  | (i, st) :: rest =>
    let (o, w) := w.step code i st
    let (os, w) := steps code w rest
    (o :: os, w)

/-- Drop all simulators in the order of their numbers; what their callbacks log. -/
def finish (code : Code Callback Session) (w : Stage) : List LogItem :=
  (takeLog ((List.range w.sims.size).foldl (fun w i => w.drop code i) w)).1

end Stage

/-- The report of a whole script: its steps, and the log of the end, when all simulators are
dropped. -/
structure Transcript where
  outcomes : List Outcome
  atEnd : List LogItem

/-- Carry out a script. Each step comes with the number of the simulator to report on. -/
def play (procedures : Names (List Action)) (r : Resolution) (script : List (Option Nat × Step)) :
    Transcript :=
  let code := code procedures
  let (outcomes, w) := (Stage.empty r).steps code script
  ⟨outcomes, w.finish code⟩

end EventKernel.Script
