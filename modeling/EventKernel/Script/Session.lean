import EventKernel.Machine.Basic
import EventKernel.Script.Action
import EventKernel.Script.Answer
import EventKernel.Script.Names

/-!
# Carrying out actions

An action is a program for the simulator at hand. A callback that fires logs that it fires and then
carries out its actions, logging the answer of each.
-/

namespace EventKernel.Script

/-! ### The log -/

/-- An entry in the log of callbacks. -/
inductive LogItem where
  /-- A callback fired. -/
  | fire (name : String) (now : Time) (context : ContextId)
  /-- An action of a callback was carried out. -/
  | did (a : Action) (answer : Answer)
  /-- An observer was told of an event. -/
  | observed (id : EventId) (time : Time) (context : ContextId)
  | text (s : String)

/-! ### The state of a script -/

/-- The code of a script. -/
inductive Callback where
  /-- A callback that logs its name when it fires. -/
  | fire (name : String) (body : Body)
  /-- Actions that are performed at once. -/
  | perform (body : Body)
  /-- An observer, with the number of its countdown if it has a limit. -/
  | observer (countdown : Option Nat)

/-- What a script keeps besides simulators and timers. -/
structure Session where
  resolution : Resolution
  handles : Names EventId := {}
  /-- The simulators whose inboxes are kept under names. -/
  remotes : Names Nat := {}
  watchdogs : Names Nat := {}
  trickles : Names Nat := {}
  /-- How many events each observer with a limit still waits for. -/
  countdowns : Array Nat := #[]
  log : Array LogItem := #[]
  /-- The answer of the action at top level. -/
  answer : Answer := .nothing

abbrev ActionProgram (α : Type) := Program Callback Session α

namespace Session

def handle (s : Session) (name : String) : EventId := s.handles.getD name .detached

/-- Add an entry to the log. -/
def note (item : LogItem) (s : Session) : Session := { s with log := s.log.push item }

end Session

/-! ### Answers of requests -/

/-- The answer for a request that a simulator may refuse. -/
def answerOf {α : Type} (f : α → Answer) : Except SimError α → ActionProgram Answer
  | .ok a => return f a
  | .error e => do
    let s ← Program.load
    let (answer, resolution) := Answer.refused e s.resolution
    Program.store { s with resolution := resolution }
    return answer

/-- The answer for a request that can be refused and has no result. -/
def okOrRefused (result : Except SimError PUnit) : ActionProgram Answer := answerOf (fun _ => .ok) result

/-- The answer for a scheduled event; its handle is kept under a name. -/
def bindHandle (name : String) (result : Except SimError EventId) : ActionProgram Answer := do
  if let .ok id := result then
    Program.modify fun s => { s with handles := s.handles.insert name id }
  answerOf (fun id => .text id.text) result

def printTime (t : Time) : ActionProgram String := do
  let s ← Program.load
  let (text, resolution) := t.print s.resolution
  Program.store { s with resolution := resolution }
  return text

/-- The answer to a question about time. -/
def Answer.ofTime : TimeAnswer → Answer
  | .unit u => text u.suffix
  | .chosen (.ok _) => ok
  | .chosen (.error e) => failure .frozen e.message
  | .time t => time t
  | .time? t => ofOption time t
  | .number n => number n
  | .real x => real x
  | .flags a b c => list [flag a, flag b, flag c]
  | .ordering .lt => number (-1)
  | .ordering .eq => number 0
  | .ordering .gt => number 1
  | .text s => text s
  | .times ts => list (ts.map time)

/-! ### Looking at a simulator -/

/-- What a simulator tells about itself. -/
def look : ActionProgram Answer := do
  let now ← printTime (← Program.sim .now)
  let context : ContextId ← Program.sim .context
  let phase : Phase ← Program.sim .phase
  let kind : QueueKind ← Program.sim .kind
  let sync : SyncMode ← Program.sim .sync
  let count : Nat ← Program.sim .eventCount
  let pending : Nat ← Program.sim .pendingEvents
  let finished : Bool ← Program.sim .isFinished
  return .record
    [("now", .text now), ("ctx", .text context.text), ("state", .text phase.name),
     ("kind", .text kind.text), ("system_id", .number sync.systemId.toNat),
     ("sync", .text sync.name), ("lookahead", .time sync.lookahead), ("max", .time .never),
     ("count", .number count), ("pending", .number pending), ("finished", .flag finished)]

/-! ### Timers -/

/-- Make a request to the watchdog a name stands for. -/
def askWatchdog (name : String) (r : WatchdogRequest Callback) (f : r.Reply → ActionProgram Answer) :
    ActionProgram Answer := do
  let s ← Program.load
  match s.watchdogs[name]? with
  | none => return .missing .noWatchdog
  | some w =>
    match ← (Program.request (.watchdog w r) : ActionProgram (Option r.Reply)) with
    | none => return .missing .noWatchdog
    | some a => f a

/-- Make a request to the trickle timer a name stands for. -/
def askTrickle (name : String) (r : TrickleRequest Callback) (f : r.Reply → ActionProgram Answer) :
    ActionProgram Answer := do
  let s ← Program.load
  match s.trickles[name]? with
  | none => return .missing .noTrickle
  | some t =>
    match ← (Program.request (.trickle t r) : ActionProgram (Option r.Reply)) with
    | none => return .missing .noTrickle
    | some a => f a

/-- Drop the watchdog a name stands for, if there is one. -/
def dropWatchdog (name : String) : ActionProgram PUnit := do
  let s ← Program.load
  if let some w := s.watchdogs[name]? then
    Program.request (.dropWatchdog w)
    Program.store { s with watchdogs := s.watchdogs.erase name }

/-- Drop the trickle timer a name stands for, if there is one. -/
def dropTrickle (name : String) : ActionProgram PUnit := do
  let s ← Program.load
  if let some t := s.trickles[name]? then
    Program.request (.dropTrickle t)
    Program.store { s with trickles := s.trickles.erase name }

/-- The code that runs when the watchdog with a name expires. -/
def watchdogCode (name : String) (body : Body) : Callback := .fire ("wd:" ++ name) body

/-- The code that runs when the trickle timer with a name fires. -/
def trickleCode (name : String) (body : Body) : Callback := .fire ("tr:" ++ name) body

def countConsistent (t : Nat) : Nat → ActionProgram PUnit
  | 0 => return
  | n + 1 => do
    let _ : Option PUnit ← Program.request (.trickle t .consistent)
    countConsistent t n

/-! ### Inboxes -/

/-- Make a request to the inbox kept under a name, or to that of the simulator at hand. -/
def askInbox (via : Option String) (r : InboxRequest Callback) : ActionProgram r.Reply := do
  let own : Nat ← Program.sim .identity
  let s ← Program.load
  let target := (via.bind (s.remotes[·]?)).getD own
  Program.inbox target r

/-! ### Actions -/

def carryOut : Action → ActionProgram Answer
  | .schedule name delay body => do
    bindHandle name (← Program.sim (.schedule delay (.fire name body)))
  | .scheduleNow name body => do
    bindHandle name (← Program.sim (.scheduleNow (.fire name body)))
  | .scheduleWith name context delay body => do
    bindHandle name (← Program.sim (.scheduleWith context delay (.fire name body)))
  | .scheduleDestroy name body => do
    bindHandle name (← Program.sim (.scheduleDestroy (.fire name body)))
  | .stopAfter name delay => do bindHandle name (← Program.sim (.stopAfter delay))
  | .cancel name => do
    let s ← Program.load
    return .flag (← Program.sim (.cancel (s.handle name)))
  | .remove name => do
    let s ← Program.load
    return .flag (← Program.sim (.remove (s.handle name)))
  | .isExpired name => do
    let s ← Program.load
    return .flag (← Program.sim (.isExpired (s.handle name)))
  | .delayLeft name => do
    let s ← Program.load
    return .time (← Program.sim (.delayLeft (s.handle name)))
  | .showHandle name => do
    let s ← Program.load
    let id := s.handle name
    return .list [.text id.text, .number id.sequence, .flag id.isDetached, .flag id.isDestroy]
  | .sameHandle a b => do
    let s ← Program.load
    return .flag (s.handle a = s.handle b)
  | .run => .run okOrRefused
  | .destroy => .destroy okOrRefused
  | .stop => do
    Program.sim .stop
    return .nothing
  | .look => look
  | .setScheduler kind => do
    Program.sim (.setScheduler kind)
    return .nothing
  | .boundLookahead bound => do return .time (← Program.sim (.boundLookahead bound))
  | .observe limit => do
    let s ← Program.load
    match limit with
    | none => Program.sim (.observe (some (.observer none)))
    | some n =>
      Program.store { s with countdowns := s.countdowns.push n }
      Program.sim (.observe (some (.observer (some s.countdowns.size))))
    return .nothing
  | .unobserve => do
    Program.sim (.observe none)
    return .nothing
  | .keepRemote name => do
    let own : Nat ← Program.sim .identity
    Program.modify fun s => { s with remotes := s.remotes.insert name own }
    return .nothing
  | .remoteSchedule name via context delay body => do
    okOrRefused (← askInbox via (.schedule context delay (.fire name body)))
  | .remoteStop via => do
    askInbox via .stop
    return .nothing
  | .remoteClosed via => do return .flag (← askInbox via .isClosed)
  | .remoteDescribe via => do return .text (← askInbox via .describe)
  | .describe => do return .text (← Program.sim .describe)
  | .log text => do
    Program.modify (·.note (.text text))
    return .nothing
  | .perform body => .perform (.perform body) fun _ => .done .nothing
  | .newWatchdog name body => do
    dropWatchdog name
    let w : Nat ← Program.request (.newWatchdog (watchdogCode name body))
    Program.modify fun s => { s with watchdogs := s.watchdogs.insert name w }
    return .nothing
  | .setWatchdogFunction name body =>
    askWatchdog name (.setFunction (watchdogCode name body)) fun _ => return .nothing
  | .pingWatchdog name delay => askWatchdog name (.ping delay) okOrRefused
  | .cancelWatchdog name => askWatchdog name .cancel fun _ => return .nothing
  | .lookAtWatchdog name =>
    askWatchdog name .info fun (pending, deadline) => return .list [.flag pending, .time deadline]
  | .dropWatchdog name => do
    dropWatchdog name
    return .nothing
  | .newTrickle name minInterval doublings redundancy seed => do
    dropTrickle name
    let t : Nat ← Program.request (.newTrickle minInterval doublings redundancy seed)
    Program.modify fun s => { s with trickles := s.trickles.insert name t }
    return .nothing
  | .setTrickleFunction name body =>
    askTrickle name (.setFunction (trickleCode name body)) fun _ => return .nothing
  | .enableTrickle name => askTrickle name .enable okOrRefused
  | .resetTrickle name => askTrickle name .reset okOrRefused
  | .inconsistent name => askTrickle name .inconsistent okOrRefused
  | .consistent name times => do
    let s ← Program.load
    if let some t := s.trickles[name]? then countConsistent t times
    askTrickle name .info fun (info : TrickleInfo) => return .number info.counter.toNat
  | .stopTrickle name => askTrickle name .stop fun _ => return .nothing
  | .lookAtTrickle name =>
    askTrickle name .info fun (info : TrickleInfo) =>
      return .list [.flag info.isRunning, .time info.interval, .time info.maxInterval,
        .number info.counter.toNat]
  | .dropTrickle name => do
    dropTrickle name
    return .nothing
  | .askTime q => do
    let s ← Program.load
    let (a, resolution) := q.answer s.resolution
    Program.store { s with resolution := resolution }
    return .ofTime a

/-- Carry out an action of a callback and log its answer. -/
def carryOutLogged (a : Action) : ActionProgram PUnit := do
  let answer ← carryOut a
  Program.modify (·.note (.did a answer))

/-! ### The code of callbacks -/

def Body.actions (procedures : Names (List Action)) : Body → List Action
  | inPlace actions => actions
  | procedure name => procedures.getD name []

/-- What a callback does. -/
def routine (procedures : Names (List Action)) : Callback → ActionProgram PUnit
  | .fire name body => do
    let now : Time ← Program.sim .now
    let context : ContextId ← Program.sim .context
    Program.modify (·.note (.fire name now context))
    Program.forEach carryOutLogged (body.actions procedures)
  | .perform body => Program.forEach carryOutLogged (body.actions procedures)
  | .observer _ => return

/-- What an observer does with an event on the simulator `own`. -/
def observe (k : Callback) (own : Nat) (info : EventInfo) (s : Session) :
    Session × List (Message Callback) :=
  let s := s.note (.observed info.id info.time info.context)
  match k with
  | .observer (some i) =>
    let left := s.countdowns.getD i 0 - 1
    ({ s with countdowns := s.countdowns.setIfInBounds i left }, if left = 0 then [.stop own] else [])
  | _ => (s, [])

def code (procedures : Names (List Action)) : Code Callback Session where
  routine := routine procedures
  observe := observe

end EventKernel.Script
