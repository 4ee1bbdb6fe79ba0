import EventKernel.Machine.Program

/-!
# The machine

The loop of a simulator as a machine of small steps. Its state is the simulator, the memory of the
callbacks, and a stack of frames that says what remains to be done, the next thing on top. The loop
is a frame below the callback it dispatched, so a callback that asks for a run or for teardown puts
further frames on the stack.

One step empties the inbox, takes one event off the queue, or makes one request of a callback.
-/

namespace EventKernel

/-- What remains to be done. -/
inductive Frame (K U : Type) where
  /-- The rest of a program. -/
  | exec (p : Program K U PUnit)
  /-- The start of a task. -/
  | task (t : Task K)
  /-- A round of the loop: empty the inbox. -/
  | loop
  /-- A round of the loop: take the next event, unless a stop is asked for. -/
  | next
  /-- Give the context back that was current before a callback. -/
  | restore (context : ContextId)
  /-- Give a watchdog its function back. -/
  | rearmWatchdog (w : Nat) (k : K)
  /-- Give a trickle timer its function back. -/
  | rearmTrickle (t : Nat) (k : K)
  /-- Teardown: start the next teardown event. -/
  | teardown
  /-- Teardown: close the inbox. -/
  | close
  /-- Teardown: drop what is left. -/
  | clear

/-- A state of the machine. -/
structure Machine (K U : Type) where
  sim : Simulator K
  memory : Memory K U
  stack : List (Frame K U)
  /-- Whether an event was found that lies before the clock. -/
  broken : Bool := false

namespace Machine

variable {K U : Type}

/-- Send the messages of an observer. -/
def send (s : Simulator K) (m : Memory K U) : List (Message K) → Simulator K × Memory K U
  | [] => (s, m)
  | .schedule target context delay k :: ms =>
    let (_, s, m) := m.askInbox target (.schedule context delay k) s
    send s m ms
  | .stop target :: ms =>
    let (_, s, m) := m.askInbox target .stop s
    send s m ms

/-- Tell the observer of the simulator about an event. -/
def notify (code : Code K U) (info : EventInfo) (s : Simulator K) (m : Memory K U) :
    Simulator K × Memory K U :=
  match s.observer with
  | none => (s, m)
  | some k =>
    let (user, messages) := code.observe k s.identity info m.user
    send s { m with user := user } messages

def start (code : Code K U) (t : Task K) (s : Simulator K) (m : Memory K U)
    (rest : List (Frame K U)) : Machine K U :=
  match t with
  | .user k => ⟨s, m, .exec (code.routine k) :: rest, false⟩
  | .stop => ⟨s.stop, m, rest, false⟩
  | .watchdog w =>
    match m.watchdog? w with
    | none => ⟨s, m, rest, false⟩
    | some d =>
      match d.expire w s with
      | (none, d, s) => ⟨s, m.setWatchdog w (some d), rest, false⟩
      | (some k, d, s) =>
        ⟨s, m.setWatchdog w (some d), .exec (code.routine k) :: .rearmWatchdog w k :: rest, false⟩
  | .trickleInterval t =>
    match m.trickle? t with
    | none => ⟨s, m, rest, false⟩
    | some d =>
      let (d, s) := d.endInterval t s
      ⟨s, m.setTrickle t (some d), rest, false⟩
  | .trickleFire t =>
    match m.trickle? t with
    | none => ⟨s, m, rest, false⟩
    | some d =>
      match d.fire with
      | (none, d) => ⟨s, m.setTrickle t (some d), rest, false⟩
      | (some k, d) =>
        ⟨s, m.setTrickle t (some d), .exec (code.routine k) :: .rearmTrickle t k :: rest, false⟩

/-- Leave the loop. A request to stop does not outlive it. -/
def finishRun (s : Simulator K) : Simulator K :=
  { s with stopRequested := false, inbox := s.inbox.clearStop, phase := .stopped }

/-- Dispatch an event that was taken off the queue. The clock advances to its time even if it was
cancelled; only a live one is counted, observed and started. -/
def dispatch (code : Code K U) (id : EventId) (ev : Event (Task K)) (s : Simulator K)
    (m : Memory K U) (rest : List (Frame K U)) : Machine K U :=
  if ev.key.time < s.now then ⟨s, m, [], true⟩
  else
    let s := { s with now := ev.key.time }
    if ev.cancelled then ⟨s, m, .loop :: rest, false⟩
    else
      let (s, m) := notify code ⟨id, ev.key.time, ev.context⟩ s m
      let saved := s.context
      ⟨{ s with context := ev.context, eventCount := s.eventCount + 1 }, m,
        .task ev.task :: .restore saved :: .loop :: rest, false⟩

/-- Take the next event and dispatch it, or leave the loop. -/
def takeNext (code : Code K U) (s : Simulator K) (m : Memory K U) (rest : List (Frame K U)) :
    Machine K U :=
  if s.stopPending then ⟨finishRun s, m, rest, false⟩
  else
    let (found, scheduler) := s.scheduler.removeNext
    let s := { s with scheduler := scheduler }
    match found with
    | none => ⟨finishRun s, m, rest, false⟩
    | some (id, ev) => dispatch code id ev s m rest

/-- Make one step of a program. -/
def exec (p : Program K U PUnit) (s : Simulator K) (m : Memory K U) (rest : List (Frame K U)) :
    Machine K U :=
  match p with
  | .done _ => ⟨s, m, rest, false⟩
  | .ask r next =>
    let (a, s, m) := r.apply s m
    ⟨s, m, .exec (next a) :: rest, false⟩
  | .perform k next => ⟨s, m, .task (.user k) :: .exec (next ()) :: rest, false⟩
  | .run next =>
    match s.phase with
    | .running => ⟨s, m, .exec (next (.error .alreadyRunning)) :: rest, false⟩
    | .destroyed => ⟨s, m, .exec (next (.error .destroyed)) :: rest, false⟩
    | .notRunning | .stopped =>
      ⟨{ s with phase := .running }, m, .loop :: .exec (next (.ok ())) :: rest, false⟩
  | .destroy next =>
    match s.phase with
    | .running => ⟨s, m, .exec (next (.error .notStopped)) :: rest, false⟩
    | .destroyed => ⟨s, m, .exec (next (.error .destroyed)) :: rest, false⟩
    | .notRunning | .stopped =>
      ⟨{ s with context := .none }, m, .teardown :: .exec (next (.ok ())) :: rest, false⟩

/-- Start the next teardown event, or go on to close the inbox. -/
def nextTeardown (s : Simulator K) (m : Memory K U) (rest : List (Frame K U)) : Machine K U :=
  let (found, teardown) := s.teardown.popLive
  let s := { s with teardown := teardown }
  match found with
  | some ev => ⟨s, m, .task ev.task :: .teardown :: rest, false⟩
  | none => ⟨s, m, .close :: rest, false⟩

/-- Do what one frame asks for. -/
def stepFrame (code : Code K U) (f : Frame K U) (s : Simulator K) (m : Memory K U)
    (rest : List (Frame K U)) : Machine K U :=
  match f with
  | .exec p => exec p s m rest
  | .task t => start code t s m rest
  | .loop => ⟨s.drainInbox, m, .next :: rest, false⟩
  | .next => takeNext code s m rest
  | .restore context => ⟨{ s with context := context }, m, rest, false⟩
  | .rearmWatchdog w k => ⟨s, m.setWatchdog w ((m.watchdog? w).map (·.restore k)), rest, false⟩
  | .rearmTrickle t k => ⟨s, m.setTrickle t ((m.trickle? t).map (·.restore k)), rest, false⟩
  | .teardown => nextTeardown s m rest
  | .close => ⟨{ s with phase := .destroyed, inbox := s.inbox.close }, m, .clear :: rest, false⟩
  | .clear =>
    ⟨{ s with inbox := s.inbox.clear, teardown := [], scheduler := s.scheduler.clear }, m, rest,
      false⟩

/-- One step; a machine with nothing left to do stays as it is. -/
def step (code : Code K U) : Machine K U → Machine K U
  | ⟨s, m, [], broken⟩ => ⟨s, m, [], broken⟩
  | ⟨s, m, f :: rest, _⟩ => stepFrame code f s m rest

/-- Whether nothing is left to do. -/
def isDone (a : Machine K U) : Bool := a.stack.isEmpty

/-- At most `n` steps, fewer if nothing is left to do. -/
def runFor (code : Code K U) : Nat → Machine K U → Machine K U
  | 0, a => a
  | n + 1, a => if a.isDone then a else runFor code n (step code a)

/-- The machine that is about to carry out a program. -/
def load (s : Simulator K) (m : Memory K U) (p : Program K U PUnit) : Machine K U :=
  { sim := s, memory := m, stack := [.exec p] }

end Machine

end EventKernel
