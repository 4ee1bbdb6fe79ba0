import EventKernel.Timer.Trickle
import EventKernel.Timer.Watchdog

/-!
# What a callback can ask for

A callback works on the simulator that runs it, on timers, on the inboxes of simulators, and on a
state of its own. Each request is answered at once; the type of its answer is `Reply`, and `apply`
gives the answer and the effect. Asking for a whole run or for teardown is not a request, since
other callbacks run before it is answered: see `EventKernel.Machine.Program`.
-/

namespace EventKernel

variable {K U : Type}

/-! ### Requests to the simulator -/

/-- A request to the simulator that runs the callback. -/
inductive SimRequest (K : Type) where
  | schedule (delay : Time) (k : K)
  | scheduleNow (k : K)
  | scheduleWith (context : ContextId) (delay : Time) (k : K)
  | scheduleDestroy (k : K)
  | stopAfter (delay : Time)
  | cancel (id : EventId)
  | remove (id : EventId)
  | isExpired (id : EventId)
  | delayLeft (id : EventId)
  | identity
  | now
  | context
  | phase
  | eventCount
  | pendingEvents
  | isFinished
  | stop
  | kind
  | setScheduler (kind : QueueKind)
  | sync
  | boundLookahead (bound : Time)
  | observe (observer : Option K)
  | describe

namespace SimRequest

def Reply : SimRequest K → Type
  | schedule .. | scheduleNow _ | scheduleWith .. | scheduleDestroy _ | stopAfter _ =>
    Except SimError EventId
  | cancel _ | remove _ | isExpired _ | isFinished => Bool
  | delayLeft _ | now | boundLookahead _ => Time
  | identity | eventCount | pendingEvents => Nat
  | context => ContextId
  | phase => Phase
  | stop | setScheduler _ | observe _ => PUnit
  | kind => QueueKind
  | sync => SyncMode
  | describe => String

/-- Answer a request. -/
def apply : (r : SimRequest K) → Simulator K → r.Reply × Simulator K
  | schedule delay k, s => s.schedule delay (.user k)
  | scheduleNow k, s => s.scheduleNow (.user k)
  | scheduleWith c delay k, s => s.scheduleWith c delay (.user k)
  | scheduleDestroy k, s => s.scheduleDestroy (.user k)
  | stopAfter delay, s => s.stopAfter delay
  | cancel id, s => s.cancel id
  | remove id, s => s.remove id
  | isExpired id, s => (s.isExpired id, s)
  | delayLeft id, s => (s.delayLeft id, s)
  | identity, s => (s.identity, s)
  | now, s => (s.now, s)
  | context, s => (s.context, s)
  | phase, s => (s.phase, s)
  | eventCount, s => (s.eventCount, s)
  | pendingEvents, s => (s.pendingEvents, s)
  | isFinished, s => (s.isFinished, s)
  | stop, s => ((), s.stop)
  | kind, s => (s.scheduler.kind, s)
  | setScheduler q, s => ((), s.setScheduler q)
  | sync, s => (s.sync, s)
  | boundLookahead bound, s =>
    let s := s.boundLookahead bound
    (s.sync.lookahead, s)
  | observe k, s => ((), { s with observer := k })
  | describe, s => (s.describe, s)

end SimRequest

/-! ### Requests to inboxes -/

/-- A request to an inbox. -/
inductive InboxRequest (K : Type) where
  | schedule (context : ContextId) (delay : Time) (k : K)
  | stop
  | isClosed
  | describe

namespace InboxRequest

def Reply : InboxRequest K → Type
  | schedule .. => Except SimError PUnit
  | stop => PUnit
  | isClosed => Bool
  | describe => String

/-- Answer a request. -/
def apply : (r : InboxRequest K) → Inbox (Task K) → r.Reply × Inbox (Task K)
  | schedule context delay k, b => b.push ⟨context, delay, .user k⟩
  | stop, b => ((), b.requestStop)
  | isClosed, b => (b.closed, b)
  | describe, b => (b.describeRemote, b)

end InboxRequest

/-! ### Requests to timers -/

/-- A request to a watchdog. -/
inductive WatchdogRequest (K : Type) where
  | setFunction (k : K)
  | ping (delay : Time)
  | cancel
  | info

namespace WatchdogRequest

def Reply : WatchdogRequest K → Type
  | setFunction _ | cancel => PUnit
  | ping _ => Except SimError PUnit
  | info => Bool × Time

def apply (self : Nat) : (r : WatchdogRequest K) → Watchdog K → Simulator K →
    r.Reply × Watchdog K × Simulator K
  | setFunction k, w, s => ((), w.setFunction k, s)
  | ping delay, w, s => w.ping self delay s
  | cancel, w, s => ((), w.cancel, s)
  | info, w, s => ((w.isPending s, w.deadline), w, s)

end WatchdogRequest

/-- A request to a trickle timer. -/
inductive TrickleRequest (K : Type) where
  | setFunction (k : K)
  | enable
  | reset
  | consistent
  | inconsistent
  | stop
  | info

/-- What a trickle timer tells about itself. -/
structure TrickleInfo where
  isRunning : Bool
  interval : Time
  maxInterval : Time
  counter : UInt16

namespace TrickleRequest

def Reply : TrickleRequest K → Type
  | setFunction _ | consistent | stop => PUnit
  | enable | reset | inconsistent => Except SimError PUnit
  | info => TrickleInfo

/-- Answer a request to the timer `self`. -/
def apply (self : Nat) : (r : TrickleRequest K) → Trickle K → Simulator K →
    r.Reply × Trickle K × Simulator K
  | setFunction k, t, s => ((), t.setFunction k, s)
  | enable, t, s => t.enable self s
  | reset, t, s => t.reset self s
  | consistent, t, s => ((), t.consistent, s)
  | inconsistent, t, s => t.inconsistent self s
  | stop, t, s => ((), t, t.stop s)
  | info, t, s => (⟨t.isRunning s, t.interval, t.maxInterval, t.counter⟩, t, s)

end TrickleRequest

/-! ### All requests -/

/-- What callbacks share besides the simulator that runs them. -/
structure Memory (K U : Type) where
  /-- The watchdogs, those dropped absent. -/
  watchdogs : Array (Option (Watchdog K)) := #[]
  /-- The trickle timers, those dropped absent. -/
  trickles : Array (Option (Trickle K)) := #[]
  /-- The inboxes of the simulators that do not run, by identity. -/
  inboxes : Array (Inbox (Task K)) := #[]
  /-- The state of the user. -/
  user : U

/-- A request of a callback. -/
inductive Request (K U : Type) where
  | sim (r : SimRequest K)
  | inbox (target : Nat) (r : InboxRequest K)
  | newWatchdog (k : K)
  | watchdog (w : Nat) (r : WatchdogRequest K)
  | dropWatchdog (w : Nat)
  | newTrickle (minInterval : Time) (doublings : Nat) (redundancy : UInt16) (seed : UInt64)
  | trickle (t : Nat) (r : TrickleRequest K)
  | dropTrickle (t : Nat)
  /-- Read the state of the user. -/
  | load
  /-- Change the state of the user. -/
  | update (f : U → U)

namespace Memory

/-- Answer a request to the inbox of the simulator `target`. The inbox of a running simulator is
its own; a simulator that never was has a closed one. -/
def askInbox (target : Nat) (r : InboxRequest K) (s : Simulator K) (m : Memory K U) :
    r.Reply × Simulator K × Memory K U :=
  if target = s.identity then
    let (a, inbox) := r.apply s.inbox
    (a, { s with inbox := inbox }, m)
  else
    let (a, inbox) := r.apply (m.inboxes.getD target .shut)
    (a, s, { m with inboxes := m.inboxes.setIfInBounds target inbox })

/-- The watchdog with a number. -/
def watchdog? (w : Nat) (m : Memory K U) : Option (Watchdog K) := (m.watchdogs[w]?).join

/-- Change the watchdog with a number. -/
def setWatchdog (w : Nat) (d : Option (Watchdog K)) (m : Memory K U) : Memory K U :=
  { m with watchdogs := m.watchdogs.setIfInBounds w d }

/-- The trickle timer with a number. -/
def trickle? (t : Nat) (m : Memory K U) : Option (Trickle K) := (m.trickles[t]?).join

/-- Change the trickle timer with a number. -/
def setTrickle (t : Nat) (d : Option (Trickle K)) (m : Memory K U) : Memory K U :=
  { m with trickles := m.trickles.setIfInBounds t d }

end Memory

namespace Request

/-- The type of the answer to a request; a timer that was dropped gives none. -/
def Reply : Request K U → Type
  | sim r => r.Reply
  | inbox _ r => r.Reply
  | newWatchdog _ | newTrickle .. => Nat
  | watchdog _ r => Option r.Reply
  | trickle _ r => Option r.Reply
  | dropWatchdog _ | dropTrickle _ | update _ => PUnit
  | load => U

/-- Answer a request. -/
def apply : (r : Request K U) → Simulator K → Memory K U → r.Reply × Simulator K × Memory K U
  | sim r, s, m =>
    let (a, s) := r.apply s
    (a, s, m)
  | inbox target r, s, m => m.askInbox target r s
  | newWatchdog k, s, m =>
    (m.watchdogs.size, s, { m with watchdogs := m.watchdogs.push (some (.create k)) })
  | watchdog w r, s, m =>
    match m.watchdog? w with
    | none => (none, s, m)
    | some d =>
      let (a, d, s) := r.apply w d s
      (some a, s, m.setWatchdog w (some d))
  | dropWatchdog w, s, m => ((), s, m.setWatchdog w none)
  | newTrickle minInterval doublings redundancy seed, s, m =>
    let t := Trickle.create minInterval doublings redundancy seed
    (m.trickles.size, s, { m with trickles := m.trickles.push (some t) })
  | trickle t r, s, m =>
    match m.trickle? t with
    | none => (none, s, m)
    | some d =>
      let (a, d, s) := r.apply t d s
      (some a, s, m.setTrickle t (some d))
  | dropTrickle t, s, m => ((), s, m.setTrickle t none)
  | load, s, m => (m.user, s, m)
  | update f, s, m => ((), s, { m with user := f m.user })

end Request

end EventKernel
