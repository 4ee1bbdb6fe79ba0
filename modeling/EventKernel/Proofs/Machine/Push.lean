import EventKernel.Proofs.Machine.Inbox

/-!
# Pushes from other threads

Other threads hand in events while the machine of a simulator runs. A push takes the lock of the
inbox, reads whether the inbox is closed, appends its event unless it is, and gives the lock back;
between any two of these steps all others can go on. The machine waits where it needs the lock
itself: when it empties or clears the inbox, looks into it, or hands in an event. It does not take
the lock to close the inbox.

A run is a list of actions, each of which is a step of one thread. Its history tells what was
accepted, and what became of it.
-/

namespace EventKernel

variable {K U : Type}

/-! ### Threads -/

/-- How far a push has come. -/
inductive PushStage where
  | waiting
  /-- It holds the lock. -/
  | locked
  /-- It has found the inbox open. -/
  | admitted
  /-- It has found the inbox closed. -/
  | refused
  | appended
  | returned (answer : Except SimError PUnit)

namespace PushStage

def holdsLock : PushStage → Bool
  | locked | admitted | refused | appended => true
  | waiting | returned _ => false

/-- Whether the event was appended. -/
def hasArrived : PushStage → Bool
  | appended | returned (.ok _) => true
  | waiting | locked | admitted | refused | returned (.error _) => false

/-- Whether the inbox was found open. -/
def isAdmitted : PushStage → Bool
  | admitted | appended | returned (.ok _) => true
  | waiting | locked | refused | returned (.error _) => false

end PushStage

/-- A push of another thread. -/
structure PushCall (K : Type) where
  context : ContextId
  delay : Time
  k : K
  stage : PushStage

/-- The event that a push hands in. -/
def PushCall.event (p : PushCall K) : RemoteEvent (Task K) := ⟨p.context, p.delay, .user p.k⟩

/-- A machine among other threads. -/
structure Concurrent (K U : Type) where
  machine : Machine K U
  /-- What the observer has yet to send before the machine goes on. -/
  unsent : List (Message K) := []
  /-- The pushes of other threads, in the order in which they were begun. -/
  calls : List (PushCall K) := []
  /-- The push that holds the lock. -/
  holder : Option Nat := none

/-- A step of some thread. -/
inductive Action (K U : Type) where
  /-- A thread begins to push. -/
  | call (context : ContextId) (delay : Time) (k : K)
  /-- A push goes on; while it waits for the lock, nothing happens. -/
  | advance (i : Nat)
  /-- The machine goes on; while it waits for the lock, nothing happens. -/
  | step
  /-- Another thread asks the loop to stop. -/
  | stop
  /-- The owner changes the memory and has a program carried out. -/
  | enter (f : Memory K U → Memory K U) (p : Program K U PUnit)

namespace Concurrent

/-- The push `i` comes to a stage. -/
def setStage (i : Nat) (call : PushCall K) (stage : PushStage) (c : Concurrent K U) :
    Concurrent K U :=
  { c with calls := c.calls.set i { call with stage := stage } }

/-- The event of a push is appended, whether the inbox is closed by now or not. -/
def append (ev : RemoteEvent (Task K)) (a : Machine K U) : Machine K U :=
  { a with sim := { a.sim with inbox :=
    { a.sim.inbox with events := a.sim.inbox.events.push ev } } }

/-- A push makes its next step. -/
def advance (i : Nat) (c : Concurrent K U) : Concurrent K U :=
  match c.calls[i]? with
  | none => c
  | some call =>
    match call.stage with
    | .waiting => if c.holder.isSome then c else { c.setStage i call .locked with holder := some i }
    | .locked => c.setStage i call (if c.machine.sim.inbox.closed then .refused else .admitted)
    | .admitted => { c.setStage i call .appended with machine := append call.event c.machine }
    | .refused => { c.setStage i call (.returned (.error .destroyed)) with holder := none }
    | .appended => { c.setStage i call (.returned (.ok ())) with holder := none }
    | .returned _ => c

/-- Whether the next step of the machine has to wait for the lock. -/
def waits (c : Concurrent K U) : Bool :=
  c.holder.isSome &&
    match c.unsent with
    | [] => c.machine.stack.head?.any (·.locks c.machine.sim)
    | msg :: _ => !(msg.handsIn c.machine.sim.identity).isEmpty

/-- The machine makes a step, or its observer sends a message. -/
def goOn (code : Code K U) (c : Concurrent K U) : Concurrent K U :=
  match c.unsent with
  | [] => { c with
      machine := Machine.move code.mute c.machine .step, unsent := c.machine.messages code }
  | msg :: msgs => { c with machine := c.machine.post [msg], unsent := msgs }

/-- The stage a push begins with. -/
def firstStage (delay : Time) : PushStage :=
  if delay.isNegative then .returned (.error (.negativeDelay delay)) else .waiting

def act (code : Code K U) (c : Concurrent K U) : Action K U → Concurrent K U
  | .call context delay k =>
    { c with calls := c.calls ++ [⟨context, delay, k, firstStage delay⟩] }
  | .advance i => c.advance i
  | .step => if c.waits then c else c.goOn code
  | .stop => { c with machine := Machine.move code.mute c.machine (.remote .stop) }
  | .enter f p => { c with machine := Machine.move code.mute c.machine (.enter f p) }

/-- Actions in turn. -/
def play (code : Code K U) (acts : List (Action K U)) (c : Concurrent K U) : Concurrent K U :=
  acts.foldl (act code) c

@[simp] lemma play_nil (code : Code K U) (c : Concurrent K U) : play code [] c = c := rfl

@[simp] lemma play_cons (code : Code K U) (x : Action K U) (acts : List (Action K U))
    (c : Concurrent K U) : play code (x :: acts) c = play code acts (act code c x) := rfl

end Concurrent

/-! ### Histories -/

/-- What happened in a run, in order. -/
structure History (K : Type) where
  /-- The events that were appended to the inbox, with the pushes of other threads they came
  from. -/
  accepted : List (Option Nat × RemoteEvent (Task K)) := []
  /-- The events from the inbox that were stored. -/
  inserted : List (Insertion K) := []
  /-- The events in the inbox that were dropped. -/
  discarded : List (RemoteEvent (Task K)) := []
  /-- The turns of events. -/
  turns : List (Turn K) := []
  /-- The events that were taken off the queue. -/
  taken : List (EventId × Event (Task K)) := []

namespace History

instance : Append (History K) where
  append h h' := {
    accepted := h.accepted ++ h'.accepted
    inserted := h.inserted ++ h'.inserted
    discarded := h.discarded ++ h'.discarded
    turns := h.turns ++ h'.turns
    taken := h.taken ++ h'.taken }

variable (h h' h'' : History K)

@[simp] lemma accepted_append : (h ++ h').accepted = h.accepted ++ h'.accepted := rfl

@[simp] lemma inserted_append : (h ++ h').inserted = h.inserted ++ h'.inserted := rfl

@[simp] lemma discarded_append : (h ++ h').discarded = h.discarded ++ h'.discarded := rfl

@[simp] lemma turns_append : (h ++ h').turns = h.turns ++ h'.turns := rfl

@[simp] lemma taken_append : (h ++ h').taken = h.taken ++ h'.taken := rfl

lemma nil_append : {} ++ h = h := rfl

lemma append_nil : h ++ {} = h := by
  show History.mk _ _ _ _ _ = _
  simp

lemma append_assoc : h ++ h' ++ h'' = h ++ (h' ++ h'') := by
  show History.mk _ _ _ _ _ = History.mk _ _ _ _ _
  simp

end History

/-- The events among those handed in that an inbox accepts. -/
def Inbox.admits (b : Inbox (Task K)) (evs : List (RemoteEvent (Task K))) :
    List (Option Nat × RemoteEvent (Task K)) :=
  if b.closed then [] else evs.map (none, ·)

/-- What happens in a step of a machine. -/
def Machine.tells (a : Machine K U) : Move K U → History K
  | .step => {
      accepted := a.sim.inbox.admits (a.stack.head?.toList.flatMap (·.handsIn a.sim))
      inserted := a.stack.head?.toList.flatMap (·.inserts a.sim)
      discarded := a.stack.head?.toList.flatMap (·.discards a.sim)
      turns := a.turns .step
      taken := a.taken?.toList }
  | .remote _ | .enter _ _ => {}

namespace Concurrent

/-- What happens in an action. -/
def tells (c : Concurrent K U) : Action K U → History K
  | .advance i =>
    match c.calls[i]? with
    | some ⟨context, delay, k, .admitted⟩ => { accepted := [(some i, ⟨context, delay, .user k⟩)] }
    | _ => {}
  | .step =>
    if c.waits then {}
    else match c.unsent with
      | [] => c.machine.tells .step
      | msg :: _ => { accepted := c.machine.sim.inbox.admits (msg.handsIn c.machine.sim.identity) }
  | .call .. | .stop | .enter _ _ => {}

/-- What happens in a run. -/
def history (code : Code K U) : List (Action K U) → Concurrent K U → History K
  | [], _ => {}
  | x :: acts, c => c.tells x ++ history code acts (act code c x)

/-! ### What an action comes to -/

/-- The outcomes of an action, each with what happens in it. -/
inductive Effect (code : Code K U) (c : Concurrent K U) : History K → Concurrent K U → Prop where
  | idle : Effect code c {} c
  | call (context : ContextId) (delay : Time) (k : K) :
      Effect code c {} { c with calls := c.calls ++ [⟨context, delay, k, firstStage delay⟩] }
  | lock {i : Nat} {call : PushCall K} (hi : c.calls[i]? = some call)
      (hstage : call.stage = .waiting) (hfree : c.holder = none) :
      Effect code c {} { c.setStage i call .locked with holder := some i }
  | pass {i : Nat} {call : PushCall K} (hi : c.calls[i]? = some call)
      (hstage : call.stage = .locked) (hopen : c.machine.sim.inbox.closed = false) :
      Effect code c {} (c.setStage i call .admitted)
  | refuse {i : Nat} {call : PushCall K} (hi : c.calls[i]? = some call)
      (hstage : call.stage = .locked) (hclosed : c.machine.sim.inbox.closed = true) :
      Effect code c {} (c.setStage i call .refused)
  | append {i : Nat} {call : PushCall K} (hi : c.calls[i]? = some call)
      (hstage : call.stage = .admitted) :
      Effect code c { accepted := [(some i, call.event)] }
        { c.setStage i call .appended with machine := append call.event c.machine }
  | accept {i : Nat} {call : PushCall K} (hi : c.calls[i]? = some call)
      (hstage : call.stage = .appended) :
      Effect code c {} { c.setStage i call (.returned (.ok ())) with holder := none }
  | reject {i : Nat} {call : PushCall K} (hi : c.calls[i]? = some call)
      (hstage : call.stage = .refused) :
      Effect code c {} { c.setStage i call (.returned (.error .destroyed)) with holder := none }
  | send {msg : Message K} {msgs : List (Message K)} (hunsent : c.unsent = msg :: msgs) :
      Effect code c
        { accepted := c.machine.sim.inbox.admits (msg.handsIn c.machine.sim.identity) }
        { c with machine := c.machine.post [msg], unsent := msgs }
  | move {mv : Move K U} (unsent : List (Message K))
      (hmv : mv = .step ∨ mv = .remote .stop ∨ ∃ f p, mv = .enter f p)
      (hlock : ∀ rest, mv = .step → c.machine.stack = .clear :: rest → c.holder = none) :
      Effect code c (c.machine.tells mv)
        { c with machine := Machine.move code.mute c.machine mv, unsent := unsent }

lemma effect_advance (code : Code K U) (c : Concurrent K U) (i : Nat) :
    Effect code c (c.tells (.advance i)) (c.advance i) := by
  rw [tells, advance]
  cases hi : c.calls[i]? with
  | none => exact .idle
  | some call =>
    obtain ⟨context, delay, k, stage⟩ := call
    cases stage with
    | waiting =>
      dsimp only
      split
      · exact .idle
      · next hfree => exact .lock hi rfl (by simpa using hfree)
    | locked =>
      cases hclosed : c.machine.sim.inbox.closed with
      | true => exact .refuse hi rfl hclosed
      | false => exact .pass hi rfl hclosed
    | admitted => exact .append hi rfl
    | refused => exact .reject hi rfl
    | appended => exact .accept hi rfl
    | returned answer => exact .idle

lemma effect_act (code : Code K U) (c : Concurrent K U) (x : Action K U) :
    Effect code c (c.tells x) (act code c x) := by
  cases x with
  | call context delay k => exact .call context delay k
  | advance i => exact c.effect_advance code i
  | stop => exact .move c.unsent (Or.inr (Or.inl rfl)) fun rest hstep => by cases hstep
  | enter f p => exact .move c.unsent (Or.inr (Or.inr ⟨f, p, rfl⟩)) fun rest hstep => by cases hstep
  | step =>
    rw [act, tells]
    split
    · exact .idle
    · next hwaits =>
      rw [goOn]
      cases hunsent : c.unsent with
      | cons msg msgs => exact .send hunsent
      | nil =>
        refine .move _ (Or.inl rfl) ?_
        intro rest _ hstack
        rw [waits, hunsent, hstack] at hwaits
        cases hholder : c.holder with
        | none => rfl
        | some i =>
          rw [hholder] at hwaits
          exact absurd rfl hwaits

/-! ### What passes through the inbox -/

/-- The events that wait in the inbox. -/
def waiting (c : Concurrent K U) : List (RemoteEvent (Task K)) := c.machine.sim.inbox.events.toList

/-- Whether the inbox is closed. -/
def isClosed (c : Concurrent K U) : Bool := c.machine.sim.inbox.closed

lemma map_admits (b : Inbox (Task K)) (evs : List (RemoteEvent (Task K))) :
    (b.admits evs).map (·.2) = if b.closed then [] else evs := by
  rw [Inbox.admits]
  split
  · rfl
  · simp

variable {code : Code K U} {c c' : Concurrent K U} {more : History K}

lemma passes_step (code : Code K U) (a : Machine K U) :
    a.sim.inbox.events.toList ++ (a.tells .step).accepted.map (·.2) =
      (a.tells .step).inserted.map (·.event) ++ (a.tells .step).discarded ++
        (Machine.step code.mute a).sim.inbox.events.toList ∧
    (a.sim.inbox.closed = true → (Machine.step code.mute a).sim.inbox.closed = true) := by
  obtain ⟨s, m, stack, broken⟩ := a
  rw [Machine.tells, map_admits]
  cases stack with
  | nil => exact ⟨by simp [Machine.step], id⟩
  | cons f rest =>
    have hpasses := Machine.passes_stepFrame code f s m rest
    simp only [List.head?_cons, Option.toList_some, List.flatMap_singleton]
    exact ⟨hpasses.events, hpasses.closed⟩

/-- Whatever waits or is accepted in an action is stored, or dropped, or waits now, in this order;
and a closed inbox stays closed. -/
lemma Effect.passes (h : Effect code c more c') :
    c.waiting ++ more.accepted.map (·.2) =
      more.inserted.map (·.event) ++ more.discarded ++ c'.waiting ∧
    (c.isClosed = true → c'.isClosed = true) := by
  cases h with
  | idle | call | lock | pass | refuse | accept | reject => exact ⟨List.append_nil _, id⟩
  | append => exact ⟨Array.toList_push.symm, id⟩
  | @send msg =>
    have hgains := Machine.gains_post msg c.machine
    refine ⟨?_, ?_⟩
    · rw [map_admits]
      exact hgains.events.symm
    · rw [isClosed, isClosed, hgains.closed]
      exact id
  | move unsent hmv =>
    rcases hmv with rfl | rfl | ⟨f, p, rfl⟩
    · exact passes_step code c.machine
    · exact ⟨List.append_nil _, id⟩
    · rw [waiting, waiting, isClosed, isClosed, Machine.move]
      split
      · exact ⟨List.append_nil _, id⟩
      · exact ⟨List.append_nil _, id⟩

lemma isClosed_play (code : Code K U) (acts : List (Action K U)) (h : c.isClosed = true) :
    (play code acts c).isClosed = true := by
  induction acts generalizing c with
  | nil => exact h
  | cons x acts ih => exact ih ((c.effect_act code x).passes.2 h)

/-! ### Without interleaving -/

lemma setStage_last (a : Machine K U) (unsent : List (Message K)) (calls : List (PushCall K))
    (p : PushCall K) (holder : Option Nat) (stage : PushStage) :
    setStage calls.length p stage ⟨a, unsent, calls ++ [p], holder⟩ =
      ⟨a, unsent, calls ++ [{ p with stage := stage }], holder⟩ := by
  simp [setStage]

/-- A push that no other thread comes in between hands in its event at once. -/
theorem play_push (code : Code K U) (hfree : c.holder = none) (context : ContextId) (delay : Time)
    (k : K) :
    let push := c.machine.sim.inbox.push ⟨context, delay, .user k⟩
    play code (.call context delay k :: List.replicate 4 (.advance c.calls.length)) c =
      { c with
        machine := { c.machine with sim := { c.machine.sim with inbox := push.2 } }
        calls := c.calls ++ [⟨context, delay, k, .returned push.1⟩] } := by
  obtain ⟨a, unsent, calls, holder⟩ := c
  obtain rfl : holder = none := hfree
  cases hneg : delay.isNegative with
  | true => simp [List.replicate, act, advance, Inbox.push, firstStage, hneg]
  | false =>
    simp only [List.replicate, play_cons, play_nil, act, firstStage, Inbox.push, hneg]
    cases hclosed : a.sim.inbox.closed with
    | true => simp [advance, setStage_last, hclosed]
    | false => simp [advance, setStage_last, hclosed, append, PushCall.event]

lemma play_unsent (code : Code K U) (hfree : c.holder = none) :
    play code (List.replicate c.unsent.length .step) c =
      { c with machine := c.machine.post c.unsent, unsent := [] } := by
  obtain ⟨a, unsent, calls, holder⟩ := c
  obtain rfl : holder = none := hfree
  induction unsent generalizing a with
  | nil => rfl
  | cons msg msgs ih =>
    rw [a.post_cons]
    exact ih (a.post [msg])

/-- Steps of the machine that no other thread comes in between are those of the machine alone. -/
theorem play_step {keys : List EventKey} (h : c.machine.sim.Timely keys) (hfree : c.holder = none)
    (hunsent : c.unsent = []) :
    play code (List.replicate ((c.machine.messages code).length + 1) .step) c =
      { c with machine := Machine.step code c.machine } := by
  obtain ⟨a, unsent, calls, holder⟩ := c
  obtain rfl : holder = none := hfree
  obtain rfl : unsent = [] := hunsent
  rw [Machine.step_eq_post code h, List.replicate_succ, play_cons]
  exact play_unsent code (c := ⟨Machine.step code.mute a, a.messages code, calls, none⟩) rfl

end Concurrent

end EventKernel
