import Mathlib.Logic.Function.Basic
import Mathlib.Tactic.Lemma
import EventKernel.Reader.Start

/-!
# Readers among threads

Any number of threads start and stop a reader while its own thread reads. A call of `start` takes
the lock and keeps it until the reader knows the new thread, which may be far ahead by then; between
any two steps of one actor all others can go on. Meanwhile descriptors are written to and closed, a
read may give fewer bytes than there are, and waiting may fail.

A run is a list of actions, each of which is a step of one actor. What an action can come to is said
once, and everything that holds of runs is derived from that.
-/

namespace EventKernel

variable {E K U : Type}

/-! ### Calls -/

namespace StopStage

def holdsLock : StopStage → Bool
  | raised | woken => true
  | arriving | joining | joined | returned => false

/-- Whether it is this call that waits for the thread to end, and then makes the reader idle. -/
def ownsJoin : StopStage → Bool
  | joining | joined => true
  | arriving | raised | woken | returned => false

end StopStage

/-- How far a call of `start` has come. -/
inductive StartStage where
  /-- Wants the lock. -/
  | arriving
  /-- Has the lock, and has found the reader idle. -/
  | admitted
  /-- Has a wake-pipe, and the simulator is to stop the reader. -/
  | registered
  /-- Has lowered the stop flag. -/
  | lowered
  /-- Has forgotten why the thread before ended. -/
  | cleared
  /-- The new thread runs, but the reader does not know it yet. -/
  | spawned
  | returned (answer : Except StartError PUnit)
  /-- Has returned, because no thread could be made. -/
  | failed

namespace StartStage

def holdsLock : StartStage → Bool
  | admitted | registered | lowered | cleared | spawned => true
  | arriving | returned _ | failed => false

end StartStage

/-- A call of `start`. -/
structure StartCall (E : Type) where
  plan : ReadPlan E
  stage : StartStage := .arriving

/-- What a call of `start` is told by the system and the simulator. -/
inductive StartReply where
  /-- All goes well; the teardown event, if one was registered. -/
  | granted (renewed : Option (Nat × EventId))
  /-- There is no wake-pipe, or the simulator refuses. -/
  | refused (e : StartError)
  /-- No thread can be made. -/
  | noThread

namespace Reader

/-- A new thread runs. -/
def launch (plan : ReadPlan E) (r : Reader E) : Reader E :=
  { r with thread := some { plan, buffer := { size := r.bufferSize } } }

/-- The reader knows its new thread, and the lock is given back. -/
def publish (plan : ReadPlan E) (r : Reader E) : Reader E :=
  { r with state := .running, target := some plan.target, locked := false }

end Reader

/-- The strategy of a read that gives so many bytes at most, but at least one. -/
def Strategy.curb (limit : Nat) : Strategy → Strategy
  | single => atMost (max limit 1)
  | other => other

/-- A thread whose next read gives so many bytes at most, but at least one. -/
def ReaderThread.curb (limit : Nat) (t : ReaderThread E) : ReaderThread E :=
  { t with plan := { t.plan with strategy := t.plan.strategy.curb limit } }

/-! ### Actions -/

/-- A reader among threads. -/
structure SharedReader (E : Type) where
  reader : Reader E
  /-- The threads that the reader had before, in the order in which they were started. -/
  former : List (ReaderThread E) := []
  /-- The calls of `start`, in the order in which they came. -/
  starts : List (StartCall E) := []
  /-- What names stand for. -/
  descriptors : String → Descriptor

namespace SharedReader

/-- A reader without a thread, and without calls. -/
def idle (bufferSize : Nat) (descriptors : String → Descriptor) : SharedReader E where
  reader := .create bufferSize
  descriptors := descriptors

/-- All threads that were ever started, in this order. -/
def threads (a : SharedReader E) : List (ReaderThread E) := a.former ++ a.reader.thread.toList

/-- A step of some actor. Where it has to wait, nothing happens. -/
inductive Action (E : Type) where
  | callStop
  /-- A call of `stop` goes on. -/
  | stop (i : Nat)
  | callStart (plan : ReadPlan E)
  /-- A call of `start` goes on. -/
  | start (j : Nat) (reply : StartReply)
  /-- The thread goes on. A read gives so many bytes at most, and waiting may be forbidden. -/
  | thread (limit : Nat) (pollForbidden : Bool)
  /-- A signal interrupts the thread. -/
  | interrupt
  | openGate
  | write (name : String) (bytes : List UInt8)
  | close (name : String)

/-- A call of `stop` makes its next step. A thread that the reader gives up is a former one. -/
def advanceStop (i : Nat) (a : SharedReader E) : SharedReader E :=
  match a.reader.advanceStop i with
  | none => a
  | some r => { a with reader := r, former := if r.thread.isNone then a.threads else a.former }

/-- The next step of a call of `start`; nothing if it has to wait. -/
def stepStart (plan : ReadPlan E) (reply : StartReply) (a : SharedReader E) :
    StartStage → Option (StartStage × SharedReader E)
  | .arriving =>
    if a.reader.locked then none
    else match a.reader.obstacle? false plan.target with
      | some e => some (.returned (.error e), a)
      | none => some (.admitted, { a with reader := { a.reader with locked := true } })
  | .admitted =>
    match reply with
    | .granted renewed =>
      some (.registered, { a with reader :=
        { a.reader with teardown := renewed.or a.reader.teardown } })
    | .refused e =>
      some (.returned (.error e), { a with reader := { a.reader with locked := false } })
    | .noThread => none
  | .registered => some (.lowered, { a with reader := { a.reader with stopFlag := false } })
  | .lowered => some (.cleared, { a with reader := { a.reader with exit := none } })
  | .cleared =>
    match reply with
    | .granted _ | .refused _ =>
      some (.spawned, { a with former := a.threads, reader := a.reader.launch plan })
    | .noThread => some (.failed, { a with reader := { a.reader with locked := false } })
  | .spawned => some (.returned (.ok ()), { a with reader := a.reader.publish plan })
  | .returned _ | .failed => none

/-- A call of `start` makes its next step. -/
def advanceStart (j : Nat) (reply : StartReply) (a : SharedReader E) : SharedReader E :=
  match a.starts[j]? with
  | none => a
  | some c =>
    match a.stepStart c.plan reply c.stage with
    | none => a
    | some (stage, b) => { b with starts := a.starts.set j { c with stage } }

/-- The thread makes its next step. -/
def advanceThread (limit : Nat) (pollForbidden : Bool) (a : SharedReader E) : SharedReader E :=
  match a.reader.thread with
  | none => a
  | some t =>
    match a.reader.stepThread pollForbidden (a.descriptors t.plan.target) (t.curb limit) with
    | none => a
    | some step => { a with
        reader := step.reader
        descriptors := Function.update a.descriptors t.plan.target step.descriptor }

def act (a : SharedReader E) : Action E → SharedReader E
  | .callStop => { a with reader := a.reader.callStop }
  | .stop i => a.advanceStop i
  | .callStart plan => { a with starts := a.starts ++ [{ plan }] }
  | .start j reply => a.advanceStart j reply
  | .thread limit pollForbidden => a.advanceThread limit pollForbidden
  | .interrupt => { a with reader := a.reader.interrupt }
  | .openGate => { a with reader := { a.reader with gateOpen := true } }
  | .write name bytes => { a with
      descriptors := Function.update a.descriptors name ((a.descriptors name).write bytes) }
  | .close name => { a with
      descriptors := Function.update a.descriptors name (a.descriptors name).close }

/-- Actions in turn. -/
def play (acts : List (Action E)) (a : SharedReader E) : SharedReader E := acts.foldl act a

@[simp] lemma play_nil (a : SharedReader E) : play [] a = a := rfl

@[simp] lemma play_cons (x : Action E) (acts : List (Action E)) (a : SharedReader E) :
    play (x :: acts) a = play acts (a.act x) := rfl

end SharedReader

/-! ### What a step of the thread comes to -/

lemma WakePipe.writerOpen_wake (w : WakePipe) : w.wake.writerOpen = w.writerOpen := by
  rw [wake]
  split <;> rfl

lemma WakePipe.writerOpen_drain (w : WakePipe) : w.drain.2.writerOpen = w.writerOpen := by
  rw [drain]
  split <;> rfl

lemma readOnce?_size {limit : Nat} {d d' : Descriptor} {b b' : Buffer} {outcome : ReadOutcome}
    (h : readOnce? limit d b = some (outcome, b', d')) : b'.size = b.size := by
  rw [readOnce?] at h
  split at h
  · cases h
  all_goals
    cases h
    rfl

/-- No strategy changes the size of the buffer. -/
lemma Strategy.size_read? {strategy : Strategy} {d d' : Descriptor} {b b' : Buffer}
    {outcome : ReadOutcome} (h : strategy.read? d b = some (outcome, b', d')) :
    b'.size = b.size := by
  cases strategy with
  | single | atMost => exact readOnce?_size h
  | closed | failing =>
    cases h
    rfl
  | skipping | whole | empty =>
    obtain ⟨⟨outcome', b'', d''⟩, hread, heq⟩ := Option.map_eq_some_iff.mp h
    have hsize := readOnce?_size hread
    cases outcome' <;> (cases heq; exact hsize)

namespace Reader

/-- What the thread `t` of a reader comes to, with the stop flag, the exit and the descriptor behind
the step. -/
inductive Proceeds (limit : Nat) (r : Reader E) (t : ReaderThread E) (d : Descriptor) :
    ReaderThread E → Bool → Option ReaderExit → Descriptor → Prop where
  | wait (hstage : t.stage = .polling) :
      Proceeds limit r t d { t with stage := .waiting } r.stopFlag r.exit d
  | barred (hstage : t.stage = .polling) :
      Proceeds limit r t d { t with stage := .leaving (.failed .invalidArgument) } r.stopFlag r.exit
        d
  | wake (hstage : t.stage = .waiting) :
      Proceeds limit r t d { t with stage := .woken d.readiness t.wakePipe.isReady } r.stopFlag
        r.exit d
  | pass {target : Readiness} (hstage : t.stage = .woken target false) :
      Proceeds limit r t d { t with stage := .checking target } r.stopFlag r.exit d
  | drain {target : Readiness} (hstage : t.stage = .woken target true)
      (hdrain : t.wakePipe.drain.1 = true ∨ r.stopFlag = true) :
      Proceeds limit r t d { t with wakePipe := t.wakePipe.drain.2, stage := .checking target }
        r.stopFlag r.exit d
  /-- The wake-pipe was closed though no stop is asked for. -/
  | crash {target : Readiness} (hstage : t.stage = .woken target true)
      (hdrain : t.wakePipe.drain.1 = false) :
      Proceeds limit r t d { t with wakePipe := t.wakePipe.drain.2, stage := .ended } r.stopFlag
        r.exit d
  | observe {target : Readiness} (hstage : t.stage = .checking target) (hflag : r.stopFlag = true) :
      Proceeds limit r t d { t with stage := .leaving .stopped } r.stopFlag r.exit d
  | reject (hstage : t.stage = .checking .invalid) (hflag : r.stopFlag = false) :
      Proceeds limit r t d { t with stage := .leaving (.failed .badDescriptor) } r.stopFlag r.exit d
  | again (hstage : t.stage = .checking .quiet) (hflag : r.stopFlag = false) :
      Proceeds limit r t d { t with stage := .polling } r.stopFlag r.exit d
  | ready (hstage : t.stage = .checking .ready) (hflag : r.stopFlag = false) :
      Proceeds limit r t d { t with stage := .reading } r.stopFlag r.exit d
  | read {outcome : ReadOutcome} {buffer : Buffer} {d' : Descriptor} (hstage : t.stage = .reading)
      (hread : (t.curb limit).plan.strategy.read? d t.buffer = some (outcome, buffer, d')) :
      Proceeds limit r t d { t with buffer, stage := afterRead t.plan buffer outcome } r.stopFlag
        r.exit d'
  | finish (hstage : t.stage = .calling []) :
      Proceeds limit r t d { t with stage := .polling } r.stopFlag r.exit d
  | effect {e : Effect E} {rest : List (Effect E)} (hstage : t.stage = .calling (e :: rest)) :
      Proceeds limit r t d { t with stage := .calling rest } r.stopFlag r.exit d
  /-- The callback stops its own reader. It does not raise the flag without waking the thread,
  unless the exit is known. -/
  | stop {rest : List (Effect E)} {wakePipe : WakePipe} {flag : Bool}
      (hstage : t.stage = .calling (.stop :: rest)) (hfree : r.locked = false)
      (hwake : wakePipe = t.wakePipe ∨ wakePipe = t.wakePipe.wake)
      (hflag : flag = r.stopFlag ∨ flag = true)
      (hboth : flag = r.stopFlag ∨ wakePipe = t.wakePipe.wake ∨ r.exit.isSome = true) :
      Proceeds limit r t d { t with wakePipe, stage := .calling rest } flag r.exit d
  | panic {rest : List (Effect E)} (hstage : t.stage = .calling (.panic :: rest)) :
      Proceeds limit r t d { t with stage := .ended } r.stopFlag r.exit d
  | leave {exit : ReaderExit} (hstage : t.stage = .leaving exit) :
      Proceeds limit r t d { t with stage := .ended } r.stopFlag (some exit) d

lemma updateThread_eq {r : Reader E} {t : ReaderThread E} (ht : r.thread = some t)
    (f : ReaderThread E → ReaderThread E) : r.updateThread f = { r with thread := some (f t) } := by
  rw [updateThread, ht]
  rfl

lemma setStage_eq {r : Reader E} {t : ReaderThread E} (ht : r.thread = some t)
    (stage : ThreadStage E) : r.setStage stage = { r with thread := some { t with stage } } :=
  updateThread_eq ht _

lemma stopFromCallback_eq {r : Reader E} {t : ReaderThread E} (ht : r.thread = some t) :
    ∃ wakePipe flag, (wakePipe = t.wakePipe ∨ wakePipe = t.wakePipe.wake) ∧
      (flag = r.stopFlag ∨ flag = true) ∧
      (flag = r.stopFlag ∨ wakePipe = t.wakePipe.wake ∨ r.exit.isSome = true) ∧
      r.stopFromCallback = { r with thread := some { t with wakePipe }, stopFlag := flag } := by
  rw [stopFromCallback]
  split
  · rw [wake]
    split
    · next hexit =>
      exact ⟨_, _, Or.inl rfl, Or.inr rfl, Or.inr (Or.inr hexit), by rw [raise, ← ht]⟩
    · exact ⟨_, _, Or.inr rfl, Or.inr rfl, Or.inr (Or.inl rfl), updateThread_eq (r := r.raise) ht _⟩
  · exact ⟨_, _, Or.inl rfl, Or.inl rfl, Or.inl rfl, by rw [← ht]⟩

lemma proceeds_calling {limit : Nat} {pollForbidden : Bool} {r : Reader E} {t : ReaderThread E}
    (ht : r.thread = some t) {rest : List (Effect E)} (hstage : t.stage = .calling rest)
    {d : Descriptor} {step : ThreadStep E}
    (h : r.stepThread pollForbidden d (t.curb limit) = some step) :
    ∃ t' flag exit, Proceeds limit r t d t' flag exit step.descriptor ∧
      step.reader = { r with thread := some t', stopFlag := flag, exit := exit } := by
  obtain ⟨plan, buffer, wakePipe, stage⟩ := t
  obtain rfl : stage = .calling rest := hstage
  cases rest with
  | nil =>
    obtain rfl := Option.some.inj h
    exact ⟨_, _, _, .finish rfl, setStage_eq ht _⟩
  | cons e rest =>
    cases e with
    | emit e =>
      obtain rfl := Option.some.inj h
      exact ⟨_, _, _, .effect rfl, setStage_eq ht _⟩
    | stop =>
      dsimp only [stepThread, ReaderThread.curb] at h
      split at h
      · cases h
      · next hfree =>
        obtain rfl := Option.some.inj h
        obtain ⟨w, flag, hw, hflag, hboth, heq⟩ := stopFromCallback_eq ht
        refine ⟨_, _, _, .stop rfl (Bool.eq_false_iff.mpr hfree) hw hflag hboth, ?_⟩
        rw [heq]
        exact setStage_eq (r := { r with thread := some _, stopFlag := flag }) rfl _
    | awaitGate =>
      dsimp only [stepThread, ReaderThread.curb] at h
      split at h
      · obtain rfl := Option.some.inj h
        exact ⟨_, _, _, .effect rfl, setStage_eq ht _⟩
      · cases h
    | panic =>
      obtain rfl := Option.some.inj h
      exact ⟨_, _, _, .panic rfl, setStage_eq ht _⟩

lemma proceeds_stepThread {limit : Nat} {pollForbidden : Bool} {r : Reader E} {t : ReaderThread E}
    (ht : r.thread = some t) {d : Descriptor} {step : ThreadStep E}
    (h : r.stepThread pollForbidden d (t.curb limit) = some step) :
    ∃ t' flag exit, Proceeds limit r t d t' flag exit step.descriptor ∧
      step.reader = { r with thread := some t', stopFlag := flag, exit := exit } := by
  obtain ⟨plan, buffer, wakePipe, stage⟩ := t
  cases stage with
  | polling =>
    obtain rfl := Option.some.inj h
    cases pollForbidden with
    | true => exact ⟨_, _, _, .barred rfl, setStage_eq ht _⟩
    | false => exact ⟨_, _, _, .wait rfl, setStage_eq ht _⟩
  | waiting =>
    dsimp only [stepThread, ReaderThread.curb] at h
    split at h
    · cases h
    · obtain rfl := Option.some.inj h
      exact ⟨_, _, _, .wake rfl, setStage_eq ht _⟩
  | woken found wake =>
    cases wake with
    | false =>
      obtain rfl := Option.some.inj h
      exact ⟨_, _, _, .pass rfl, setStage_eq ht _⟩
    | true =>
      dsimp only [stepThread, ReaderThread.curb] at h
      obtain rfl := Option.some.inj h
      split
      · next hclosed =>
        rw [Bool.and_eq_true, Bool.not_eq_true', Bool.not_eq_true'] at hclosed
        exact ⟨_, _, _, .crash rfl hclosed.1, updateThread_eq ht _⟩
      · next hopen =>
        rw [Bool.and_eq_true, Bool.not_eq_true', Bool.not_eq_true', not_and_or,
          Bool.not_eq_false, Bool.not_eq_false] at hopen
        exact ⟨_, _, _, .drain rfl hopen, updateThread_eq ht _⟩
  | checking found =>
    dsimp only [stepThread, ReaderThread.curb] at h
    obtain rfl := Option.some.inj h
    cases hflag : r.stopFlag with
    | true => exact ⟨_, _, _, .observe rfl hflag, setStage_eq ht _⟩
    | false =>
      cases found with
      | quiet => exact ⟨_, _, _, .again rfl hflag, setStage_eq ht _⟩
      | ready => exact ⟨_, _, _, .ready rfl hflag, setStage_eq ht _⟩
      | invalid => exact ⟨_, _, _, .reject rfl hflag, setStage_eq ht _⟩
  | reading =>
    obtain ⟨⟨outcome, buffer', d'⟩, hread, hstep⟩ := Option.bind_eq_some_iff.mp h
    obtain rfl := Option.some.inj hstep
    exact ⟨_, _, _, .read rfl hread, updateThread_eq ht _⟩
  | calling rest => exact proceeds_calling ht rfl h
  | leaving exit =>
    obtain rfl := Option.some.inj h
    exact ⟨_, _, _, .leave rfl, setStage_eq (r := { r with exit := some exit }) ht _⟩
  | ended => cases h

section

variable {limit : Nat} {r : Reader E} {t t' : ReaderThread E} {d d' : Descriptor} {flag : Bool}
  {exit : Option ReaderExit}

/-- A thread that has ended makes no step, and one that has left its loop does not come back. -/
lemma Proceeds.stage (h : Proceeds limit r t d t' flag exit d') :
    t.stage.isEnded = false ∧ (t'.stage.isLooping = true → t.stage.isLooping = true) := by
  cases h with
  | wait hstage | barred hstage | wake hstage | pass hstage | drain hstage | crash hstage
  | observe hstage | reject hstage | again hstage | ready hstage | read hstage | finish hstage
  | effect hstage | stop hstage | panic hstage =>
    rw [hstage]
    exact ⟨rfl, fun _ => rfl⟩
  | leave hstage =>
    rw [hstage]
    exact ⟨rfl, fun hlooping => by cases hlooping⟩

/-- What a thread keeps. -/
lemma Proceeds.unchanged (h : Proceeds limit r t d t' flag exit d') :
    t'.plan = t.plan ∧ t'.buffer.size = t.buffer.size ∧
      t'.wakePipe.writerOpen = t.wakePipe.writerOpen ∧ (r.stopFlag = true → flag = true) := by
  cases h with
  | drain | crash => exact ⟨rfl, rfl, t.wakePipe.writerOpen_drain, id⟩
  | read hstage hread => exact ⟨rfl, Strategy.size_read? hread, rfl, id⟩
  | stop hstage hfree hwake hflag =>
    refine ⟨rfl, rfl, ?_, fun hraised => ?_⟩
    · rcases hwake with rfl | rfl
      · rfl
      · exact t.wakePipe.writerOpen_wake
    · rcases hflag with rfl | rfl
      · exact hraised
      · rfl
  | _ => exact ⟨rfl, rfl, rfl, id⟩

end

/-! ### What a step of a call comes to -/

/-- Close the write end of the wake-pipe. -/
def hangUp (r : Reader E) : Reader E :=
  r.updateThread fun t => { t with wakePipe := { t.wakePipe with writerOpen := false } }

/-- What a call of `stop` comes to. -/
inductive StopMoves (r : Reader E) : StopStage → StopStage → Reader E → Prop where
  | pass (hfree : r.locked = false) (hstate : r.state ≠ .running) :
      StopMoves r .arriving .returned r
  | raise (hfree : r.locked = false) (hstate : r.state = .running) :
      StopMoves r .arriving .raised { r with stopFlag := true, locked := true }
  | wake : StopMoves r .raised .woken r.wake
  | claim : StopMoves r .woken .joining { r with state := .stopping, locked := false }
  | join (hended : r.threadEnded = true) : StopMoves r .joining .joined r.hangUp
  | settle (hfree : r.locked = false) : StopMoves r .joined .returned r.settleDown

lemma stopMoves_stepStop {r r' : Reader E} {stage stage' : StopStage}
    (h : r.stepStop stage = some (stage', r')) : StopMoves r stage stage' r' := by
  cases stage with
  | arriving =>
    rw [stepStop] at h
    split at h
    · cases h
    · next hfree =>
      split at h
      · next hstate =>
        cases h
        exact .raise (Bool.eq_false_iff.mpr hfree) hstate
      · next hstate =>
        cases h
        exact .pass (Bool.eq_false_iff.mpr hfree) hstate
  | raised =>
    cases h
    exact .wake
  | woken =>
    cases h
    exact .claim
  | joining =>
    rw [stepStop] at h
    split at h
    · next hended =>
      cases h
      exact .join hended
    · cases h
  | joined =>
    rw [stepStop] at h
    split at h
    · cases h
    · next hfree =>
      cases h
      exact .settle (Bool.eq_false_iff.mpr hfree)
  | returned => cases h

end Reader

namespace SharedReader

open Reader (Proceeds StopMoves)

variable {a b : SharedReader E}

/-- What a call of `start` comes to. -/
inductive StartMoves (plan : ReadPlan E) (a : SharedReader E) :
    StartStage → StartStage → SharedReader E → Prop where
  | refuse (hfree : a.reader.locked = false) (hstate : a.reader.state ≠ .idle) {e : StartError}
      (he : e = .stopping ∨ ∃ target, e = .alreadyRunning target) :
      StartMoves plan a .arriving (.returned (.error e)) a
  | enter (hfree : a.reader.locked = false) (hstate : a.reader.state = .idle) :
      StartMoves plan a .arriving .admitted { a with reader := { a.reader with locked := true } }
  | deny (e : StartError) :
      StartMoves plan a .admitted (.returned (.error e))
        { a with reader := { a.reader with locked := false } }
  | register (teardown : Option (Nat × EventId)) :
      StartMoves plan a .admitted .registered { a with reader := { a.reader with teardown } }
  | lower :
      StartMoves plan a .registered .lowered
        { a with reader := { a.reader with stopFlag := false } }
  | clear :
      StartMoves plan a .lowered .cleared { a with reader := { a.reader with exit := none } }
  | fail :
      StartMoves plan a .cleared .failed { a with reader := { a.reader with locked := false } }
  | launch :
      StartMoves plan a .cleared .spawned
        { a with former := a.threads, reader := a.reader.launch plan }
  | publish :
      StartMoves plan a .spawned (.returned (.ok ())) { a with reader := a.reader.publish plan }

lemma startMoves_stepStart {plan : ReadPlan E} {reply : StartReply} {stage stage' : StartStage}
    (h : a.stepStart plan reply stage = some (stage', b)) :
    StartMoves plan a stage stage' b := by
  cases stage with
  | arriving =>
    rw [stepStart] at h
    split at h
    · cases h
    · next hfree =>
      have hfree := Bool.eq_false_iff.mpr hfree
      rw [Reader.obstacle?] at h
      cases hstate : a.reader.state with
      | idle =>
        rw [hstate] at h
        cases h
        exact .enter hfree hstate
      | running =>
        rw [hstate] at h
        cases h
        exact .refuse hfree (by simp [hstate]) (Or.inr ⟨_, rfl⟩)
      | stopping =>
        rw [hstate] at h
        cases h
        exact .refuse hfree (by simp [hstate]) (Or.inl rfl)
  | admitted =>
    cases reply with
    | granted renewed =>
      cases h
      exact .register _
    | refused e =>
      cases h
      exact .deny e
    | noThread => cases h
  | registered =>
    cases h
    exact .lower
  | lowered =>
    cases h
    exact .clear
  | cleared =>
    cases reply with
    | granted | refused =>
      cases h
      exact .launch
    | noThread =>
      cases h
      exact .fail
  | spawned =>
    cases h
    exact .publish
  | returned | failed => cases h

/-- What an action comes to. -/
inductive Outcome (a : SharedReader E) : Action E → SharedReader E → Prop where
  | idle (x : Action E) : Outcome a x a
  | callStop : Outcome a .callStop { a with reader := a.reader.callStop }
  | stop {i : Nat} {stage stage' : StopStage} {r : Reader E}
      (hi : a.reader.stops[i]? = some stage) (hmoves : StopMoves a.reader stage stage' r) :
      Outcome a (.stop i) { a with
        reader := { r with stops := r.stops.set i stage' }
        former := if r.thread.isNone then a.threads else a.former }
  | callStart (plan : ReadPlan E) :
      Outcome a (.callStart plan) { a with starts := a.starts ++ [{ plan }] }
  | start {j : Nat} {reply : StartReply} {c : StartCall E} {stage : StartStage}
      {b : SharedReader E} (hj : a.starts[j]? = some c)
      (hmoves : StartMoves c.plan a c.stage stage b) :
      Outcome a (.start j reply) { b with starts := a.starts.set j { c with stage } }
  | thread {limit : Nat} {pollForbidden : Bool} {t t' : ReaderThread E} {flag : Bool}
      {exit : Option ReaderExit} {d : Descriptor} (ht : a.reader.thread = some t)
      (hproceeds : Proceeds limit a.reader t (a.descriptors t.plan.target) t' flag exit d) :
      Outcome a (.thread limit pollForbidden) { a with
        reader := { a.reader with thread := some t', stopFlag := flag, exit := exit }
        descriptors := Function.update a.descriptors t.plan.target d }
  | interrupt {t : ReaderThread E} (ht : a.reader.thread = some t) (hstage : t.stage = .waiting) :
      Outcome a .interrupt { a with
        reader := { a.reader with thread := some { t with stage := .polling } } }
  | openGate : Outcome a .openGate { a with reader := { a.reader with gateOpen := true } }
  | write (name : String) (bytes : List UInt8) :
      Outcome a (.write name bytes) { a with
        descriptors := Function.update a.descriptors name ((a.descriptors name).write bytes) }
  | close (name : String) :
      Outcome a (.close name) { a with
        descriptors := Function.update a.descriptors name (a.descriptors name).close }

lemma outcome_thread (a : SharedReader E) (limit : Nat) (pollForbidden : Bool) :
    Outcome a (.thread limit pollForbidden) (a.advanceThread limit pollForbidden) := by
  rw [advanceThread]
  cases ht : a.reader.thread with
  | none => exact .idle _
  | some t =>
    dsimp only
    cases h : a.reader.stepThread pollForbidden (a.descriptors t.plan.target) (t.curb limit) with
    | none => exact .idle _
    | some step =>
      obtain ⟨t', flag, exit, hproceeds, heq⟩ := Reader.proceeds_stepThread ht h
      dsimp only
      rw [heq]
      exact .thread ht hproceeds

lemma outcome_interrupt (a : SharedReader E) :
    Outcome a .interrupt { a with reader := a.reader.interrupt } := by
  rw [Reader.interrupt]
  cases ht : a.reader.thread with
  | none =>
    rw [Reader.updateThread, ht, Option.map_none, ← ht]
    exact .idle _
  | some t =>
    rw [Reader.updateThread_eq ht]
    split
    · next hstage => exact .interrupt ht hstage
    · rw [← ht]
      exact .idle _

lemma outcome_act (a : SharedReader E) (x : Action E) : Outcome a x (a.act x) := by
  cases x with
  | callStop => exact .callStop
  | callStart plan => exact .callStart plan
  | thread limit pollForbidden => exact a.outcome_thread limit pollForbidden
  | interrupt => exact a.outcome_interrupt
  | openGate => exact .openGate
  | write name bytes => exact .write name bytes
  | close name => exact .close name
  | stop i =>
    rw [act, advanceStop]
    cases h : a.reader.advanceStop i with
    | none => exact .idle _
    | some r =>
      obtain ⟨stage, hi, h⟩ := Option.bind_eq_some_iff.mp h
      obtain ⟨⟨stage', r'⟩, hstep, heq⟩ := Option.bind_eq_some_iff.mp h
      obtain rfl := Option.some.inj heq
      exact .stop hi (Reader.stopMoves_stepStop hstep)
  | start j reply =>
    rw [act, advanceStart]
    cases hj : a.starts[j]? with
    | none => exact .idle _
    | some c =>
      dsimp only
      cases h : a.stepStart c.plan reply c.stage with
      | none => exact .idle _
      | some p =>
        obtain ⟨stage, b⟩ := p
        exact .start hj (startMoves_stepStart h)

/-! ### Without interleaving -/

/-- A read that gives as many bytes as there is room for is a read of the strategy. -/
lemma read?_curb (strategy : Strategy) (d : Descriptor) (b : Buffer) :
    (strategy.curb b.size).read? d b = strategy.read? d b := by
  cases strategy with
  | single =>
    rw [Strategy.curb, Strategy.read?, Strategy.read?, readOnce?, readOnce?,
      Nat.min_eq_right (Nat.le_max_left b.size 1), Nat.min_self]
  | _ => rfl

/-- A thread whose reads give as many bytes as there is room for goes on as it does alone. -/
lemma stepThread_curb {r : Reader E} {t : ReaderThread E} (ht : r.thread = some t)
    (pollForbidden : Bool) (d : Descriptor) :
    r.stepThread pollForbidden d (t.curb t.buffer.size) = r.advanceThread pollForbidden d := by
  rw [Reader.advanceThread, ht, Option.bind_some]
  obtain ⟨plan, buffer, wakePipe, stage⟩ := t
  cases stage with
  | reading =>
    dsimp only [Reader.stepThread, ReaderThread.curb]
    rw [read?_curb]
    rfl
  | woken found wake => cases wake <;> rfl
  | calling rest =>
    cases rest with
    | nil => rfl
    | cons e rest => cases e <;> rfl
  | _ => rfl

/-- The thread goes on as it does alone, if its reads give as many bytes as there is room for. -/
theorem act_thread {t : ReaderThread E} (ht : a.reader.thread = some t) (pollForbidden : Bool) :
    a.act (.thread t.buffer.size pollForbidden) =
      match a.reader.advanceThread pollForbidden (a.descriptors t.plan.target) with
      | none => a
      | some step => { a with
          reader := step.reader
          descriptors := Function.update a.descriptors t.plan.target step.descriptor } := by
  rw [act, advanceThread, ht]
  dsimp only
  rw [stepThread_curb ht]

end SharedReader

/-- What a program may come to, whatever the answers to what it asks for. -/
inductive Program.Yields {α : Type} : Program K U α → α → Prop where
  | done (a : α) : Yields (.done a) a
  | ask {r : Request K U} {next : r.Reply → Program K U α} {a : α} (answer : r.Reply)
      (h : Yields (next answer) a) : Yields (.ask r next) a
  | perform {k : K} {next : PUnit → Program K U α} {a : α} (h : Yields (next ()) a) :
      Yields (.perform k next) a
  | run {next : Except SimError PUnit → Program K U α} {a : α} (answer : Except SimError PUnit)
      (h : Yields (next answer) a) : Yields (.run next) a
  | destroy {next : Except SimError PUnit → Program K U α} {a : α}
      (answer : Except SimError PUnit) (h : Yields (next answer) a) : Yields (.destroy next) a

lemma Program.Yields.of_bind {α β : Type} {p : Program K U α} {f : α → Program K U β} {b : β}
    (h : (p >>= f).Yields b) : ∃ a, (f a).Yields b := by
  induction p with
  | done a => exact ⟨a, h⟩
  | ask r next ih =>
    cases h with
    | ask answer h => exact ih answer h
  | perform k next ih =>
    cases h with
    | perform h => exact ih () h
  | run next ih =>
    cases h with
    | run answer h => exact ih answer h
  | destroy next ih =>
    cases h with
    | destroy answer h => exact ih answer h

namespace Reader

variable {r r' : Reader E} {plan : ReadPlan E} {k : K} {answer : Except StartError PUnit}

/-- A start is answered from outside, or by the state of the reader. -/
inductive Starts (r : Reader E) (plan : ReadPlan E) :
    StartReply → Except StartError PUnit → Reader E → Prop where
  | obstructed {e : StartError} (hstate : r.obstacle? false plan.target = some e)
      (reply : StartReply) : Starts r plan reply (.error e) r
  | refused (hstate : r.state = .idle) (e : StartError) :
      Starts r plan (.refused e) (.error e) r
  | granted (hstate : r.state = .idle) (renewed : Option (Nat × EventId)) :
      Starts r plan (.granted renewed) (.ok ())
        ({ r with teardown := renewed.or r.teardown }.spawn plan)

lemma starts_of_obstacle? {pipesForbidden : Bool} {e : StartError}
    (h : r.obstacle? pipesForbidden plan.target = some e) :
    Starts r plan (.refused e) (.error e) r := by
  cases hstate : r.state with
  | idle => exact .refused hstate e
  | running | stopping =>
    refine .obstructed ?_ _
    rw [obstacle?, hstate] at h ⊢
    exact h

lemma idle_of_obstacle? {pipesForbidden : Bool}
    (h : r.obstacle? pipesForbidden plan.target = none) : r.state = .idle := by
  cases hstate : r.state with
  | idle => rfl
  | running | stopping =>
    rw [obstacle?, hstate] at h
    cases h

/-- Whatever a start is answered by its simulator, it is one of these. -/
lemma starts_of_yields {pipesForbidden : Bool}
    (h : (r.start k pipesForbidden plan : Program K U _).Yields (answer, r')) :
    ∃ reply, Starts r plan reply answer r' := by
  rw [Reader.start, teardownPending] at h
  split at h
  · next e hobstacle =>
    cases h
    exact ⟨_, starts_of_obstacle? hobstacle⟩
  · next hobstacle =>
    have hstate := idle_of_obstacle? hobstacle
    obtain ⟨pending, h⟩ := h.of_bind
    cases pending with
    | true =>
      cases h
      exact ⟨_, .granted hstate none⟩
    | false =>
      obtain ⟨own, h⟩ := h.of_bind
      obtain ⟨id, h⟩ := h.of_bind
      cases id with
      | error e =>
        cases h
        exact ⟨_, .refused hstate _⟩
      | ok id =>
        cases h
        exact ⟨_, .granted hstate (some _)⟩

end Reader

namespace SharedReader

variable {a : SharedReader E}

lemma advanceStart_last (r : Reader E) (former : List (ReaderThread E))
    (starts : List (StartCall E)) (c : StartCall E) (ds : String → Descriptor)
    (reply : StartReply) :
    advanceStart starts.length reply ⟨r, former, starts ++ [c], ds⟩ =
      match stepStart c.plan reply ⟨r, former, starts ++ [c], ds⟩ c.stage with
      | none => ⟨r, former, starts ++ [c], ds⟩
      | some (stage, b) => { b with starts := starts ++ [{ c with stage }] } := by
  simp [advanceStart]

/-- A start that nothing comes in between of has the outcome of `start`. -/
theorem play_start (hfree : a.reader.locked = false) {k : K} {pipesForbidden : Bool}
    {plan : ReadPlan E} {answer : Except StartError PUnit} {r : Reader E}
    (h : (a.reader.start k pipesForbidden plan : Program K U _).Yields (answer, r)) :
    ∃ reply, play (.callStart plan :: List.replicate 6 (.start a.starts.length reply)) a =
      { a with
        reader := r
        former := if answer.toBool then a.threads else a.former
        starts := a.starts ++ [⟨plan, .returned answer⟩] } := by
  obtain ⟨reply, hstarts⟩ := Reader.starts_of_yields h
  refine ⟨reply, ?_⟩
  obtain ⟨reader, former, starts, ds⟩ := a
  obtain ⟨size, state, target, thread, flag, exit, locked, stops, teardown, gate⟩ := reader
  obtain rfl : locked = false := hfree
  simp only [List.replicate, play_cons, play_nil, act]
  cases hstarts with
  | obstructed hstate => simp [advanceStart_last, stepStart, hstate, Except.toBool]
  | refused hstate e =>
    obtain rfl : state = .idle := hstate
    simp [advanceStart_last, stepStart, Reader.obstacle?, Except.toBool]
  | granted hstate renewed =>
    obtain rfl : state = .idle := hstate
    simp [advanceStart_last, stepStart, Reader.obstacle?, Except.toBool, threads, Reader.launch,
      Reader.publish, Reader.spawn]

end SharedReader

end EventKernel
