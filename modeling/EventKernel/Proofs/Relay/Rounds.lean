import EventKernel.Proofs.Machine.Conclude
import EventKernel.Proofs.Machine.OwnInbox
import EventKernel.Proofs.Relay.Settle

/-!
# Rounds of a relay

A relay that is run round by round is a session in which nothing comes between the steps of a run:
each run comes to its end within the bound on its steps, and the reader goes on until it waits. So
what holds of all sessions holds of it.
-/

namespace EventKernel

lemma World.put_put {K U : Type} (w : World K U) (i : Nat) (s s' : Simulator K) (m m' : Memory K U)
    (b : Inbox (Task K)) : (w.put i s m).put i s' (m'.setInbox i b) = w.put i s' m' := by
  simp [World.put, Memory.setInbox]

namespace Relay

open Machine (runFor)

variable {latency : Time} {context : ContextId} {chunks : List (List UInt8)}
  {taken : List (EventId × Event (Task RelayCode))} {s : Simulator RelayCode} {last : Bool}
  {keys : List EventKey}

/-- The task of an event takes six steps at most. -/
lemma Stands.isDone_runFor_task {t : Task RelayCode} {c : ContextId} {n : Nat}
    (h : Stands last s [.task t, .restore c, .loop, .exec (.done ())]) (hhalts : Halts last s)
    (m : Memory RelayCode State)
    (hloop : ∀ m stopRequested, Halts last { s with stopRequested := stopRequested, context := c } →
      (runFor code n
      ⟨{ s with stopRequested := stopRequested, context := c }, m, [.loop, .exec (.done ())],
        false⟩).isDone = true) :
    (runFor code (n + 6) ⟨s, m, [.task t, .restore c, .loop, .exec (.done ())], false⟩).isDone =
      true := by
  cases h with
  | stopping hnone hlast =>
    refine Machine.isDone_runFor_mono (Nat.add_le_add_left (by decide : 2 ≤ 6) n) ?_
    refine Machine.isDone_runFor_of_step (Machine.isDone_runFor_of_step (hloop m true ?_))
    exact ⟨fun _ => hnone, fun hl => by cases hlast.symm.trans hl⟩
  | starting chunk =>
    iterate 6 apply Machine.isDone_runFor_of_step
    exact hloop _ s.stopRequested { hhalts with }

/-- From the top of a round a run comes to its end, and each event that is stored or waits takes
eight steps at most. -/
lemma Within.isDone_runFor
    (h : Within latency context chunks taken last [.loop, .exec (.done ())] s) (hs : s.Sound)
    (ht : s.Timely keys) (m : Memory RelayCode State) {n : Nat}
    (hn : s.pendingEvents + s.inbox.events.size = n) :
    (runFor code (8 * n + 3) ⟨s, m, [.loop, .exec (.done ())], false⟩).isDone = true := by
  induction n using Nat.strong_induction_on generalizing s m taken keys with
  | _ n ih =>
    have hcourse := Simulator.course_drainInbox ht.delay_nonneg
    have hwithin := h.drain hs ht
    have hsound := (hs.passage hcourse).sound
    have htimely := (ht.course hcourse).1
    have hempty : s.drainInbox.inbox.events = #[] := by
      rw [(Simulator.inbox_drainInbox s).1]
      rfl
    rw [← Simulator.pendingEvents_drainInbox] at hn
    apply Machine.isDone_runFor_of_step
    show (runFor code (8 * n + 2) ⟨s.drainInbox, m, [.next, .exec (.done ())], false⟩).isDone = true
    generalize s.drainInbox = s at *
    apply Machine.isDone_runFor_of_step
    show (runFor code (8 * n + 1) (Machine.takeNext code s m [.exec (.done ())])).isDone = true
    have hround :=
      Machine.round_takeNext code m [.exec (.done ())] htimely.consistent htimely.now_le
    generalize Machine.takeNext code s m [.exec (.done ())] = b at hround ⊢
    cases hround with
    | finish =>
      refine Machine.isDone_runFor_of_step (Machine.isDone_runFor_mono (Nat.zero_le _) ?_)
      rfl
    | pass hsome hnext hcancelled =>
      obtain ⟨hgoes, -⟩ := Simulator.upcoming?_eq_some_iff.mp hsome
      cases hcancelled.symm.trans (hwithin.take htimely hgoes hnext .none .none 0).1
    | @start id ev q hsome hnext hlive =>
      have hsize : q.size + 1 = n := by
        rw [← hn, Simulator.pendingEvents_removeNext htimely.consistent hnext]
      obtain ⟨hgoes, -⟩ := Simulator.upcoming?_eq_some_iff.mp hsome
      have htake := (hwithin.take htimely hgoes hnext s.context ev.context (s.eventCount + 1)).2
      obtain ⟨m', hlaunch, -⟩ := launch_code id ev { s with scheduler := q, now := ev.key.time } m
        [.exec (.done ())]
      rw [hlaunch, show 8 * n + 1 = 8 * q.size + 3 + 6 by omega]
      refine htake.stands.isDone_runFor_task htake.halts m' fun m stopRequested hhalts => ?_
      let t : Simulator RelayCode := { s with
        scheduler := q, now := ev.key.time, context := s.context, eventCount := s.eventCount + 1,
        stopRequested := stopRequested }
      have hsound' : t.Sound := { (hsound.advance_take hnext ev.key.time).sound with }
      have htimely' : t.Timely (keys ++ [ev.key]) := { (htimely.take hnext).2.1 with }
      refine ih q.size (by omega) (htake.quiet (t := t) rfl rfl rfl hhalts .loop) hsound' htimely'
        m ?_
      show q.size + s.inbox.events.size = q.size
      rw [hempty]
      rfl

/-! ### Runs as sessions -/

namespace Session

variable {x y z : Session} {w : Stage} {a : Machine RelayCode State}
  {before between behind isOpen : Bool} {bytes bytes' : List UInt8}

/-- Actions that write so many bytes to the input lead from one session to another; and whether the
input is open before and behind them. -/
def LeadsTo (latency : Time) (context : ContextId) (before : Bool) (bytes : List UInt8)
    (behind : Bool) (x y : Session) : Prop :=
  ∃ acts, Brings before acts bytes behind ∧ x.play latency context acts = y

/-- Actions that leave the input to the reader lead from one session to another. -/
abbrev GoesTo (latency : Time) (context : ContextId) (isOpen : Bool) (x y : Session) : Prop :=
  LeadsTo latency context isOpen [] isOpen x y

lemma LeadsTo.refl (isOpen : Bool) (x : Session) : GoesTo latency context isOpen x x :=
  ⟨[], .nothing isOpen, rfl⟩

lemma LeadsTo.loop (h : LeadsTo latency context before bytes behind x.stepLoop y) :
    LeadsTo latency context before bytes behind x y := by
  obtain ⟨acts, hbrings, hplay⟩ := h
  exact ⟨.loop :: acts, .loop hbrings, hplay⟩

lemma LeadsTo.reader (limit : Nat) (pollForbidden : Bool)
    (h : LeadsTo latency context before bytes behind
      (x.stepReader latency context limit pollForbidden) y) :
    LeadsTo latency context before bytes behind x y := by
  obtain ⟨acts, hbrings, hplay⟩ := h
  exact ⟨.reader limit pollForbidden :: acts, .reader limit pollForbidden hbrings, hplay⟩

lemma LeadsTo.trans (h : LeadsTo latency context before bytes between x y)
    (h' : LeadsTo latency context between bytes' behind y z) :
    LeadsTo latency context before (bytes ++ bytes') behind x z := by
  obtain ⟨acts, hbrings, rfl⟩ := h
  obtain ⟨more, hbrings', rfl⟩ := h'
  exact ⟨acts ++ more, hbrings.append hbrings', List.foldl_append⟩

lemma Kept.leadsTo (h : Kept latency context x s) (hlatency : latency.isNegative = false)
    (hlead : LeadsTo latency context before bytes behind x y) : ∃ t, Kept latency context y t := by
  obtain ⟨acts, -, rfl⟩ := hlead
  exact h.play hlatency acts

/-- In a run the loop makes a step of the machine. -/
lemma stepLoop_running (hplace : x.place = .running last) {frame : Frame RelayCode State}
    {frames : List (Frame RelayCode State)} (hstack : x.stack = frame :: frames)
    (hsim : x.world.sim? 0 = some s) : x.stepLoop = x.stepRun frame frames s := by
  rw [Session.stepLoop, hplace, hstack]
  dsimp only
  rw [hsim]

/-- A session is inside a run of the simulator of `w`, which has come to `a`. -/
structure Follows (last : Bool) (w : Stage) (a : Machine RelayCode State) (x : Session) : Prop where
  world : x.world = w.put 0 a.sim a.memory
  stack : x.stack = a.stack
  place : x.place = .running last
  untouched : Untouched w.memory a.memory

/-- A step of the machine is a step of the loop. -/
lemma Follows.step (hf : Follows last w a x) (h : Kept latency context x a.sim)
    (hgoes : a.isDone = false) :
    Follows last w (Machine.step code a) x.stepLoop ∧
      Kept latency context x.stepLoop (Machine.step code a).sim := by
  obtain ⟨s, m, stack, broken⟩ := a
  cases stack with
  | nil => cases hgoes
  | cons frame frames =>
    obtain ⟨hworld, hstack, hplace, huntouched⟩ := hf
    have hloop : x.stepLoop = x.stepRun frame frames s := stepLoop_running hplace hstack h.sim
    have hb : Machine.step code ⟨s, x.world.memory, frame :: frames, false⟩ =
        (Machine.step code ⟨s, m, frame :: frames, broken⟩).setInbox 0 s.inbox := by
      rw [hworld]
      exact Machine.step_setInbox code (a := ⟨s, m, frame :: frames, false⟩) h.identity s.inbox
    have hkept := h.stepRun hplace hstack
    have hwithin := h.within hplace
    rw [hstack] at hwithin
    rw [hb] at hkept
    rw [hloop]
    refine ⟨⟨?_, ?_, hplace, ?_⟩, hkept⟩
    · show x.world.put 0 (Machine.step code ⟨s, x.world.memory, frame :: frames, false⟩).sim
        (Machine.step code ⟨s, x.world.memory, frame :: frames, false⟩).memory = _
      rw [hb, hworld]
      exact World.put_put ..
    · show (Machine.step code ⟨s, x.world.memory, frame :: frames, false⟩).stack = _
      rw [hb]
      rfl
    · exact huntouched.trans (hwithin.step h.sound h.timely m).2

/-- Steps of the machine are steps of the loop. -/
lemma Follows.runFor (hf : Follows last w a x) (h : Kept latency context x a.sim) (isOpen : Bool)
    (n : Nat) :
    ∃ y, GoesTo latency context isOpen x y ∧ Follows last w (runFor code n a) y ∧
      Kept latency context y (runFor code n a).sim := by
  induction n generalizing a x with
  | zero => exact ⟨x, .refl isOpen x, hf, h⟩
  | succ n ih =>
    rw [Machine.runFor]
    split
    · exact ⟨x, .refl isOpen x, hf, h⟩
    · next hgoes =>
      obtain ⟨hf', h'⟩ := hf.step h (Bool.eq_false_iff.mpr hgoes)
      obtain ⟨y, hlead, hy⟩ := ih hf' h'
      exact ⟨y, hlead.loop, hy⟩

/-- A run that nothing comes in between is a run of the simulator on its own. -/
lemma Kept.runOnce (h : Kept latency context (x.enter last) s) (isOpen : Bool) :
    ∃ y, GoesTo latency context isOpen (x.enter last) y ∧ y.world = Relay.runOnce x.world ∧
      y.place = (if last then .left else .looking) ∧
      y.world.user.reader = x.world.user.reader ∧ y.world.user.input = x.world.user.input := by
  let m := x.world.memory
  let b : Machine RelayCode State :=
    ⟨{ s with phase := .running }, m, [.loop, .exec (.done ())], false⟩
  have hsim : x.world.sim? 0 = some s := h.sim
  have hphase : s.phase = .notRunning ∨ s.phase = .stopped := by
    have hplaced : Placed s [.exec oneRun] (.running last) := h.placed
    cases hplaced with
    | running hhalts hstands =>
      cases hstands with
      | entry hphase => exact hphase
  have hb : Machine.step code ⟨s, m, [.exec oneRun], false⟩ = b := step_oneRun hphase m
  obtain ⟨k, hlimit, hle⟩ : ∃ k, stepLimit x.world = k + 1 ∧
      8 * (s.pendingEvents + s.inbox.events.size) + 3 ≤ k := by
    refine ⟨16 * (s.inbox.events.size + s.pendingEvents) + 15, ?_, by omega⟩
    rw [stepLimit, hsim]
    exact Nat.mul_succ ..
  have hrun : Relay.runOnce x.world =
      x.world.put 0 (runFor code k b).sim (runFor code k b).memory := by
    rw [Relay.runOnce, World.performFor, hsim, hlimit, ← hb]
    rfl
  -- The first step of the loop enters the run.
  have hloop : (x.enter last).stepLoop = (x.enter last).stepRun (.exec oneRun) [] s :=
    stepLoop_running rfl rfl hsim
  have hkept : Kept latency context (x.enter last).stepLoop b.sim := by
    rw [hloop, ← hb]
    exact h.stepRun rfl rfl
  have hfollows : Follows last x.world b (x.enter last).stepLoop := by
    rw [hloop]
    refine ⟨?_, ?_, rfl, ?_⟩
    · show x.world.put 0 (Machine.step code ⟨s, m, [.exec oneRun], false⟩).sim
        (Machine.step code ⟨s, m, [.exec oneRun], false⟩).memory = _
      rw [hb]
    · show (Machine.step code ⟨s, m, [.exec oneRun], false⟩).stack = _
      rw [hb]
    · exact ⟨rfl, rfl, rfl⟩
  obtain ⟨z, hlead, hf, -⟩ := hfollows.runFor hkept isOpen k
  have hdone : (runFor code k b).isDone = true := by
    have hwithin := hkept.within hfollows.place
    rw [hfollows.stack] at hwithin
    exact Machine.isDone_runFor_mono hle (hwithin.isDone_runFor hkept.sound hkept.timely m rfl)
  -- The last one sees that nothing is left to do.
  have hlast : z.stepLoop = { z with place := if last then .left else .looking } := by
    rw [Session.stepLoop, hf.place, hf.stack, List.isEmpty_iff.mp hdone]
  refine ⟨z.stepLoop, (hlead.trans (.loop (.refl isOpen _))).loop, ?_, ?_, ?_⟩
  · rw [hlast, hrun]
    exact hf.world
  · rw [hlast]
  · rw [hlast]
    dsimp only
    rw [hf.world]
    exact ⟨hf.untouched.reader, hf.untouched.input⟩

/-! ### The reader goes on -/

/-- What the reader and its input come to, and what is handed in. -/
def hand (latency : Time) (context : ContextId) (r : Reader (List UInt8)) (input : Descriptor)
    (chunks : List (List UInt8)) (x : Session) : Session :=
  { x with
    world := chunks.foldl (forward latency context)
      (x.world.modifyUser fun s => { s with reader := r, input := input })
    delivered := x.delivered ++ chunks }

lemma user_hand (r : Reader (List UInt8)) (input : Descriptor) (chunks : List (List UInt8))
    (x : Session) :
    (x.hand latency context r input chunks).world.user =
      { x.world.user with
        reader := r, input := input, bytes := x.world.user.bytes + chunks.flatten.length } :=
  user_foldl_forward ..

lemma hand_hand (r r' : Reader (List UInt8)) (input input' : Descriptor)
    (chunks chunks' : List (List UInt8)) (x : Session) :
    (x.hand latency context r input chunks).hand latency context r' input' chunks' =
      x.hand latency context r' input' (chunks ++ chunks') := by
  have hset : ∀ w : Stage, (chunks.foldl (forward latency context) w).modifyUser
      (fun s => { s with reader := r', input := input' }) =
        chunks.foldl (forward latency context)
          (w.modifyUser fun s => { s with reader := r', input := input' }) := by
    induction chunks with
    | nil => exact fun w => rfl
    | cons chunk chunks ih => exact fun w => ih (forward latency context w chunk)
  rw [hand, hand, hand, hset, List.foldl_append, List.append_assoc]
  rfl

/-- Nothing happens. -/
lemma goesTo_hand_self (isOpen : Bool) (x : Session) : GoesTo latency context isOpen x
    (x.hand latency context x.world.user.reader x.world.user.input []) := by
  rw [hand, List.append_nil]
  exact .refl isOpen x

/-- A step of the thread whose reads give as much as there is room for. -/
lemma stepReader_eq_hand {t : ReaderThread (List UInt8)} (ht : x.world.user.reader.thread = some t)
    {step : Reader.ThreadStep (List UInt8)}
    (hstep : x.world.user.reader.advanceThread false x.world.user.input = some step) :
    x.stepReader latency context t.buffer.size false =
      x.hand latency context step.reader step.descriptor step.emitted.toList := by
  rw [← SharedReader.stepThread_curb ht] at hstep
  rw [stepReader]
  dsimp only
  rw [ht]
  dsimp only
  rw [hstep]
  rfl

/-- A thread that goes on leaves the calls of `stop` alone. -/
lemma stops_advanceThread {r : Reader (List UInt8)} {d : Descriptor}
    {step : Reader.ThreadStep (List UInt8)} (hstep : r.advanceThread false d = some step) :
    step.reader.stops = r.stops := by
  obtain ⟨t, ht, -⟩ := Option.bind_eq_some_iff.mp hstep
  rw [← SharedReader.stepThread_curb ht] at hstep
  obtain ⟨_, _, _, -, hreader⟩ := Reader.proceeds_stepThread ht hstep
  rw [hreader]

/-- The reader goes on alone until it waits. -/
lemma goesTo_settleFor (latency : Time) (context : ContextId) (isOpen : Bool) (n : Nat)
    (x : Session) (hstops : x.world.user.reader.stops = []) (emitted : Array (List UInt8)) :
    ∃ chunks, let a := x.world.user.reader.settleFor false n x.world.user.input emitted
      a.emitted.toList = emitted.toList ++ chunks ∧ a.reader.stops = [] ∧
        GoesTo latency context isOpen x
          (x.hand latency context a.reader a.descriptor chunks) := by
  induction n generalizing x emitted with
  | zero => exact ⟨[], (List.append_nil _).symm, hstops, goesTo_hand_self isOpen x⟩
  | succ n ih =>
    rw [Reader.settleFor, Reader.advance_of_stops hstops]
    cases hstep : x.world.user.reader.advanceThread false x.world.user.input with
    | none => exact ⟨[], (List.append_nil _).symm, hstops, goesTo_hand_self isOpen x⟩
    | some step =>
      obtain ⟨t, ht, -⟩ := Option.bind_eq_some_iff.mp hstep
      let y := x.hand latency context step.reader step.descriptor step.emitted.toList
      have hy : x.stepReader latency context t.buffer.size false = y :=
        stepReader_eq_hand ht hstep
      obtain ⟨hreader, hinput⟩ : y.world.user.reader = step.reader ∧
          y.world.user.input = step.descriptor := by
        rw [user_hand]
        exact ⟨rfl, rfl⟩
      have hmore := fun emitted => ih y (by rw [hreader, stops_advanceThread hstep, hstops]) emitted
      rw [hreader, hinput] at hmore
      simp only [y, hand_hand] at hmore
      obtain ⟨r, d, output⟩ := step
      cases output with
      | none =>
        obtain ⟨chunks, hchunks, hnone, hlead⟩ := hmore emitted
        refine ⟨chunks, hchunks, hnone, .reader t.buffer.size false ?_⟩
        rw [hy]
        exact hlead
      | some chunk =>
        obtain ⟨chunks, hchunks, hnone, hlead⟩ := hmore (emitted.push chunk)
        rw [Array.toList_push, List.append_assoc] at hchunks
        refine ⟨chunk :: chunks, hchunks, hnone, .reader t.buffer.size false ?_⟩
        rw [hy]
        exact hlead

/-- The input changes, and the reader goes on until it waits. -/
lemma leadsTo_afterInput (latency : Time) (context : ContextId) {f : Descriptor → Descriptor}
    (hf : ∀ {acts}, Brings behind acts [] behind → Brings before (.change f :: acts) bytes behind)
    (x : Session) (hstops : x.world.user.reader.stops = []) :
    ∃ y, LeadsTo latency context before bytes behind x y ∧
      y.world = afterInput latency context f x.world ∧ y.place = x.place := by
  let y : Session := { x with world := x.world.modifyUser fun s => { s with input := f s.input } }
  obtain ⟨chunks, hchunks, hnone, acts, hbrings, hplay⟩ := goesTo_settleFor latency context behind
    (x.world.user.reader.patience (f x.world.user.input)) y hstops #[]
  let a := x.world.user.reader.settleFor false
    (x.world.user.reader.patience (f x.world.user.input)) (f x.world.user.input) #[]
  have hemitted : a.emitted.toList = chunks := hchunks
  refine ⟨y.hand latency context a.reader a.descriptor chunks,
    ⟨.change f :: acts, hf hbrings, hplay⟩, ?_, rfl⟩
  rw [afterInput, Reader.settle_of_stops hnone, ← Array.foldl_toList, ← hemitted]
  rfl

/-- Pieces of the input arrive. -/
lemma leadsTo_arrive (latency : Time) (context : ContextId) (pieces : List (List UInt8))
    (x : Session) (hrelaying : Relaying x.world) :
    ∃ y, LeadsTo latency context true pieces.flatten true x y ∧
      y.world = arrive latency context pieces x.world ∧ y.place = x.place := by
  induction pieces generalizing x with
  | nil => exact ⟨x, .refl true x, rfl, rfl⟩
  | cons piece pieces ih =>
    have hwrite : ∀ {acts}, Brings true acts [] true →
        Brings true (.change (·.write piece) :: acts) piece true := by
      intro acts h
      simpa using Brings.write piece h
    obtain ⟨y, hlead, hworld, hplace⟩ :=
      leadsTo_afterInput latency context hwrite x hrelaying.stops
    have hrelaying' : Relaying y.world := by
      rw [hworld]
      exact hrelaying.arrive [piece]
    obtain ⟨z, hlead', hworld', hplace'⟩ := ih y hrelaying'
    refine ⟨z, hlead.trans hlead', ?_, hplace'.trans hplace⟩
    rw [hworld', hworld]
    rfl

/-! ### Rounds -/

/-- The loop, which is asleep, runs the simulator and is about to look for the end of the reader. -/
lemma Kept.runAhead (h : Kept latency context x s) (hplace : x.place = .ahead) (isOpen : Bool) :
    ∃ y, GoesTo latency context isOpen x y ∧ y.world = Relay.runOnce x.world ∧
      y.place = .looking ∧
      y.world.user.reader = x.world.user.reader ∧ y.world.user.input = x.world.user.input := by
  have hloop : x.stepLoop = x.enter false := by
    rw [Session.stepLoop, hplace]
  obtain ⟨t, ht⟩ := h.stepLoop
  rw [hloop] at ht
  obtain ⟨y, hlead, hy⟩ := ht.runOnce isOpen
  rw [← hloop] at hlead
  exact ⟨y, hlead.loop, hy⟩

/-- The loop finds that the reader has ended, runs the simulator once more and is left. -/
lemma Kept.runLast (h : Kept latency context x s) (hplace : x.place = .looking)
    (hexit : x.world.user.reader.exit.isSome = true) (isOpen : Bool) :
    ∃ y, GoesTo latency context isOpen x y ∧ y.world = Relay.runOnce x.world ∧ y.place = .left ∧
      y.world.user.reader = x.world.user.reader := by
  have hloop : x.stepLoop = x.enter true := by
    rw [Session.stepLoop, hplace]
    exact if_pos hexit
  obtain ⟨t, ht⟩ := h.stepLoop
  rw [hloop] at ht
  obtain ⟨y, hlead, hworld, hleft, hreader, -⟩ := ht.runOnce isOpen
  rw [← hloop] at hlead
  exact ⟨y, hlead.loop, hworld, hleft, hreader⟩

/-- The loop finds that the reader goes on. -/
lemma goesTo_ahead (hplace : x.place = .looking) (hexit : x.world.user.reader.exit = none)
    (isOpen : Bool) : GoesTo latency context isOpen x { x with place := .ahead } := by
  refine .loop ?_
  have hloop : x.stepLoop = { x with place := .ahead } := by
    rw [Session.stepLoop, hplace, hexit]
    rfl
  rw [hloop]
  exact .refl isOpen _

/-- A relay that is run round by round is a session. Its loop is left in the end, and the reader has
come to the end of the input. -/
lemma Kept.runRounds (h : Kept latency context x s) (hlatency : latency.isNegative = false)
    (hplace : x.place = .ahead) (hrelaying : Relaying x.world) (final : List (List UInt8))
    (rounds : List (List (List UInt8))) :
    ∃ y, LeadsTo latency context true (rounds.flatten ++ final).flatten false x y ∧
      y.world = Relay.runRounds latency context final rounds x.world ∧ y.place = .left ∧
      y.world.user.reader.exit = some .endOfFile := by
  induction rounds generalizing x s with
  | nil =>
    obtain ⟨y, hy, hworld, hahead⟩ := leadsTo_arrive latency context final x hrelaying
    have hopen : Relaying y.world := by
      rw [hworld]
      exact hrelaying.arrive final
    obtain ⟨z, hz, hworld', hahead'⟩ :=
      leadsTo_afterInput latency context .close y hopen.stops
    obtain ⟨t, ht⟩ := h.leadsTo hlatency (hy.trans hz)
    obtain ⟨u, hu, hrun, hlooking, hreader, -⟩ :=
      ht.runAhead ((hahead'.trans hahead).trans hplace) false
    obtain ⟨t', ht'⟩ := ht.leadsTo hlatency hu
    have hexit : u.world.user.reader.exit = some .endOfFile := by
      rw [hreader, hworld']
      exact hopen.close
    obtain ⟨v, hv, hlast, hleft, hreader'⟩ := ht'.runLast hlooking (by rw [hexit]; rfl) false
    refine ⟨v, ?_, ?_, hleft, by rw [hreader', hexit]⟩
    · simpa using ((hy.trans hz).trans hu).trans hv
    · rw [hlast, hrun, hworld', hworld]
      rfl
  | cons round rounds ih =>
    obtain ⟨y, hy, hworld, hahead⟩ := leadsTo_arrive latency context round x hrelaying
    have hopen : Relaying y.world := by
      rw [hworld]
      exact hrelaying.arrive round
    obtain ⟨t, ht⟩ := h.leadsTo hlatency hy
    obtain ⟨z, hz, hrun, hlooking, hreader, hinput⟩ := ht.runAhead (hahead.trans hplace) true
    have hopen' : Relaying z.world := by
      rw [Relaying, hreader, hinput]
      exact hopen
    have hnext := (hy.trans hz).trans (goesTo_ahead hlooking hopen'.exit true)
    obtain ⟨t', ht'⟩ := h.leadsTo hlatency hnext
    obtain ⟨u, hu, hrounds, hleft⟩ := ih ht' rfl hopen'
    refine ⟨u, ?_, ?_, hleft⟩
    · simpa using hnext.trans hu
    · rw [hrounds]
      dsimp only
      rw [hrun, hworld]
      rfl

end Session

/-- The reader of a relay that has just started it waits for an open pipe. -/
lemma relaying_opening {sim : Simulator RelayCode} (hphase : sim.phase = .notRunning)
    (r : Resolution) (bufferSize : Nat) (context : ContextId) :
    Relaying (opening sim r bufferSize (.pipe {}) context) := by
  obtain ⟨teardown, hopening⟩ := opening_eq hphase r bufferSize (.pipe {}) context
  rw [hopening]
  exact ⟨{}, 6, rfl, rfl, rfl, rfl, rfl, fun _ => rfl, _, 6, rfl, rfl,
    Nat.lt_of_lt_of_le Nat.zero_lt_one (Nat.le_max_right ..), rfl, .polling, (by cases ·), rfl⟩

/-- A relay is a session whose loop is left, and whose reader has come to the end of the input. It
gives what was printed, and a line about the end. -/
theorem relay_is_session {c : Config} {sim : Simulator RelayCode} {r : Resolution}
    (hconfig : Simulator.ofConfig 0 c none = (.ok sim, r)) (latencyMicros : Int)
    (hlatency : (Time.ofUnit r.unit latencyMicros .micros).isNegative = false)
    (context : ContextId) (rounds : List (List (List UInt8))) (final : List (List UInt8)) :
    ∃ acts, Session.Brings true acts (rounds.flatten ++ final).flatten false ∧
      let start : Session := { world := opening sim r c.bufferSize.toNat (.pipe {}) context }
      let x := start.play (Time.ofUnit r.unit latencyMicros .micros) context acts
      x.place = .left ∧ x.world.user.reader.exit = some .endOfFile ∧
        relay c latencyMicros context rounds final =
          .ok (x.world.user.output ++
            summary (((x.world.sim? 0).map (·.now)).getD .zero) x.world.user) := by
  have hbuilt : Built (Time.ofUnit r.unit latencyMicros .micros) context sim :=
    built_ofConfig _ context hconfig
  obtain ⟨s, h⟩ := hbuilt.start r c.bufferSize.toNat (.pipe {})
  obtain ⟨_, ⟨acts, hbrings, rfl⟩, hworld, hleft, hexit⟩ := h.runRounds hlatency rfl
    (relaying_opening hbuilt.phase r c.bufferSize.toNat context) final rounds
  refine ⟨acts, hbrings, hleft, hexit, ?_⟩
  rw [relay, hconfig]
  dsimp only
  rw [hlatency, hworld]
  rfl

end Relay

end EventKernel
