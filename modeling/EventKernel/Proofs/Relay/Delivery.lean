import EventKernel.Config.Basic
import EventKernel.Proofs.Reader.Lifecycle
import EventKernel.Proofs.Relay.Run

/-!
# The relay loses nothing

Whatever comes between the steps of its loop, a relay has printed every chunk that its reader has
delivered when it is left, once and in order. The thread makes its end known when it has ended, and
the last run begins behind that, so it finds what is left in the inbox and in the queue, and nothing
comes in any more.
-/

namespace EventKernel

/-- A thread makes its end known when it has ended. -/
lemma Reader.Proceeds.exit_eq_or_ended {E : Type} {limit : Nat} {r : Reader E}
    {t t' : ReaderThread E} {d d' : Descriptor} {flag : Bool} {exit : Option ReaderExit}
    (h : Reader.Proceeds limit r t d t' flag exit d') :
    exit = r.exit ∨ t'.stage.isEnded = true := by
  cases h with
  | leave => exact Or.inr rfl
  | _ => exact Or.inl rfl

namespace Relay

open Machine (keysOf)

variable {latency : Time} {context : ContextId} {s : Simulator RelayCode} {last : Bool}
  {stack frames : List (Frame RelayCode State)} {frame : Frame RelayCode State}

lemma forward_spec (latency : Time) (context : ContextId) {w : Stage} (hsim : w.sim? 0 = some s)
    (hsize : w.memory.inboxes.size = w.sims.size) (chunk : List UInt8) :
    let w' := forward latency context w chunk
    w'.sim? 0 = some { s with inbox := (s.inbox.push ⟨context, latency, printing chunk⟩).2 } ∧
      w'.memory.inboxes.size = w'.sims.size ∧ w'.user.reader = w.user.reader := by
  intro w'
  refine ⟨?_, ?_, rfl⟩
  · exact World.sim?_askInbox (w := w.modifyUser _) hsize 0 _ hsim
  · show (w.memory.inboxes.modify _ _).size = _
    rw [Array.size_modify]
    exact hsize

/-- Where the loop is, and what it has come to there. -/
inductive Placed (s : Simulator RelayCode) (stack : List (Frame RelayCode State)) :
    Place → Prop where
  | ahead (hphase : s.phase = .notRunning ∨ s.phase = .stopped)
      (hstop : s.stopRequested = false) : Placed s stack .ahead
  | running {last : Bool} (hhalts : Halts last s) (hstands : Stands last s stack) :
      Placed s stack (.running last)
  | looking (hended : Ended false s) : Placed s stack .looking
  | left (hended : Ended true s) : Placed s stack .left

/-- Unless the last run has begun, it does not matter what waits in the inbox. -/
lemma Placed.setInbox {place : Place} (h : Placed s stack place) (hrunning : place ≠ .running true)
    (hleft : place ≠ .left) (b : Inbox (Task RelayCode)) :
    Placed { s with inbox := b } stack place := by
  cases h with
  | ahead hphase hstop => exact .ahead hphase hstop
  | looking hended => exact .looking { hended with empty := Bool.noConfusion }
  | left => exact absurd rfl hleft
  | @running last hhalts hstands =>
    obtain rfl : last = false := Bool.eq_false_iff.mpr fun hlast => hrunning (by rw [hlast])
    refine .running ⟨hhalts.requested, Bool.noConfusion⟩ ?_
    cases hstands with
    | entry hphase => exact .entry hphase
    | loop => exact .loop
    | next => exact .next Bool.noConfusion
    | stopping hnone hlast => exact .stopping hnone hlast
    | starting chunk => exact .starting chunk
    | printing hp => exact .printing hp
    | restoring => exact .restoring
    | leaving hended => exact .leaving { hended with empty := Bool.noConfusion }
    | rest hended => exact .rest { hended with empty := Bool.noConfusion }

namespace Session

/-- What holds throughout the life of a relay. -/
structure Kept (latency : Time) (context : ContextId) (x : Session) (s : Simulator RelayCode) :
    Prop where
  sim : x.world.sim? 0 = some s
  size : x.world.memory.inboxes.size = x.world.sims.size
  identity : s.identity = 0
  timely : s.Timely (keysOf x.dispatched)
  sound : s.Sound
  flow : ∃ queue, Flow latency context x.delivered x.dispatched queue s
  opened : s.inbox.closed = false ∧ s.inbox.stop = false
  placed : Placed s x.stack x.place
  ended : x.world.user.reader.exit.isSome = true → x.world.user.reader.threadEnded = true
  last : x.place = .running true ∨ x.place = .left → x.world.user.reader.exit.isSome = true

variable {x : Session}

/-- The loop starts a run. -/
lemma Kept.enter (h : Kept latency context x s)
    (hphase : s.phase = .notRunning ∨ s.phase = .stopped) (hstop : s.stopRequested = false)
    (hlast : last = true → Unstopped s ∧ x.world.user.reader.exit.isSome = true) :
    Kept latency context (x.enter last) s where
  sim := h.sim
  size := h.size
  identity := h.identity
  timely := h.timely
  sound := h.sound
  flow := h.flow
  opened := h.opened
  placed := by
    refine .running ⟨?_, fun hl => ⟨hstop, (hlast hl).1⟩⟩ (.entry hphase)
    intro hrequested
    cases hstop.symm.trans hrequested
  ended := h.ended
  last := by
    rintro (hplace | hplace)
    · exact (hlast (Place.running.inj hplace)).2
    · cases hplace

/-- In a run the loop is where the run is. -/
lemma Kept.within (h : Kept latency context x s) (hplace : x.place = .running last) :
    Within latency context x.delivered x.dispatched last x.stack s := by
  have hplaced := h.placed
  rw [hplace] at hplaced
  cases hplaced with
  | running hhalts hstands => exact ⟨h.flow, h.opened, hhalts, hstands⟩

lemma Kept.stepRun (h : Kept latency context x s) (hplace : x.place = .running last)
    (hstack : x.stack = frame :: frames) :
    Kept latency context (x.stepRun frame frames s)
      (Machine.step code ⟨s, x.world.memory, frame :: frames, false⟩).sim := by
  let a : Machine RelayCode State := ⟨s, x.world.memory, frame :: frames, false⟩
  obtain ⟨-, htimely, -⟩ := Machine.timely_move code .step (a := a) h.timely rfl
  have hsound := (Machine.passage_move code .step (a := a) h.timely rfl h.sound).sound
  have hwithin := h.within hplace
  rw [hstack] at hwithin
  obtain ⟨hstep, ⟨hinboxes, hreader, -⟩⟩ := hwithin.step h.sound h.timely x.world.memory
  have hput : (Machine.step code a).memory.inboxes.size = x.world.sims.size := by
    rw [hinboxes]
    exact h.size
  have hkept : (x.stepRun frame frames s).world.user.reader = x.world.user.reader := hreader
  refine ⟨?_, ?_, ?_, ?_, hsound, hstep.flow, hstep.opened, ?_, ?_, ?_⟩
  · exact World.sim?_put (World.of_sim? h.sim).1 hput
  · simp [Session.stepRun, World.put, hinboxes, h.size]
  · exact (Machine.identity_move code .step (a := a) h.timely rfl).trans h.identity
  · show Simulator.Timely (keysOf (x.dispatched ++ a.taken?.toList)) _
    rw [keysOf, List.map_append]
    exact htimely
  · show Placed _ _ x.place
    rw [hplace]
    exact .running hstep.halts hstep.stands
  · rw [hkept]
    exact h.ended
  · rw [hkept]
    exact h.last

lemma Kept.stepLoop (h : Kept latency context x s) : ∃ t, Kept latency context x.stepLoop t := by
  have hplaced := h.placed
  rw [Session.stepLoop]
  cases hplace : x.place with
  | ahead =>
    rw [hplace] at hplaced
    cases hplaced with
    | ahead hphase hstop => exact ⟨s, h.enter hphase hstop Bool.noConfusion⟩
  | looking =>
    rw [hplace] at hplaced
    cases hplaced with
    | looking hended =>
      dsimp only
      split
      · next hexit =>
        exact ⟨s, h.enter (Or.inr hended.phase) hended.stopRequested fun _ =>
          ⟨hended.unstopped, hexit⟩⟩
      · exact ⟨s, { h with
          placed := .ahead (Or.inr hended.phase) hended.stopRequested
          last := by simp }⟩
  | left => exact ⟨s, h⟩
  | running last =>
    cases hstack : x.stack with
    | nil =>
      rw [hplace, hstack] at hplaced
      cases hplaced with
      | running hhalts hstands =>
        cases hstands with
        | rest hended =>
          cases last with
          | false => exact ⟨s, { h with placed := .looking hended, last := by simp }⟩
          | true =>
            exact ⟨s, { h with placed := .left hended, last := fun _ => h.last (Or.inl hplace) }⟩
    | cons frame frames =>
      dsimp only
      rw [h.sim]
      exact ⟨_, h.stepRun hplace hstack⟩

/-- A step of the loop is one of a run, or it only moves to another place. -/
lemma Kept.stepLoop_cases (h : Kept latency context x s) :
    (x.stepLoop.world = x.world ∧ x.stepLoop.dispatched = x.dispatched ∧
        x.stepLoop.delivered = x.delivered) ∨
      ∃ last frame frames, x.place = .running last ∧ x.stack = frame :: frames ∧
        x.stepLoop = x.stepRun frame frames s := by
  rw [Session.stepLoop]
  cases hplace : x.place with
  | ahead | left => exact Or.inl ⟨rfl, rfl, rfl⟩
  | looking =>
    dsimp only
    split <;> exact Or.inl ⟨rfl, rfl, rfl⟩
  | running last =>
    cases hstack : x.stack with
    | nil => exact Or.inl ⟨rfl, rfl, rfl⟩
    | cons frame frames =>
      rw [h.sim]
      exact Or.inr ⟨last, frame, frames, rfl, rfl, rfl⟩

/-- A chunk is handed in. -/
lemma Kept.forward (h : Kept latency context x s) (hlatency : latency.isNegative = false)
    (hrunning : x.place ≠ .running true) (hleft : x.place ≠ .left) (chunk : List UInt8) :
    Kept latency context
      { x with
        world := forward latency context x.world chunk
        delivered := x.delivered ++ [chunk] }
      { s with inbox := (s.inbox.push ⟨context, latency, printing chunk⟩).2 } := by
  obtain ⟨hsim, hsize, hreader⟩ := forward_spec latency context h.sim h.size chunk
  have hcourse := s.course_push context latency (.print (String.ofList (decodeLenient chunk)))
  obtain ⟨queue, hflow⟩ := h.flow
  refine ⟨hsim, hsize, h.identity, (h.timely.course hcourse).1, (h.sound.passage hcourse).sound,
    ⟨queue, hflow.push hlatency h.opened.1 chunk⟩, ?_, ?_, ?_, ?_⟩
  · rw [Inbox.push, hlatency, if_neg Bool.false_ne_true]
    split
    · exact h.opened
    · exact h.opened
  · exact h.placed.setInbox hrunning hleft _
  · rw [hreader]
    exact h.ended
  · rw [hreader]
    exact h.last

/-- The reader changes, and with it the input. -/
lemma Kept.setReader (h : Kept latency context x s) (r : Reader (List UInt8)) (input : Descriptor)
    (hended : r.exit.isSome = true → r.threadEnded = true)
    (hlast : x.world.user.reader.exit.isSome = true → r.exit.isSome = true) :
    Kept latency context
      { x with world := x.world.modifyUser fun s => { s with reader := r, input := input } } s :=
  { h with
    ended := hended
    last := fun hplace => hlast (h.last hplace) }

lemma Kept.stepReader (h : Kept latency context x s) (hlatency : latency.isNegative = false)
    (limit : Nat) (pollForbidden : Bool) :
    ∃ t, Kept latency context (x.stepReader latency context limit pollForbidden) t := by
  rw [Session.stepReader]
  dsimp only
  split
  · exact ⟨s, h⟩
  · next u hu =>
    split
    · exact ⟨s, h⟩
    · next step hstep =>
      obtain ⟨u', flag, exit, hproceeds, hreader⟩ := Reader.proceeds_stepThread hu hstep
      have hgoes : x.world.user.reader.exit = none := by
        -- Otherwise the thread would have ended.
        refine Option.eq_none_iff_forall_ne_some.mpr fun e he => ?_
        have hended := Reader.threadEnded_eq_true_iff.mp (h.ended (by rw [he]; rfl)) u hu
        rw [hproceeds.stage.1] at hended
        cases hended
      have hplace : ¬(x.place = .running true ∨ x.place = .left) := by
        intro hplace
        have hexit := h.last hplace
        rw [hgoes] at hexit
        cases hexit
      have hset := h.setReader step.reader step.descriptor ?_ ?_
      · cases step.emitted with
        | none => exact ⟨s, by simpa using hset⟩
        | some chunk =>
          obtain ⟨hrunning, hleft⟩ := not_or.mp hplace
          exact ⟨_, hset.forward hlatency hrunning hleft chunk⟩
      · rw [hreader, Reader.threadEnded]
        intro hexit
        refine hproceeds.exit_eq_or_ended.resolve_left ?_
        rintro rfl
        rw [hgoes] at hexit
        cases hexit
      · intro hexit
        rw [hgoes] at hexit
        cases hexit

lemma Kept.act (h : Kept latency context x s) (hlatency : latency.isNegative = false)
    (y : Action) : ∃ t, Kept latency context (x.act latency context y) t := by
  cases y with
  | loop => exact h.stepLoop
  | reader limit pollForbidden => exact h.stepReader hlatency limit pollForbidden
  | change f => exact ⟨s, h.setReader _ _ h.ended id⟩
  | interrupt =>
    refine ⟨s, h.setReader _ x.world.user.input (fun hexit => ?_) id⟩
    refine Reader.threadEnded_eq_true_iff.mpr fun t ht => ?_
    obtain ⟨u, hu, rfl⟩ := Option.map_eq_some_iff.mp ht
    have hended := Reader.threadEnded_eq_true_iff.mp (h.ended hexit) u hu
    split
    · next hstage =>
      rw [hstage] at hended
      cases hended
    · exact hended

lemma Kept.play (h : Kept latency context x s) (hlatency : latency.isNegative = false)
    (acts : List Action) : ∃ t, Kept latency context (x.play latency context acts) t := by
  induction acts generalizing x s with
  | nil => exact ⟨s, h⟩
  | cons y acts ih =>
    obtain ⟨t, ht⟩ := h.act hlatency y
    exact ih ht

/-- When the loop is left, everything that was handed in has been printed, and nothing is left. -/
lemma Kept.printed_of_left (h : Kept latency context x s) (hleft : x.place = .left) :
    (printed x.dispatched).map (·.content) =
        x.delivered.map (fun chunk => (context, printing chunk)) ∧
      s.inbox.events = #[] ∧ s.scheduler.arena.entries = [] := by
  have hplaced := h.placed
  rw [hleft] at hplaced
  cases hplaced with
  | left hended =>
    obtain ⟨hqueue, hinbox⟩ := hended.empty rfl
    obtain ⟨queue, hflow⟩ := h.flow
    have hnil : queue = [] := by
      refine List.eq_nil_iff_forall_not_mem.mpr fun ev hev => ?_
      obtain ⟨id, hid, -⟩ := (hflow.mem_iff ev).mp hev
      obtain ⟨e, he, -⟩ := Simulator.mem_entries_of_get? hid
      rw [hqueue] at he
      cases he
    have haccount := hflow.account
    rw [hnil, hinbox, List.map_nil, List.append_nil] at haccount
    exact ⟨(haccount.trans (List.append_nil _)).symm, hinbox, hqueue⟩

end Session

/-! ### The start -/

/-- A simulator that was just built. Its queue holds a stop, or nothing. -/
structure Built (latency : Time) (context : ContextId) (s : Simulator RelayCode) : Prop where
  identity : s.identity = 0
  timely : s.Timely []
  sound : s.Sound
  flow : Flow latency context [] [] [] s
  inbox : s.inbox = {}
  phase : s.phase = .notRunning
  stopRequested : s.stopRequested = false

/-- Nothing was handed in yet. -/
lemma flow_of_stop (hinbox : s.inbox.events = #[]) (id : EventId)
    (hstop : ∀ id' ev, s.scheduler.get? id' = some ev →
      id' = id ∧ ev.task = .stop ∧ ev.cancelled = false) :
    Flow latency context [] [] [] s where
  account := by rw [hinbox]; rfl
  mem_iff ev := by
    refine ⟨fun hev => (by cases hev), ?_⟩
    rintro ⟨id', hev, htask⟩
    exact absurd (hstop id' ev hev).2.1 htask
  sorted := .nil
  due ev hev := by cases hev
  live id' ev hev := (hstop id' ev hev).2.2
  delay ev hev := by
    rw [hinbox] at hev
    simp at hev
  single := ⟨id, fun id' ev hev _ => (hstop id' ev hev).1⟩

lemma built_create (kind : QueueKind) (buckets : Nat) (sync : SyncMode) :
    Built latency context (.create 0 kind buckets sync) := by
  refine ⟨rfl, Simulator.timely_create .., (Simulator.told_create ..).sound,
    flow_of_stop rfl (.destroy 0) fun id ev hev => ?_, rfl, rfl, rfl⟩
  cases (Scheduler.get?_empty kind buckets id).symm.trans hev

lemma Built.stopAfter (h : Built latency context s) (hnone : ∀ id, s.scheduler.get? id = none)
    {delay : Time} {id : EventId} {t : Simulator RelayCode}
    (ht : s.stopAfter delay = (.ok id, t)) : Built latency context t := by
  have halive : s.phase ≠ .destroyed := by rw [h.phase]; exact Phase.noConfusion
  rw [Simulator.stopAfter, Simulator.scheduleWith, if_neg halive] at ht
  split at ht
  · cases ht
  · next hdelay =>
    rw [Bool.not_eq_true] at hdelay
    obtain rfl : (s.insert .none delay .stop).2 = t := congrArg Prod.snd ht
    refine ⟨h.identity, h.timely.insert .none .stop hdelay,
      (h.sound.eventChange (.insert s .none .stop hdelay)).sound, ?_, h.inbox, h.phase,
      h.stopRequested⟩
    refine flow_of_stop (congrArg Inbox.events h.inbox) (s.insert .none delay .stop).1
      fun id ev hev => ?_
    have hfind := Simulator.find?_of_get? hev
    rw [(h.sound.find?_insert .none delay .stop).2.2] at hfind
    split at hfind
    · next hid =>
      cases hfind
      exact ⟨hid, rfl, rfl⟩
    · obtain ⟨slot, n, rfl⟩ := Scheduler.queued_of_get? hev
      cases (hnone (.queued slot n)).symm.trans hfind

lemma built_ofConfig (latency : Time) (context : ContextId) {c : Config} {r₀ r : Resolution}
    (hc : Simulator.ofConfig 0 c r₀ = (.ok s, r)) : Built latency context s := by
  have hcreate : Built latency context (.create 0 c.kind c.calendarBuckets.toNat c.sync) :=
    built_create ..
  rw [Simulator.ofConfig] at hc
  split at hc
  · cases hc
  · dsimp only at hc
    split at hc
    · cases hc
      exact hcreate
    · split at hc
      · cases hc
      · next hstop =>
        cases hc
        exact hcreate.stopAfter (Scheduler.get?_empty _ _) hstop

/-- What the reader of a relay does. -/
def plan : ReadPlan (List UInt8) := { target := "stdin", callback := fun c => [.emit c] }

/-- A simulator and a reader that was started on it, with the counter installed. -/
lemma opening_eq (hphase : s.phase = .notRunning) (r : Resolution) (bufferSize : Nat)
    (input : Descriptor) (context : ContextId) :
    ∃ teardown, let w : Stage := { memory := { user := {
        resolution := r
        reader := { Reader.create bufferSize with teardown := teardown }.spawn plan
        input := input } } }
      opening s r bufferSize input context = (w.add (some s)).put 0
        { (s.scheduleDestroy (.user .teardown)).2 with observer := some (.count context) }
        (w.add (some s)).memory := by
  let state : State := { resolution := r, reader := .create bufferSize, input }
  let w : Stage := { memory := { user := state } }
  have hsim : (w.add (some s)).sim? 0 = some s := World.sim?_add_self rfl s
  rw [opening, World.perform, World.performFor, hsim]
  -- It takes six steps, and then nothing is left to do.
  have hlimit : World.stepLimit = 999999999999993 + 7 := rfl
  rw [hlimit]
  generalize 999999999999993 = k
  obtain ⟨identity, scheduler, sequences, teardown, inbox, now, c, phase⟩ := s
  obtain rfl : phase = .notRunning := hphase
  exact ⟨_, rfl⟩

lemma Built.start (h : Built latency context s) (r : Resolution) (bufferSize : Nat)
    (input : Descriptor) :
    ∃ t, Session.Kept latency context { world := opening s r bufferSize input context } t := by
  let u := (s.scheduleDestroy (.user .teardown)).2
  let t : Simulator RelayCode := { u with observer := some (.count context) }
  have halive : s.phase ≠ .destroyed := by rw [h.phase]; exact Phase.noConfusion
  have hcourse : s.Course (Simulator.issueTurns (s.scheduleDestroy (.user .teardown))) t :=
    (s.course_scheduleDestroy .teardown).course.quiet
      (.other u u.context u.phase u.stopRequested u.sync _)
  have hu : u.identity = s.identity ∧ u.scheduler = s.scheduler ∧ u.now = s.now ∧
      u.inbox = s.inbox ∧ u.phase = s.phase ∧ u.stopRequested = s.stopRequested := by
    show _ = _ ∧ _
    simp only [u, Simulator.scheduleDestroy, if_neg halive, and_self]
  obtain ⟨hidentity, hscheduler, hnow, hinbox, hphase, hstop⟩ := hu
  obtain ⟨teardown, hopening⟩ := opening_eq h.phase r bufferSize input context
  refine ⟨t, ⟨?_, ?_, hidentity.trans h.identity, (h.timely.course hcourse).1,
    (h.sound.passage hcourse).sound, ?_, ?_, ?_, ?_, by simp⟩⟩
  · rw [hopening]
    exact World.sim?_put (by simp [World.add]) (by simp [World.add])
  · rw [hopening]
    simp [World.put, World.add]
  · exact ⟨[], h.flow.congr hscheduler hnow (congrArg Inbox.events hinbox)⟩
  · rw [show t.inbox = _ from hinbox, h.inbox]
    exact ⟨rfl, rfl⟩
  · exact .ahead (Or.inl (hphase.trans h.phase)) (hstop.trans h.stopRequested)
  · rw [hopening]
    exact Bool.noConfusion

/-- When the loop of a relay is left, every chunk that the reader has delivered has been printed
once, in the order in which the chunks were read and at times that do not decrease, and nothing is
left in the inbox or in the queue, whatever came between the steps of the loop. The thread of the
reader has ended then, so nothing comes in any more. -/
theorem loses_nothing {c : Config} {sim : Simulator RelayCode} {r : Resolution}
    (hconfig : Simulator.ofConfig 0 c none = (.ok sim, r)) (latencyMicros : Int)
    (hlatency : (Time.ofUnit r.unit latencyMicros .micros).isNegative = false)
    (context : ContextId) (input : Descriptor) (acts : List Session.Action) :
    let latency := Time.ofUnit r.unit latencyMicros .micros
    let start : Session := { world := opening sim r c.bufferSize.toNat input context }
    let x := start.play latency context acts
    x.place = .left →
      (printed x.dispatched).map (·.content) =
        x.delivered.map (fun chunk => (context, printing chunk)) ∧
      (x.dispatched.map (·.2.key)).Pairwise (· < ·) ∧
      ((printed x.dispatched).map (·.key.time)).Pairwise (· ≤ ·) ∧
      x.world.user.reader.threadEnded = true ∧
      ∃ s, x.world.sim? 0 = some s ∧ s.inbox.events = #[] ∧ s.scheduler.arena.entries = [] := by
  intro latency start x hleft
  obtain ⟨s₀, hstart⟩ := (built_ofConfig latency context hconfig).start r c.bufferSize.toNat input
  obtain ⟨s, h⟩ := hstart.play hlatency acts
  obtain ⟨haccount, hinbox, hqueue⟩ := h.printed_of_left hleft
  have hkeys := List.pairwise_map.mp h.timely.pairwise
  refine ⟨haccount, List.pairwise_map.mpr hkeys, ?_, h.ended (h.last (Or.inr hleft)), s, h.sim,
    hinbox, hqueue⟩
  have hsorted : (x.dispatched.map (·.2)).Pairwise (·.key < ·.key) := List.pairwise_map.mpr hkeys
  refine List.pairwise_map.mpr ((hsorted.sublist List.filter_sublist).imp fun hlt => ?_)
  exact EventKey.ticks_le (le_of_lt hlt)

/-- A simulator that stops soon. -/
def stopsSoon : Config := { kind := .list, stopAfterNanos := some 5 }

def soonStopped : Simulator RelayCode :=
  ((Simulator.create 0 .list 2 .sequential).stopAfter (.clamp 5)).2

/-- A chunk comes in before the first run, which the stop cuts short. The input is closed and the
thread ends in the middle of it. -/
def cutShort : Session :=
  Session.play (.ofUnit .nanos 1 .micros) .none
    ([.change (·.write [104, 105])] ++ List.replicate 7 (.reader 64 false) ++
      List.replicate 4 .loop ++ [.change (·.close)] ++ List.replicate 8 (.reader 64 false) ++
      List.replicate 24 .loop)
    { world := opening soonStopped (some .nanos) stopsSoon.bufferSize.toNat (.pipe {}) .none }

theorem loses_nothing_cut_short :
    Simulator.ofConfig 0 stopsSoon none = (.ok soonStopped, some .nanos) ∧
      (Time.ofUnit .nanos 1 .micros).isNegative = false ∧ cutShort.place = .left ∧
      cutShort.delivered = [[104, 105]] ∧
      (printed cutShort.dispatched).map (·.content) = [(.none, printing [104, 105])] := by
  have hconfig : Simulator.ofConfig 0 stopsSoon none = (.ok soonStopped, some .nanos) := rfl
  have hlatency : (Time.ofUnit .nanos 1 .micros).isNegative = false := by decide
  have hleft : cutShort.place = .left := by decide +kernel
  have hdelivered : cutShort.delivered = [[104, 105]] := by decide +kernel
  have hprinted : (printed cutShort.dispatched).map (·.content) =
      cutShort.delivered.map fun chunk => (.none, printing chunk) :=
    (loses_nothing hconfig 1 hlatency .none (.pipe {}) _ hleft).1
  rw [hdelivered] at hprinted
  exact ⟨hconfig, hlatency, hleft, hdelivered, hprinted⟩

end Relay

end EventKernel
