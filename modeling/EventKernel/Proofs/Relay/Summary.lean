import Mathlib.Algebra.GroupWithZero.Nat
import EventKernel.Proofs.Config.NegativeDelay
import EventKernel.Proofs.Machine.Observer
import EventKernel.Proofs.Relay.Fidelity

/-!
# What the summary of a relay counts

The counter of a relay knows a chunk by its context alone. The only other event that a relay takes
off its queue is the stop that its simulator may have been built with, which runs in the context of
code outside any event. So if there is a stop, and the relay itself was given this context, the
summary counts one chunk too many; in all other cases it counts the chunks that were delivered and
printed. The bytes are counted where a chunk is handed in, and always right.
-/

namespace EventKernel

namespace Relay

variable {latency : Time} {context : ContextId} {u : TimeUnit} {n : Nat} {s t : Simulator RelayCode}
  {m : Memory RelayCode State} {chunks : List (List UInt8)}
  {taken : List (EventId × Event (Task RelayCode))} {last : Bool}
  {stack frames : List (Frame RelayCode State)} {frame : Frame RelayCode State}
  {keys : List EventKey} {id : EventId} {ev : Event (Task RelayCode)}
  {stop : Option (EventId × Event (Task RelayCode))} {queue : List (Event (Task RelayCode))}
  {state state' : State} {e : String}

/-! ### Stops -/

def isStop : Task RelayCode → Bool
  | .stop => true
  | _ => false

/-- The stops among the events that were taken off the queue and not cancelled. -/
def stops (taken : List (EventId × Event (Task RelayCode))) : List (Event (Task RelayCode)) :=
  (taken.map (·.2)).filter fun ev => !ev.cancelled && isStop ev.task

lemma stops_concat (hlive : ev.cancelled = false) :
    stops (taken ++ [(id, ev)]) = stops taken ++ if isStop ev.task then [ev] else [] := by
  rw [stops, stops, List.map_append, List.filter_append]
  cases hstop : isStop ev.task <;> simp [hlive, hstop]

/-- This is the only stop in the queue, or there is none. It runs outside any event. -/
structure HoldsStop (q : Scheduler (Task RelayCode))
    (stop : Option (EventId × Event (Task RelayCode))) : Prop where
  get?_iff : ∀ id ev, q.get? id = some ev ∧ ev.task = .stop ↔ stop = some (id, ev)
  context : ∀ p ∈ stop, p.2.context = .none

/-- What is taken off the queue and does not stop the loop leaves the stop in it. -/
lemma HoldsStop.remove {q q' : Scheduler (Task RelayCode)} (h : HoldsStop q stop)
    (hev : q.get? id = some ev) (htask : ev.task ≠ .stop)
    (hget : ∀ id', q'.get? id' = if id' = id then none else q.get? id') : HoldsStop q' stop where
  get?_iff id' ev' := by
    rw [← h.get?_iff, hget]
    split
    · next hid =>
      rw [hid, hev]
      refine iff_of_false (fun hnone => by cases hnone.1) ?_
      rintro ⟨hsame, htask'⟩
      exact htask (Option.some.inj hsame ▸ htask')
    · rfl
  context := h.context

/-- Behind the stop there is none in the queue. -/
lemma HoldsStop.remove_stop {q q' : Scheduler (Task RelayCode)} (h : HoldsStop q (some (id, ev)))
    (hget : ∀ id', q'.get? id' = if id' = id then none else q.get? id') : HoldsStop q' none where
  get?_iff id' ev' := by
    rw [hget]
    refine iff_of_false ?_ (by simp)
    split
    · rintro ⟨hnone, -⟩
      cases hnone
    · next hid =>
      intro hstop
      exact hid (Prod.mk.inj (Option.some.inj ((h.get?_iff id' ev').mp hstop))).1.symm
  context p hp := by cases hp

/-- A stop is put into a queue without one. -/
lemma HoldsStop.insert {q : Scheduler (Task RelayCode)} (h : HoldsStop q none) (hq : q.Consistent)
    (htask : ev.task = .stop) (hcontext : ev.context = .none) :
    HoldsStop (q.insert ev).2 (some ((q.insert ev).1, ev)) where
  get?_iff id' ev' := by
    obtain ⟨-, -, hget⟩ := hq.get?_insert ev
    rw [hget]
    split
    · next hid =>
      rw [hid]
      simp only [Option.some.injEq, Prod.mk.injEq, true_and, and_iff_left_iff_imp]
      rintro rfl
      exact htask
    · next hid =>
      rw [h.get?_iff]
      simp [Ne.symm hid]
  context := by
    rintro _ ⟨⟩
    exact hcontext

/-- What is handed in does not stop the loop. -/
lemma HoldsStop.drain (h : HoldsStop s.scheduler stop)
    (hflow : Flow latency context chunks taken queue s) (hs : s.Sound) (ht : s.Timely keys) :
    HoldsStop s.drainInbox.scheduler stop where
  get?_iff id ev := by
    rw [← h.get?_iff, hs.get?_drainInbox ht.delay_nonneg]
    refine and_congr_left fun htask => ⟨?_, Or.inl⟩
    rintro (hev | ⟨x, hx, -, rfl⟩)
    · exact hev
    · exact absurd htask (hflow.task_of_insertion hx).2
  context := h.context

/-! ### Counting step by step -/

/-- How a step of a run changes the queue, and what it takes off. -/
inductive Shifts (s t : Simulator RelayCode) : Option (EventId × Event (Task RelayCode)) → Prop
  | keep (hscheduler : t.scheduler = s.scheduler) : Shifts s t none
  | drain (hscheduler : t.scheduler = s.drainInbox.scheduler) : Shifts s t none
  | take {id : EventId} {ev : Event (Task RelayCode)}
      (hnext : s.scheduler.removeNext = (some (id, ev), t.scheduler)) : Shifts s t (some (id, ev))

/-- A step of a run leaves the counter installed. -/
lemma Within.shifts (h : Within latency context chunks taken last (frame :: frames) s)
    (ht : s.Timely keys) (m : Memory RelayCode State) :
    let a : Machine RelayCode State := ⟨s, m, frame :: frames, false⟩
    let b := Machine.step code a
    Shifts s b.sim a.taken? ∧ b.sim.observer = s.observer := by
  intro a b
  cases h.stands with
  | entry hphase =>
    have hb : b = _ := step_oneRun hphase m
    rw [hb]
    exact ⟨.keep rfl, rfl⟩
  | loop =>
    refine ⟨.drain rfl, ?_⟩
    show s.drainInbox.observer = s.observer
    rw [Simulator.drainInbox_eq, Simulator.insertAll_unchanged]
  | next =>
    have hround := Machine.round_takeNext code m [.exec (.done ())] ht.consistent ht.now_le
    change Machine.Round code s m _ b at hround
    show Shifts s _ s.upcoming? ∧ _
    generalize b = b at hround
    cases hround with
    | finish hnone =>
      rw [hnone]
      exact ⟨.keep rfl, rfl⟩
    | pass hsome hnext =>
      rw [hsome]
      exact ⟨.take hnext, rfl⟩
    | @start id ev q hsome hnext =>
      obtain ⟨m', hlaunch, -⟩ := launch_code id ev { s with scheduler := q, now := ev.key.time } m
        [.exec (.done ())]
      rw [hsome, hlaunch]
      exact ⟨.take hnext, rfl⟩
  | printing hp =>
    cases hp with
    | done => exact ⟨.keep rfl, rfl⟩
    | ask hsim =>
      have hsame : b.sim = s := hsim s m
      rw [hsame]
      exact ⟨.keep rfl, rfl⟩
  | stopping | starting | restoring | leaving => exact ⟨.keep rfl, rfl⟩

/-- Printing counts nothing. -/
lemma Owes.ownUpdate (h : Owes u s (frame :: frames) e) (state : State) :
    (Machine.ownUpdate frame state).chunks = state.chunks ∧
      (Machine.ownUpdate frame state).bytes = state.bytes := by
  cases h with
  | starting => exact ⟨rfl, rfl⟩
  | printing hp =>
    cases hp with
    | chunk | timed | line => exact ⟨rfl, rfl⟩
  | nothing hquiet =>
    cases frame with
    | exec p => rcases hquiet with rfl | rfl <;> exact ⟨rfl, rfl⟩
    | _ => exact ⟨rfl, rfl⟩

/-- The counter counts what a step takes off the queue, if it is in the context of the relay. -/
lemma counted_step (howes : Owes u s (frame :: frames) e)
    (hobserver : s.observer = some (.count context)) (ht : s.Timely keys)
    (m : Memory RelayCode State) :
    let a : Machine RelayCode State := ⟨s, m, frame :: frames, false⟩
    let b := Machine.step code a
    b.memory.user.chunks = m.user.chunks +
        ((a.taken?.toList.filter (·.2.cancelled == false)).countP (·.2.context = context)) ∧
      b.memory.user.bytes = m.user.bytes := by
  intro a b
  obtain ⟨hchunks, hbytes⟩ := howes.ownUpdate m.user
  have huser := Machine.user_move code .step (a := a) ht rfl
  have hown : a.withoutObserver .step = Machine.ownUpdate frame m.user := rfl
  rw [show Machine.move code a .step = b from rfl, show a.takenBy? .step = a.taken? from rfl,
    hown] at huser
  rw [huser]
  cases a.taken? with
  | none => exact ⟨hchunks, hbytes⟩
  | some p =>
    rw [Option.toList_some, List.filter_singleton]
    cases p.2.cancelled with
    | true => exact ⟨hchunks, hbytes⟩
    | false =>
      show (Machine.observed code s (Machine.infoOf p) _).chunks = _ ∧
        (Machine.observed code s (Machine.infoOf p) _).bytes = _
      rw [Machine.observed, hobserver]
      dsimp only [code, Machine.infoOf]
      by_cases hcontext : p.2.context = context
      · simp [hcontext, hchunks, hbytes]
      · simp [hcontext, hchunks, hbytes]

/-- What the counter has come to. So many stops were taken off the queue or are still in it. -/
structure Counts (context : ContextId) (n : Nat) (taken : List (EventId × Event (Task RelayCode)))
    (s : Simulator RelayCode) (state : State) : Prop where
  observer : s.observer = some (.count context)
  chunks : state.chunks =
    (printed taken).length + if context = .none then (stops taken).length else 0
  stop : ∃ stop, HoldsStop s.scheduler stop ∧ (stops taken).length + stop.toList.length = n

namespace Counts

lemma congr (h : Counts context n taken s state) (hscheduler : t.scheduler = s.scheduler)
    (hobserver : t.observer = s.observer) (hchunks : state'.chunks = state.chunks) :
    Counts context n taken t state' where
  observer := hobserver.trans h.observer
  chunks := hchunks.trans h.chunks
  stop := by rw [hscheduler]; exact h.stop

/-- An event that is taken off the queue prints a chunk in the context of the relay, or it is the
stop. -/
lemma take (h : Counts context n taken s state) (hflow : Flow latency context chunks taken queue s)
    (ht : s.Timely keys) (hnext : s.scheduler.removeNext = (some (id, ev), t.scheduler))
    (hobserver : t.observer = s.observer)
    (hchunks : state'.chunks = state.chunks + if ev.context = context then 1 else 0) :
    Counts context n (taken ++ [(id, ev)]) t state' := by
  obtain ⟨hev, hget⟩ := ht.consistent.get?_removeNext hnext
  have hlive := hflow.live id ev hev
  obtain ⟨stop, hstop, hcount⟩ := h.stop
  by_cases htask : ev.task = .stop
  · -- The counter takes the stop for a chunk if the relay has the context of the stop.
    obtain rfl := (hstop.get?_iff id ev).mp ⟨hev, htask⟩
    have hcontext : ev.context = .none := hstop.context _ rfl
    have hprinted : printed (taken ++ [(id, ev)]) = printed taken := by
      rw [printed_concat hlive, htask]
      exact List.append_nil _
    have hstops : stops (taken ++ [(id, ev)]) = stops taken ++ [ev] := by
      rw [stops_concat hlive, htask]
      rfl
    refine ⟨hobserver.trans h.observer, ?_, none, hstop.remove_stop hget, ?_⟩
    · rw [hchunks, h.chunks, hprinted, hstops, hcontext, List.length_append, List.length_singleton]
      by_cases hnone : context = .none
      · rw [hnone, if_pos rfl, if_pos rfl, if_pos rfl, Nat.add_assoc]
      · rw [if_neg hnone, if_neg (Ne.symm hnone), if_neg hnone]
    · rw [hstops, List.length_append]
      exact hcount
  · obtain ⟨chunk, hchunk⟩ := hflow.content_of_mem ((hflow.mem_iff ev).mpr ⟨id, hev, htask⟩)
    obtain ⟨hcontext, hprint⟩ := Prod.mk.inj hchunk
    have hprinted : printed (taken ++ [(id, ev)]) = printed taken ++ [ev] := by
      rw [printed_concat hlive, hprint]
      rfl
    have hstops : stops (taken ++ [(id, ev)]) = stops taken := by
      rw [stops_concat hlive, hprint]
      exact List.append_nil _
    refine ⟨hobserver.trans h.observer, ?_, stop, hstop.remove hev htask hget, ?_⟩
    · rw [hchunks, h.chunks, hprinted, hstops, if_pos hcontext, List.length_append,
        List.length_singleton]
      omega
    · rw [hstops]
      exact hcount

/-- A step of a run counts what it takes off the queue. -/
lemma step (h : Counts context n taken s m.user)
    (hwithin : Within latency context chunks taken last (frame :: frames) s)
    (htells : Tells u taken (frame :: frames) s m.user) (hs : s.Sound) (ht : s.Timely keys) :
    let a : Machine RelayCode State := ⟨s, m, frame :: frames, false⟩
    let b := Machine.step code a
    Counts context n (taken ++ a.taken?.toList) b.sim b.memory.user ∧
      b.memory.user.bytes = m.user.bytes := by
  intro a b
  obtain ⟨queue, hflow⟩ := hwithin.flow
  obtain ⟨e, howes, -⟩ := htells.output
  obtain ⟨(hshifts : Shifts s b.sim a.taken?), (hobserver : b.sim.observer = _)⟩ :=
    hwithin.shifts ht m
  obtain ⟨(hchunks : b.memory.user.chunks = _ + List.countP _ (a.taken?.toList.filter _)),
    hbytes⟩ := counted_step howes h.observer ht m
  refine ⟨?_, hbytes⟩
  generalize a.taken? = p at *
  cases hshifts with
  | keep hscheduler =>
    rw [Option.toList_none, List.append_nil]
    exact h.congr hscheduler hobserver hchunks
  | drain hscheduler =>
    rw [Option.toList_none, List.append_nil]
    obtain ⟨stop, hstop, hcount⟩ := h.stop
    exact ⟨hobserver.trans h.observer, hchunks.trans h.chunks, stop,
      hscheduler ▸ hstop.drain hflow hs ht, hcount⟩
  | @take id ev hnext =>
    refine h.take hflow ht hnext hobserver (hchunks.trans ?_)
    have hlive := hflow.live id ev (ht.consistent.get?_removeNext hnext).1
    simp [hlive]

end Counts

namespace Session

variable {x : Session}

/-- What the counter and the reader have come to. -/
structure Counted (context : ContextId) (n : Nat) (x : Session) (s : Simulator RelayCode) :
    Prop where
  counts : Counts context n x.dispatched s x.world.user
  bytes : x.world.user.bytes = (x.delivered.map List.length).sum

lemma Counted.stepLoop (h : Counted context n x s) (hkept : Kept latency context x s)
    (htold : Told u x s) (ht : x.stepLoop.world.sim? 0 = some t) :
    Counted context n x.stepLoop t := by
  rcases hkept.stepLoop_cases with ⟨hworld, hdispatched, hdelivered⟩ |
    ⟨last, frame, frames, hplace, hstack, hstep⟩
  · rw [hworld] at ht
    obtain rfl := Option.some.inj (hkept.sim.symm.trans ht)
    refine ⟨?_, ?_⟩
    · rw [hdispatched, hworld]
      exact h.counts
    · rw [hworld, hdelivered]
      exact h.bytes
  · rw [hstep] at ht ⊢
    obtain rfl := Option.some.inj ((hkept.stepRun hplace hstack).sim.symm.trans ht)
    have hwithin := hkept.within hplace
    have htells := htold.tells
    rw [hstack] at hwithin htells
    obtain ⟨hcounts, hbytes⟩ := h.counts.step hwithin htells hkept.sound hkept.timely
    exact ⟨hcounts, hbytes.trans h.bytes⟩

/-- A chunk that is handed in is not counted yet, but its bytes are. -/
lemma Counted.act (h : Counted context n x s) (hkept : Kept latency context x s)
    (htold : Told u x s) (y : Action) (ht : (x.act latency context y).world.sim? 0 = some t) :
    Counted context n (x.act latency context y) t := by
  cases y with
  | loop => exact h.stepLoop hkept htold ht
  | reader limit pollForbidden =>
    rw [Session.act] at ht ⊢
    rcases x.stepReader_cases latency context limit pollForbidden with hx | ⟨_, step, -, -, hx⟩
    · rw [hx] at ht ⊢
      obtain rfl := Option.some.inj (hkept.sim.symm.trans ht)
      exact h
    · rw [hx] at ht ⊢
      obtain ⟨b, hb⟩ := sim?_hand latency context step.reader step.descriptor step.emitted.toList
        hkept.sim hkept.size
      obtain rfl := Option.some.inj (hb.symm.trans ht)
      refine ⟨h.counts.congr rfl rfl (by rw [user_hand]), ?_⟩
      rw [user_hand, hand, List.map_append, List.sum_append, List.length_flatten]
      exact congrArg (· + _) h.bytes
  | change f | interrupt =>
    obtain rfl := Option.some.inj (hkept.sim.symm.trans ht)
    exact ⟨h.counts.congr rfl rfl rfl, h.bytes⟩

lemma Counted.play (h : Counted context n x s) (hkept : Kept latency context x s)
    (htold : Told u x s) (hlatency : latency.isNegative = false) (acts : List Action) :
    ∃ t, Kept latency context (x.play latency context acts) t ∧
      Counted context n (x.play latency context acts) t := by
  induction acts generalizing x s with
  | nil => exact ⟨s, hkept, h⟩
  | cons y acts ih =>
    obtain ⟨t, ht⟩ := hkept.act hlatency y
    exact ih (h.act hkept htold y ht.sim) ht (htold.act hkept y ht.sim)

end Session

/-! ### From the start to the end -/

/-- A simulator is built with a stop if its configuration has one. -/
lemma exists_holdsStop {c : Config} {r : Resolution}
    (hc : Simulator.ofConfig 0 c none = (.ok s, r)) :
    ∃ stop, HoldsStop s.scheduler stop ∧ stop.toList.length = c.stopAfterNanos.toList.length := by
  let front : Simulator RelayCode := .create 0 c.kind c.calendarBuckets.toNat c.sync
  have hempty : HoldsStop front.scheduler none := by
    refine ⟨fun id ev => ?_, fun p hp => by cases hp⟩
    rw [show front.scheduler.get? id = none from Scheduler.get?_empty ..]
    simp
  cases hstop : c.stopAfterNanos with
  | none =>
    rw [Simulator.ofConfig_of_none rfl hstop] at hc
    cases hc
    exact ⟨none, hempty, rfl⟩
  | some nanos =>
    rw [Simulator.ofConfig_of_some rfl hstop rfl] at hc
    split at hc
    · cases hc
    · cases hc
      exact ⟨_, hempty.insert (Simulator.told_create ..).sound.consistent rfl rfl, rfl⟩

/-- A relay that was just started has counted nothing. -/
lemma counted_opening {sim : Simulator RelayCode} (hphase : sim.phase = .notRunning)
    (hstop : HoldsStop sim.scheduler stop) (r : Resolution) (bufferSize : Nat) (input : Descriptor)
    (context : ContextId) (hs : (opening sim r bufferSize input context).sim? 0 = some s) :
    Session.Counted context stop.toList.length
      { world := opening sim r bufferSize input context } s := by
  obtain ⟨teardown, hopening⟩ := opening_eq hphase r bufferSize input context
  have halive : sim.phase ≠ .destroyed := by rw [hphase]; exact Phase.noConfusion
  rw [hopening, World.sim?_put (by simp [World.add]) (by simp [World.add])] at hs
  obtain rfl := Option.some.inj hs
  rw [hopening]
  refine ⟨⟨rfl, ?_, stop, ?_, Nat.zero_add _⟩, rfl⟩
  · show 0 = _
    simp [printed, stops]
  · show HoldsStop (sim.scheduleDestroy _).2.scheduler stop
    rw [Simulator.scheduleDestroy, if_neg halive]
    exact hstop

/-- What the counter and the reader have come to when the loop is left. -/
lemma Session.Counted.of_left {x : Session} (h : Counted context n x s)
    (hkept : Kept latency context x s) (hleft : x.place = .left) :
    (printed x.dispatched).length = x.delivered.length ∧
      x.world.user.chunks = x.delivered.length + (if context = .none then n else 0) ∧
      x.world.user.bytes = (x.delivered.map List.length).sum := by
  obtain ⟨haccount, -, hqueue⟩ := hkept.printed_of_left hleft
  have hprinted : (printed x.dispatched).length = x.delivered.length := by
    simpa using congrArg List.length haccount
  obtain ⟨⟨-, hchunks, stop, hstop, hcount⟩, hbytes⟩ := h
  have hnone : stop = none := by
    refine Option.eq_none_iff_forall_ne_some.mpr fun ⟨id, ev⟩ hsome => ?_
    obtain ⟨hev, -⟩ := (hstop.get?_iff id ev).mpr hsome
    obtain ⟨e, he, -⟩ := Simulator.mem_entries_of_get? hev
    rw [hqueue] at he
    cases he
  rw [hnone] at hcount
  rw [hprinted, show (stops x.dispatched).length = n from hcount] at hchunks
  exact ⟨hprinted, hchunks, hbytes⟩

/-- Once its loop is left, a relay has counted each chunk that was delivered, and the stop if it is
in the context of the relay. -/
lemma Session.counts_of_left {c : Config} {sim : Simulator RelayCode} {r : Resolution}
    (hconfig : Simulator.ofConfig 0 c none = (.ok sim, r)) {latency : Time}
    (hlatency : latency.isNegative = false) (context : ContextId) (input : Descriptor)
    (acts : List Session.Action) :
    let start : Session := { world := opening sim r c.bufferSize.toNat input context }
    let x := start.play latency context acts
    x.place = .left →
      (printed x.dispatched).length = x.delivered.length ∧
        x.world.user.chunks = x.delivered.length +
          (if context = .none ∧ c.stopAfterNanos.isSome = true then 1 else 0) ∧
        x.world.user.bytes = (x.delivered.map List.length).sum := by
  intro start x hleft
  have hbuilt : Built latency context sim := built_ofConfig latency context hconfig
  obtain ⟨stop, hstop, hlength⟩ := exists_holdsStop hconfig
  obtain ⟨s₀, hstart⟩ := hbuilt.start r c.bufferSize.toNat input
  have hcounted := counted_opening hbuilt.phase hstop r c.bufferSize.toNat input context hstart.sim
  obtain ⟨s, hkept, hcounted⟩ := hcounted.play hstart
    (told_opening hbuilt.phase r c.bufferSize.toNat input context s₀) hlatency acts
  obtain ⟨hprinted, hchunks, hbytes⟩ := hcounted.of_left hkept hleft
  have hextra : (if context = .none then c.stopAfterNanos.toList.length else 0) =
      if context = .none ∧ c.stopAfterNanos.isSome = true then 1 else 0 := by
    cases c.stopAfterNanos <;> simp
  rw [hlength, hextra] at hchunks
  exact ⟨hprinted, hchunks, hbytes⟩

/-- When the loop of a relay is left, whatever came between its steps, the summary gives the number
of bytes that were delivered, and the number of chunks that were delivered and printed, with one
more if the simulator was built with a stop and the relay was given the context of code outside any
event: only then it is not the number of chunks. -/
theorem summary_counts {c : Config} {sim : Simulator RelayCode} {r : Resolution}
    (hconfig : Simulator.ofConfig 0 c none = (.ok sim, r)) (latencyMicros : Int)
    (hlatency : (Time.ofUnit r.unit latencyMicros .micros).isNegative = false)
    (context : ContextId) (input : Descriptor) (acts : List Session.Action) :
    let latency := Time.ofUnit r.unit latencyMicros .micros
    let start : Session := { world := opening sim r c.bufferSize.toNat input context }
    let x := start.play latency context acts
    let extra := if context = .none ∧ c.stopAfterNanos.isSome = true then 1 else 0
    let bytes := (x.delivered.map List.length).sum
    x.place = .left →
      (printed x.dispatched).length = x.delivered.length ∧
      x.world.user.chunks = x.delivered.length + extra ∧
      x.world.user.bytes = bytes ∧
      (∀ now, summary now x.world.user =
        "\nRelayed " ++ toString (x.delivered.length + extra) ++ " chunks (" ++ toString bytes ++
          " bytes), virtual time " ++ (now.print x.world.user.resolution).1 ++ " (" ++
          showExit x.world.user.reader.exit ++ ")\n") ∧
      (x.world.user.chunks = x.delivered.length ↔
        context ≠ .none ∨ c.stopAfterNanos.isSome = false) := by
  intro latency start x extra bytes hleft
  obtain ⟨hprinted, (hchunks : x.world.user.chunks = x.delivered.length + extra), hbytes⟩ :=
    Session.counts_of_left hconfig hlatency context input acts hleft
  refine ⟨hprinted, hchunks, hbytes, fun now => ?_, ?_⟩
  · delta summary
    rw [hchunks, hbytes]
  · rw [hchunks, Nat.add_eq_left, ← Bool.not_eq_true, ← not_and_or]
    exact ⟨fun hzero hboth => Nat.one_ne_zero ((if_pos hboth).symm.trans hzero),
      fun hnot => if_neg hnot⟩

/-- A simulator that stops at once. -/
def stopsAtOnce : Config := { kind := .list, stopAfterNanos := some 0 }

def stoppedAtOnce : Simulator RelayCode :=
  ((Simulator.create 0 .list 2 .sequential).stopAfter .zero).2

/-- A chunk comes in before the first run, which the stop cuts short. -/
def haltedActions : List Session.Action :=
  [.change (·.write [104, 105])] ++ List.replicate 7 (.reader 64 false) ++
    [.change (·.close)] ++ List.replicate 8 (.reader 64 false) ++ List.replicate 40 .loop

def halted : Session :=
  Session.play (.ofUnit .nanos 0 .micros) .none haltedActions
    { world := opening stoppedAtOnce (some .nanos) stopsAtOnce.bufferSize.toNat (.pipe {}) .none }

theorem summary_counts_halted :
    Simulator.ofConfig 0 stopsAtOnce none = (.ok stoppedAtOnce, some .nanos) ∧
      (Time.ofUnit .nanos 0 .micros).isNegative = false ∧ halted.place = .left ∧
      halted.delivered = [[104, 105]] ∧ halted.world.user.chunks = 2 ∧
      halted.world.user.bytes = 2 := by
  have hconfig : Simulator.ofConfig 0 stopsAtOnce none = (.ok stoppedAtOnce, some .nanos) := rfl
  have hlatency : (Time.ofUnit .nanos 0 .micros).isNegative = false := by decide
  have hleft : halted.place = .left := by decide +kernel
  have hdelivered : halted.delivered = [[104, 105]] := by decide +kernel
  have hspec := summary_counts hconfig 0 hlatency .none (.pipe {}) haltedActions
  extract_lets latency start x extra bytes at hspec
  obtain ⟨-, (hchunks : halted.world.user.chunks = halted.delivered.length + 1),
    (hbytes : halted.world.user.bytes = (halted.delivered.map List.length).sum), -⟩ := hspec hleft
  rw [hdelivered] at hchunks hbytes
  exact ⟨hconfig, hlatency, hleft, hdelivered, hchunks, hbytes⟩

/-- The command gives the number of bytes of its input. It gives the number of the chunks that the
reader makes of the input, with one more if it counts a stop. -/
theorem relay_counts {c : Config} {sim : Simulator RelayCode} {r : Resolution}
    (hconfig : Simulator.ofConfig 0 c none = (.ok sim, r)) (latencyMicros : Int)
    (hlatency : (Time.ofUnit r.unit latencyMicros .micros).isNegative = false)
    (context : ContextId) (rounds : List (List (List UInt8))) (final : List (List UInt8)) :
    ∃ (evs : List (Event (Task RelayCode))) (chunks : List (List UInt8)) (now : Time) (s : State),
      relay c latencyMicros context rounds final =
          .ok (transcript r.unit evs ++ summary now s) ∧
        textsOf evs = chunks.map (fun chunk => String.ofList (decodeLenient chunk)) ∧
        chunks.flatten = (rounds.flatten ++ final).flatten ∧
        s.chunks = chunks.length +
          (if context = .none ∧ c.stopAfterNanos.isSome = true then 1 else 0) ∧
        s.bytes = (rounds.flatten ++ final).flatten.length := by
  obtain ⟨acts, hbrings, hleft, hexit, hrelay⟩ :=
    relay_is_session hconfig latencyMicros hlatency context rounds final
  obtain ⟨houtput, htexts, hflatten, -⟩ := Session.prints_input hconfig hlatency context hbrings
    hleft hexit
  obtain ⟨-, hchunks, hbytes⟩ :=
    Session.counts_of_left hconfig hlatency context (.pipe {}) acts hleft
  rw [houtput] at hrelay
  refine ⟨_, _, _, _, hrelay, htexts, hflatten, hchunks, hbytes.trans ?_⟩
  rw [← hflatten, List.length_flatten]

/-- One chunk is delivered and printed, and two are counted: the other one is the stop. -/
theorem relay_counts_stop :
    halted.place = .left ∧ halted.delivered.length = 1 ∧ (printed halted.dispatched).length = 1 ∧
      summary .zero halted.world.user =
        "\nRelayed 2 chunks (2 bytes), virtual time +0ns (Some(Eof))\n" ∧
      (relay stopsAtOnce 0 .none [[]] [[104, 105]]).toOption =
        some ((stamp .nanos .zero .none ++ "hi") ++
          "\nRelayed 2 chunks (2 bytes), virtual time +0ns (Some(Eof))\n") := by
  decide +kernel

end Relay

end EventKernel
