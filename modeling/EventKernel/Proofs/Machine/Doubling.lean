import Mathlib.Algebra.BigOperators.Group.Finset.Basic
import EventKernel.Proofs.Machine.Overlap

/-!
# The doubling of intervals

After a reset a trickle timer runs through intervals that double in length up to a limit. As long as
it is left to itself, each of them begins exactly where the one before it ends, with one event for
its end and one for its firing point.
-/

namespace EventKernel

open Simulator (Passage Sound Timely)
open Trickle (Begun NoneIssued OwnTask)

variable {K U : Type} {s t : Simulator K} {turns : List (Turn K)} {keys : List EventKey} {n : Nat}

/-! ### Lengths -/

namespace Trickle

/-- The length of the longest interval. -/
def limit (minInterval : Time) (doublings : Nat) : Int :=
  min (minInterval.ticks * 2 ^ min doublings 63) 9223372036854775807

/-- The length of the `k`-th interval after a reset. -/
def length (minInterval : Time) (doublings k : Nat) : Int :=
  min (minInterval.ticks * 2 ^ k) (limit minInterval doublings)

/-- Where the `k`-th interval after a reset begins. -/
def opening (start minInterval : Time) (doublings k : Nat) : Int :=
  start.ticks + ∑ j ∈ Finset.range k, length minInterval doublings j

variable {m : Time} {doublings k : Nat}

lemma limit_pos (hm : 0 < m.ticks) (doublings : Nat) : 0 < limit m doublings :=
  lt_min (Int.mul_pos hm (Int.pow_pos (by decide))) (by decide)

lemma length_pos (hm : 0 < m.ticks) (doublings k : Nat) : 0 < length m doublings k :=
  lt_min (Int.mul_pos hm (Int.pow_pos (by decide))) (limit_pos hm doublings)

lemma length_zero (hm : 0 < m.ticks) (doublings : Nat) : length m doublings 0 = m.ticks := by
  have hone : (1 : Int) ≤ 2 ^ min doublings 63 := Int.pow_pos (by decide)
  have hle := Int.mul_le_mul_of_nonneg_left hone (Int.le_of_lt hm)
  have hlt := m.ticks_lt
  rw [length, limit]
  omega

lemma length_succ (hm : 0 < m.ticks) (doublings k : Nat) :
    length m doublings (k + 1) = min (length m doublings k * 2) (limit m doublings) := by
  have hlimit := limit_pos hm doublings
  rw [length, length, Int.pow_succ, ← Int.mul_assoc]
  omega

lemma opening_zero (start m : Time) (doublings : Nat) :
    opening start m doublings 0 = start.ticks := by
  rw [opening, Finset.sum_range_zero, Int.add_zero]

lemma opening_succ (start m : Time) (doublings k : Nat) :
    opening start m doublings (k + 1) =
      opening start m doublings k + length m doublings k := by
  rw [opening, opening, Finset.sum_range_succ, Int.add_assoc]

lemma opening_ge (hm : 0 < m.ticks) (start : Time) (doublings k : Nat) :
    start.ticks ≤ opening start m doublings k := by
  induction k with
  | zero => rw [opening_zero]
  | succ k ih =>
    rw [opening_succ]
    have := length_pos hm doublings k
    omega

/-- A new timer knows the limit. -/
lemma ticks_maxInterval_create (hm : 0 < m.ticks) (doublings : Nat) (redundancy : UInt16)
    (seed : UInt64) :
    (create m doublings redundancy seed : Trickle K).maxInterval.ticks = limit m doublings := by
  have hlt := m.ticks_lt
  show (Time.clamp (m.ticks * min ((2 ^ min doublings 63 : Nat) : Int) 9223372036854775807)).ticks =
    limit m doublings
  rw [limit, Time.ticks_clamp, Nat.cast_pow, Nat.cast_ofNat]
  generalize hq : (2 : Int) ^ min doublings 63 = q
  have hone : 1 ≤ q := hq ▸ Int.pow_pos (by decide)
  have hle : q ≤ m.ticks * q := le_mul_of_one_le_left (by omega) hm
  rcases le_total q 9223372036854775807 with hsmall | hlarge
  · rw [min_eq_left hsmall]
    omega
  · rw [min_eq_right hlarge]
    omega

/-- Doubling goes on up to the limit. -/
lemma ticks_doubled (hm : 0 < m.ticks) {interval maxInterval : Time}
    (hinterval : interval.ticks = length m doublings k)
    (hmax : maxInterval.ticks = limit m doublings) :
    ((interval.scale 2).earlier maxInterval).ticks = length m doublings (k + 1) := by
  have hpos := length_pos hm doublings k
  have hle : limit m doublings ≤ 9223372036854775807 := min_le_right _ _
  rw [length_succ hm, ← hinterval, ← hmax] at *
  have hscale : (interval.scale 2).ticks = min (interval.ticks * 2) 9223372036854775807 := by
    rw [Time.scale, Time.ticks_clamp]
    omega
  rw [Time.earlier]
  split
  · next hless =>
    rw [Time.le_iff, hscale] at hless
    rw [hscale]
    omega
  · next hmore =>
    rw [Time.le_iff, hscale] at hmore
    omega

/-- Where an interval ends, the next one opens. -/
lemma clamp_opening_add (hm : 0 < m.ticks) {start now interval : Time} (hstart : 0 ≤ start.ticks)
    (hnow : now = .clamp (opening start m doublings k))
    (hinterval : interval.ticks = length m doublings k) :
    now + interval = .clamp (opening start m doublings (k + 1)) := by
  have hge := opening_ge hm start doublings k
  have hpos := length_pos hm doublings k
  rw [opening_succ, ← hinterval] at *
  refine Time.ext ?_
  rw [hnow, Time.ticks_add, Time.ticks_clamp, Time.ticks_clamp, Time.ticks_clamp]
  omega

end Trickle

/-! ### Where events are scheduled -/

namespace Machine

/-- The times at which a move schedules events of one kind. -/
def scheduledBy (e : TimerEvent) (a : Machine K U) (mv : Move K U) : List Time :=
  (issuedFor e (a.turns mv)).map fun _ => a.sim.now

/-- The times at which events of one kind are scheduled in the course of a run. -/
def scheduled (e : TimerEvent) (code : Code K U) : List (Move K U) → Machine K U → List Time
  | [], _ => []
  | mv :: moves, a => a.scheduledBy e mv ++ scheduled e code moves (move code a mv)

variable {a b : Machine K U} {mv : Move K U} {d : Trickle K}

/-! ### Fresh timers -/

/-- As long as a timer names no interval, none of its events is held. -/
structure Untouched (n : Nat) (a : Machine K U) : Prop where
  known : ∀ id ev, a.sim.find? id = some ev → OwnTask n ev.task → n < a.memory.trickles.size
  fresh : ∀ d, a.memory.trickle? n = some d → d.intervalEvent = .detached →
    ∀ id ev, a.sim.find? id = some ev → ¬OwnTask n ev.task

lemma untouched_idle (n identity : Nat) (kind : QueueKind) (buckets : Nat) (sync : SyncMode)
    (inboxes : Array (Inbox (Task K))) (u : U) :
    (idle identity kind buckets sync { inboxes, user := u }).Untouched n where
  known := (single_idle n identity kind buckets sync inboxes u).known
  fresh d hd := by cases Memory.lt_size_of_trickle? hd

/-- Nothing of the timer is issued, and the handle it keeps is the old one. -/
lemma Untouched.of_noneIssued (h : a.Untouched n) (hp : Passage a.sim turns b.sim)
    (hissued : NoneIssued n turns) (hsize : a.memory.trickles.size ≤ b.memory.trickles.size)
    (hrecord : ∀ d', b.memory.trickle? n = some d' → ∃ d, a.memory.trickle? n = some d ∧
      d.intervalEvent = d'.intervalEvent) : b.Untouched n where
  known id ev hev htask := by
    obtain ⟨old, hold, -, htask', -⟩ := hissued.held hp hev htask
    exact Nat.lt_of_lt_of_le (h.known id old hold (htask' ▸ htask)) hsize
  fresh d' hd' hdetached id ev hev htask := by
    obtain ⟨d, hd, hsame⟩ := hrecord d' hd'
    obtain ⟨old, hold, -, htask', -⟩ := hissued.held hp hev htask
    exact h.fresh d hd (hsame.trans hdetached) id old hold (htask' ▸ htask)

/-- What serves a timer that names no interval afterwards leaves none of its events. -/
lemma Untouched.serves (h : a.Untouched n) (ha : a.Attended) (hp : Passage a.sim turns t)
    {f : Frame K U} (hacts : Acts n a.sim a.memory f turns t (some d))
    (hdetached : d.intervalEvent = .detached) {id : EventId} {ev : Event (Task K)}
    (hev : t.find? id = some ev) : ¬OwnTask n ev.task := by
  intro htask
  -- the event was there before, and the timer had no interval then either
  have hold : NoneIssued n turns → ∀ d', a.memory.trickle? n = some d' →
      d'.intervalEvent = d.intervalEvent → False := by
    intro hissued d' hd' hsame
    obtain ⟨old, hold, -, htask', -⟩ := hissued.held hp hev htask
    exact h.fresh d' hd' (hsame.trans hdetached) id old hold (htask' ▸ htask)
  cases hacts with
  | count hcall hd => exact hold (fun x hx => by cases hx) _ hd rfl
  | stop hcall hd => exact hold (Trickle.noneIssued_stopTurns n _ _) _ hd rfl
  | @begin d' first u before hstarts hd =>
    obtain ⟨hcourse, hinterval, -, -, -, hissued⟩ := hstarts.spec
    have hbegun := Trickle.begun_beginInterval n first (ha.sound.passage hcourse.course).sound
    have hsound := hp.sound
    generalize first.beginTurns n u = more at hbegun hold
    generalize first.beginInterval n u = r at hbegun hold hdetached hsound
    cases hbegun with
    | refused => exact hold (by rwa [List.append_nil]) _ hd hinterval.symm
    | @begun interval fire _ _ _ hseq hseq' _ _ hfind =>
      have hne : interval ≠ fire := by
        rintro rfl
        omega
      have hheld := (hfind interval).trans ((if_neg hne).trans (if_pos rfl))
      obtain rfl : interval = .detached := hdetached
      rw [hsound.find?_of_isDetached rfl] at hheld
      cases hheld
  | create hn => exact absurd (h.known id ev hev htask) (by omega)

lemma Untouched.move (h : a.Untouched n) (ha : a.Attended)
    (hp : Passage a.sim (a.turns mv) b.sim) (hfares : Fares n a mv b) : b.Untouched n := by
  cases hfares with
  | still hrecord hsize hnow hissued =>
    refine h.of_noneIssued hp hissued hsize fun d' hd' => ?_
    obtain ⟨d, k, hd, rfl⟩ := Memory.of_core_eq hrecord hd'
    exact ⟨d, hd, rfl⟩
  | serves hstep hstack hnow hhandled hserves =>
    subst hstep
    refine ⟨fun _ _ _ _ => hserves.2, fun d hd hdetached id ev hev => ?_⟩
    exact h.serves ha hp (hd ▸ hserves.1) hdetached hev
  | take _ _ _ _ _ _ htrickles _ hissued =>
    refine h.of_noneIssued hp hissued (by rw [htrickles]) fun d' hd' => ?_
    rw [Memory.trickle?_congr htrickles] at hd'
    exact ⟨d', hd', rfl⟩

lemma Untouched.play (code : Code K U) (moves : List (Move K U)) (h : a.Untouched n)
    (ha : a.Attended) (htimely : a.sim.Timely keys) (hb : a.broken = false)
    (halong : Along code KeepsTimers moves a) : (Machine.play code moves a).Untouched n := by
  induction moves generalizing a keys with
  | nil => exact h
  | cons mv moves ih =>
    obtain ⟨hkeeps, halong⟩ := halong
    obtain ⟨hb', htimely', -⟩ := timely_move code mv htimely hb
    have hp := passage_move code mv htimely hb ha.sound
    exact ih (h.move ha hp (fares_move code mv ha htimely hkeeps n))
      (ha.move code mv htimely hb hkeeps) htimely' hb' halong

/-! ### The intervals after a reset -/

/-- A timer runs through the `k`-th interval after a reset: the end of this interval is the only one
that is held, unless it is handled next. -/
structure RunsThrough (n : Nat) (start m : Time) (doublings k : Nat) (a : Machine K U)
    (d : Trickle K) : Prop where
  record : a.memory.trickle? n = some d
  maximum : d.maxInterval.ticks = Trickle.limit m doublings
  interval : d.interval.ticks = Trickle.length m doublings k
  counter : d.counter = 0
  alone : ∀ id ev, a.sim.find? id = some ev → ev.task = .trickleInterval n → id = d.intervalEvent
  pending : a.handled? ≠ some (.interval n) → ∃ ev, a.sim.find? d.intervalEvent = some ev ∧
    ev.task = .trickleInterval n ∧ ev.cancelled = false ∧
    ev.key.time = .clamp (Trickle.opening start m doublings (k + 1))
  ended : a.handled? = some (.interval n) → a.sim.find? d.intervalEvent = none ∧
    a.sim.now = .clamp (Trickle.opening start m doublings (k + 1))

variable {start m : Time} {doublings k : Nat}

/-- Where no end of an interval is held, an interval begins with its two events. -/
lemma RunsThrough.of_begun (hm : 0 < m.ticks) (hstart : 0 ≤ start.ticks)
    {r : Except SimError PUnit × Trickle K × Simulator K} (hbegun : Begun n d s turns r)
    (halive : s.phase ≠ .destroyed)
    (hnone : ∀ id ev, s.find? id = some ev → ev.task ≠ .trickleInterval n)
    (hnow : s.now = .clamp (Trickle.opening start m doublings k))
    (hinterval : d.interval.ticks = Trickle.length m doublings k)
    (hmax : d.maxInterval.ticks = Trickle.limit m doublings)
    (hsim : b.sim = r.2.2) (hrecord : b.memory.trickle? n = some r.2.1)
    (hhandled : b.handled? = none) :
    b.RunsThrough n start m doublings k r.2.1 ∧
      ∀ e, e = .interval n ∨ e = .fire n → (issuedFor e turns).length = 1 := by
  have hpos := Trickle.length_pos hm doublings k
  cases hbegun with
  | refused e hwhy =>
    rcases hwhy with hdestroyed | hnegative
    · exact absurd hdestroyed halive
    · omega
  | @begun interval fire t _ _ hseq hseq' _ hnow' hfind =>
    have hne : interval ≠ fire := by
      rintro rfl
      omega
    refine ⟨⟨hrecord, hmax, hinterval, rfl, ?_, ?_, ?_⟩, ?_⟩
    · intro id ev hev htask
      rw [hsim, hfind] at hev
      split at hev
      · rw [← Option.some.inj hev] at htask
        cases htask
      · split at hev
        · next hid => exact hid
        · exact absurd htask (hnone id ev hev)
    · intro _
      refine ⟨d.intervalEnd n s, ?_, rfl, rfl, ?_⟩
      · rw [hsim]
        exact (hfind interval).trans ((if_neg hne).trans (if_pos rfl))
      · exact Trickle.clamp_opening_add hm hstart hnow hinterval
    · intro hended
      rw [hhandled] at hended
      cases hended
    · rintro e (rfl | rfl) <;> simp [issuedFor, Trickle.intervalEnd, Trickle.firingPoint,
        Task.timerEvent?]

lemma issuedFor_eq_nil_of_noneIssued (hissued : NoneIssued n turns) {e : TimerEvent}
    (he : e = .interval n ∨ e = .fire n) : issuedFor e turns = [] := by
  refine List.eq_nil_iff_forall_not_mem.mpr fun id hid => ?_
  obtain ⟨x, hx, hfate, htask, -⟩ := mem_issuedFor.mp hid
  refine hissued x hx hfate ?_
  rcases he with rfl | rfl
  · exact Or.inl htask
  · exact Or.inr htask

/-- A move that is nothing to the end of an interval leaves the timer in the interval. -/
lemma RunsThrough.still (h : a.RunsThrough n start m doublings k d) (ha : a.Attended)
    (hp : Passage a.sim (a.turns mv) b.sim) (hissued : NoneIssued n (a.turns mv))
    (hcore : (b.memory.trickle? n).map Trickle.core = (a.memory.trickle? n).map Trickle.core)
    (hevent : (∃ ev, a.sim.find? d.intervalEvent = some ev) →
      ∀ x ∈ a.turns mv, x.id = d.intervalEvent → x.fate = .issued)
    (hnow : b.sim.now = a.sim.now) (hhandled : b.handled? = a.handled? ∨
      b.handled? = none ∧ a.handled? ≠ some (.interval n)) :
    ∃ d', b.RunsThrough n start m doublings k d' := by
  have hkept := ha.guards.trickle n d h.record
  have hsame : ∀ ev, a.sim.find? d.intervalEvent = some ev →
      b.sim.find? d.intervalEvent = some ev := by
    intro ev hev
    rw [hp.kept, hev]
    refine List.eq_nil_iff_forall_not_mem.mpr fun x hx => ?_
    obtain ⟨hx, hid⟩ := mem_turnsOf.mp hx
    have hnew := hp.fresh x hx (hevent ⟨ev, hev⟩ x hx hid)
    exact absurd hkept.interval.1 (Nat.not_lt.mpr (hid ▸ hnew))
  obtain ⟨d', hd', hcore'⟩ : ∃ d', b.memory.trickle? n = some d' ∧ d'.core = d.core := by
    rw [h.record, Option.map_some] at hcore
    exact Option.map_eq_some_iff.mp hcore
  obtain ⟨f, rfl⟩ := Trickle.core_eq_iff.mp hcore'
  refine ⟨_, hd', h.maximum, h.interval, h.counter, ?_, ?_, ?_⟩
  · intro id ev hev htask
    obtain ⟨old, hold, -, htask', -⟩ := hissued.held hp hev (Or.inl htask)
    exact h.alone id old hold (htask'.trans htask)
  · intro hnot
    obtain ⟨ev, hev, hrest⟩ := h.pending (by
      rcases hhandled with hhandled | ⟨-, hnot'⟩
      · rwa [← hhandled]
      · exact hnot')
    exact ⟨ev, hsame ev hev, hrest⟩
  · intro hended
    rcases hhandled with hhandled | ⟨hnone, -⟩
    · obtain ⟨hgone, hdue⟩ := h.ended (hhandled.symm.trans hended)
      refine ⟨?_, hnow.trans hdue⟩
      refine Option.eq_none_iff_forall_ne_some.mpr fun ev hev => ?_
      obtain ⟨old, hold, -⟩ := hissued.held hp hev
        (Or.inl ((hkept.interval.passage hp).2 ev hev))
      rw [hgone] at hold
      cases hold
    · rw [hnone] at hended
      cases hended

/-- When the end of the interval is taken off the queue, it is handled next. -/
lemma RunsThrough.take (h : a.RunsThrough n start m doublings k d) (ha : a.Attended)
    {rest : List (Frame K U)} (hstack : a.stack = .next :: rest) {id : EventId}
    {ev : Event (Task K)} {q : Scheduler (Task K)}
    (hnext : a.sim.scheduler.removeNext = (some (id, ev), q))
    (hfind : ∀ j, b.sim.find? j =
      Simulator.find? { a.sim with scheduler := q, now := ev.key.time } j)
    (hnow : b.sim.now = ev.key.time) (htrickles : b.memory.trickles = a.memory.trickles)
    (hhandled : b.handled? = if ev.cancelled then none else ev.task.timerEvent?) :
    b.RunsThrough n start m doublings k d := by
  obtain ⟨hev, htaken⟩ := ha.sound.find?_take hnext ev.key.time
  obtain ⟨last, hlast, htask, hlive, hdue⟩ := h.pending (by
    simp [handled?, hstack, Frame.handled?])
  -- the end of the interval is the only one that can be taken
  have hended : b.handled? = some (.interval n) ↔ id = d.intervalEvent := by
    rw [hhandled]
    constructor
    · intro hinterval
      split at hinterval
      · cases hinterval
      · exact h.alone id ev hev (Task.timerEvent?_eq_some_iff.mp hinterval)
    · rintro rfl
      obtain rfl := Option.some.inj (hlast.symm.trans hev)
      rw [hlive, htask]
      rfl
  refine ⟨?_, h.maximum, h.interval, h.counter, ?_, ?_, ?_⟩
  · rw [Memory.trickle?_congr htrickles]
    exact h.record
  · intro j other hj htask
    rw [hfind, htaken] at hj
    split at hj
    · cases hj
    · exact h.alone j other hj htask
  · intro hnot
    refine ⟨last, ?_, htask, hlive, hdue⟩
    rw [hfind, htaken, if_neg fun hid => hnot (hended.mpr hid.symm), hlast]
  · intro hinterval
    obtain rfl := hended.mp hinterval
    obtain rfl := Option.some.inj (hlast.symm.trans hev)
    refine ⟨?_, hnow.trans hdue⟩
    rw [hfind, htaken, if_pos rfl]

/-- A frame that leaves a timer to itself asks nothing of it that matters. -/
lemma Frame.isPassive_of_leaves {f : Frame K U} {mem : Memory K U} {r : TrickleRequest K}
    (hcall : f.call? n = some r) (hleaves : f.leaves n mem = true) : r.isPassive = true := by
  unfold Frame.call? at hcall
  split at hcall
  · next v r' next =>
    split at hcall
    · next hv =>
      obtain rfl := Option.some.inj hcall
      simpa [Frame.leaves, Request.leaves, hv] using hleaves
    · cases hcall
  · cases hcall

/-- What serves a timer that is left to itself begins the next interval where the last one ends. -/
lemma RunsThrough.serves (hm : 0 < m.ticks) (hstart : 0 ≤ start.ticks)
    (h : a.RunsThrough n start m doublings k d) (ha : a.Attended) {f : Frame K U}
    {rest : List (Frame K U)} (hstack : a.stack = f :: rest) (hleaves : f.leaves n a.memory = true)
    (hhandled : b.handled? = none)
    (hserves : Serves n a.sim a.memory f turns b.sim b.memory) :
    a.sim.now = .clamp (Trickle.opening start m doublings (k + 1)) ∧
      (∃ d', b.RunsThrough n start m doublings (k + 1) d') ∧
      ∀ e, e = .interval n ∨ e = .fire n → (issuedFor e turns).length = 1 := by
  obtain ⟨hacts, -⟩ := hserves
  have hnot : ∀ {r : TrickleRequest K}, f.call? n = some r → r.isPassive = false → False := by
    intro r hcall hactive
    rw [Frame.isPassive_of_leaves hcall hleaves] at hactive
    cases hactive
  generalize hr : b.memory.trickle? n = r at hacts
  generalize ht : b.sim = t at hacts
  cases hacts with
  | count hcall | stop hcall => exact (hnot hcall rfl).elim
  | create hn => exact absurd (Memory.lt_size_of_trickle? h.record) (by omega)
  | drop hf =>
    rw [hleaves] at hf
    cases hf
  | @begin d' first u before hstarts hd =>
    obtain rfl := Option.some.inj (h.record.symm.trans hd)
    cases hstarts with
    | enable | reset | inconsistent => exact (hnot (if_pos rfl) rfl).elim
    | interval =>
      have hinterval : a.handled? = some (.interval n) := by
        rw [handled?, hstack]
        rfl
      obtain ⟨hgone, hnow⟩ := h.ended hinterval
      have halive : a.sim.phase ≠ .destroyed := by
        intro hdestroyed
        have houter := ha.orderly.nested.isOuter (by simp [hdestroyed])
        exact houter _ (hstack ▸ List.mem_cons_self)
      have hnone : ∀ id ev, a.sim.find? id = some ev → ev.task ≠ .trickleInterval n := by
        intro id ev hev htask
        obtain rfl := h.alone id ev hev htask
        rw [hgone] at hev
        cases hev
      obtain ⟨hruns, hone⟩ := RunsThrough.of_begun hm hstart
        (Trickle.begun_beginInterval n
          { d with interval := (d.interval.scale 2).earlier d.maxInterval } ha.sound) halive hnone hnow
        (Trickle.ticks_doubled hm h.interval h.maximum) h.maximum ht hr hhandled
      exact ⟨hnow, ⟨_, hruns⟩, hone⟩

/-- A move begins the next interval where the last one ends, or leaves the timer in its interval. -/
lemma RunsThrough.move (hm : 0 < m.ticks) (hstart : 0 ≤ start.ticks)
    (h : a.RunsThrough n start m doublings k d) (ha : a.Attended)
    (hp : Passage a.sim (a.turns mv) b.sim) (hfares : Fares n a mv b)
    (hleaves : a.leaves n mv = true) :
    ∃ i d', b.RunsThrough n start m doublings (k + i) d' ∧
      ∀ e, e = .interval n ∨ e = .fire n → a.scheduledBy e mv = (List.range i).map fun j =>
        .clamp (Trickle.opening start m doublings (k + 1 + j)) := by
  have hquiet : NoneIssued n (a.turns mv) → ∀ e, e = .interval n ∨ e = .fire n →
      a.scheduledBy e mv = [] := by
    intro hissued e he
    rw [scheduledBy, issuedFor_eq_nil_of_noneIssued hissued he, List.map_nil]
  cases hfares with
  | still hrecord hsize hnow hissued hcall hhandled hevent =>
    have hnone : a.memory.trickle? n ≠ none := by
      rw [h.record]
      exact Option.some_ne_none d
    obtain ⟨d', hd'⟩ := h.still ha hp hissued hrecord (hevent hleaves d h.record) hnow
      (hhandled.imp_right (And.imp_right fun hnot => hnot.resolve_right hnone))
    exact ⟨0, d', hd', hquiet hissued⟩
  | take hstep hstack hsome hnext hfind hnow htrickles hhandled hissued =>
    exact ⟨0, d, h.take ha hstack hnext hfind hnow htrickles hhandled, hquiet hissued⟩
  | @serves f rest hstep hstack hnow hhandled hserves =>
    subst hstep
    have hleaves' : f.leaves n a.memory = true := by
      rw [leaves, hstack] at hleaves
      exact hleaves
    obtain ⟨hdue, ⟨d', hd'⟩, hone⟩ :=
      h.serves hm hstart ha hstack hleaves' hhandled hserves
    refine ⟨1, d', hd', fun e he => ?_⟩
    obtain ⟨id, hid⟩ := List.length_eq_one_iff.mp (hone e he)
    rw [scheduledBy, hid, hdue]
    rfl

/-- One interval follows the other as long as the timer is left to itself. -/
lemma RunsThrough.play (code : Code K U) (moves : List (Move K U)) (hm : 0 < m.ticks)
    (hstart : 0 ≤ start.ticks) (h : a.RunsThrough n start m doublings k d) (ha : a.Attended)
    (htimely : a.sim.Timely keys) (hb : a.broken = false)
    (halong : Along code (fun b mv => b.KeepsTimers mv ∧ b.leaves n mv = true) moves a) :
    ∃ i d', (Machine.play code moves a).RunsThrough n start m doublings (k + i) d' ∧
      ∀ e, e = .interval n ∨ e = .fire n → scheduled e code moves a = (List.range i).map fun j =>
        .clamp (Trickle.opening start m doublings (k + 1 + j)) := by
  induction moves generalizing a keys k d with
  | nil => exact ⟨0, d, h, fun _ _ => rfl⟩
  | cons mv moves ih =>
    obtain ⟨⟨hkeeps, hleaves⟩, halong⟩ := halong
    obtain ⟨hb', htimely', -⟩ := timely_move code mv htimely hb
    have hp := passage_move code mv htimely hb ha.sound
    obtain ⟨i, d', hd', hfirst⟩ :=
      h.move hm hstart ha hp (fares_move code mv ha htimely hkeeps n) hleaves
    obtain ⟨i', d'', hd'', hrest⟩ :=
      ih hd' (ha.move code mv htimely hb hkeeps) htimely' hb' halong
    refine ⟨i + i', d'', (Nat.add_assoc k i i') ▸ hd'', fun e he => ?_⟩
    rw [scheduled, hfirst e he, hrest e he, List.range_add, List.map_append, List.map_map]
    congr 1
    refine List.map_congr_left fun j _ => ?_
    rw [Function.comp_apply, show k + i + 1 + j = k + 1 + (i + j) by omega]

/-- The step that resets a timer. -/
lemma step_of_reset (code : Code K U) (hd : a.memory.trickle? n = some d)
    {next : Option (Except SimError PUnit) → Program K U PUnit} {rest : List (Frame K U)}
    (hstack : a.stack = .exec (.ask (.trickle n .reset) next) :: rest) :
    (step code a).sim = (d.reset n a.sim).2.2 ∧
      (step code a).memory = a.memory.setTrickle n (some (d.reset n a.sim).2.1) ∧
      (∃ p, (step code a).stack = .exec p :: rest) ∧ a.turns .step = d.resetTurns n a.sim := by
  obtain ⟨s, m, stack, broken⟩ := a
  obtain rfl : stack = _ := hstack
  have hd : m.trickle? n = some d := hd
  rw [turns_step]
  simp only [step, stepFrame, exec, Request.apply, Frame.turns, Request.turns, hd]
  exact ⟨rfl, rfl, ⟨_, rfl⟩, List.append_nil _⟩

/-- The reset of a timer without events begins the first interval. -/
lemma RunsThrough.of_reset (code : Code K U) (hm : 0 < m.ticks) (hnow : 0 ≤ a.sim.now.ticks)
    (ha : a.Attended) (halive : a.sim.phase ≠ .destroyed)
    (hnone : ∀ id ev, a.sim.find? id = some ev → ¬OwnTask n ev.task)
    (hd : a.memory.trickle? n = some d) (hmin : d.minInterval = m)
    (hmax : d.maxInterval.ticks = Trickle.limit m doublings)
    {next : Option (Except SimError PUnit) → Program K U PUnit} {rest : List (Frame K U)}
    (hstack : a.stack = .exec (.ask (.trickle n .reset) next) :: rest) :
    (∃ d', (step code a).RunsThrough n a.sim.now m doublings 0 d') ∧
      ∀ e, e = .interval n ∨ e = .fire n → a.scheduledBy e .step =
        [.clamp (Trickle.opening a.sim.now m doublings 0)] := by
  obtain ⟨hsim, hmemory, ⟨p, hstack'⟩, hturns⟩ := step_of_reset code hd hstack
  have hcourse := d.course_stop a.sim
  have hp := ha.sound.passage hcourse.course
  have hstart : a.sim.now = .clamp (Trickle.opening a.sim.now m doublings 0) := by
    rw [Trickle.opening_zero, Time.clamp_ticks]
  have hnone' : ∀ id ev, (d.stop a.sim).find? id = some ev → ev.task ≠ .trickleInterval n := by
    intro id ev hev htask
    obtain ⟨old, hold, -, htask', -⟩ :=
      (Trickle.noneIssued_stopTurns n d a.sim).held hp hev (Or.inl htask)
    exact hnone id old hold (htask' ▸ Or.inl htask)
  obtain ⟨hruns, hone⟩ := RunsThrough.of_begun (k := 0) hm hnow
    (Trickle.begun_beginInterval n { d with interval := d.minInterval } hp.sound)
    (by rw [hcourse.unchanged]; exact halive) hnone' (hcourse.course.unchanged.2.1.trans hstart)
    (by rw [Trickle.length_zero hm, ← hmin]) hmax hsim
    (by rw [hmemory, Memory.setTrickle_self (Memory.lt_size_of_trickle? hd)]; rfl)
    (by rw [handled?, hstack']; rfl)
  refine ⟨⟨_, hruns⟩, fun e he => ?_⟩
  obtain ⟨id, hid⟩ := List.length_eq_one_iff.mp (hone e he)
  have hstop : issuedFor e (d.stopTurns a.sim) = [] :=
    issuedFor_eq_nil_of_noneIssued (Trickle.noneIssued_stopTurns n d a.sim) he
  rw [scheduledBy, hturns, Trickle.resetTurns, issuedFor_append, hstop, hid, ← hstart]
  rfl

/-- After a reset the intervals of a new timer double. Let a simulator that is not destroyed reset a
timer that was just made, with a positive least length. As long as the timer is left to itself, its
intervals have begun exactly at the openings that the lengths sum up to, each with one event for its
end and one for its firing point. In the last one nothing is counted, its length is the doubled one
up to the limit, and exactly one end of an interval is held, which is due where the next one opens,
not before now; or it is being handled, right there. -/
theorem intervals_double (code : Code K U) (identity : Nat) (kind : QueueKind) (buckets : Nat)
    (sync : SyncMode) (inboxes : Array (Inbox (Task K))) (u : U) (moves : List (Move K U))
    (hkeeps : Along code KeepsTimers moves
      (idle identity kind buckets sync { inboxes := inboxes, user := u })) :
    let a := play code moves (idle identity kind buckets sync { inboxes := inboxes, user := u })
    ∀ n m doublings redundancy seed d next rest, 0 < m.ticks → a.sim.phase ≠ .destroyed →
      a.memory.trickle? n = some d → d.core = .create m doublings redundancy seed →
      a.stack = .exec (.ask (.trickle n .reset) next) :: rest →
      ∀ more, Along code (fun b mv => b.KeepsTimers mv ∧ b.leaves n mv = true) more (step code a) →
        let b := play code more (step code a)
        let opening := fun k => Time.clamp (Trickle.opening a.sim.now m doublings k)
        ∃ k d', b.memory.trickle? n = some d' ∧
          scheduled (.interval n) code (.step :: more) a = (List.range (k + 1)).map opening ∧
          scheduled (.fire n) code (.step :: more) a = (List.range (k + 1)).map opening ∧
          d'.interval.ticks = Trickle.length m doublings k ∧ d'.counter = 0 ∧
          (∀ id ev, b.sim.find? id = some ev → ev.task = .trickleInterval n →
            id = d'.intervalEvent) ∧
          (b.handled? ≠ some (.interval n) → b.sim.now ≤ opening (k + 1) ∧
            ∃ ev, b.sim.find? d'.intervalEvent = some ev ∧ ev.task = .trickleInterval n ∧
              ev.cancelled = false ∧ ev.key.time = opening (k + 1)) ∧
          (b.handled? = some (.interval n) → b.sim.now = opening (k + 1) ∧
            b.sim.find? d'.intervalEvent = none) := by
  intro a n m doublings redundancy seed d next rest hm halive hd hcore hstack more hmore b opening
  have hidle := going_idle (K := K) identity kind buckets sync inboxes u
  have hgoing : a.Going := hidle.play code moves hkeeps
  obtain ⟨ha', ⟨_, h'⟩, hb'⟩ := hgoing.step code
  obtain ⟨hattended, ⟨_, hstart⟩, -⟩ := hidle
  obtain ⟨ha, ⟨_, h⟩, -⟩ := hgoing
  obtain ⟨function, rfl⟩ := Trickle.core_eq_iff.mp
    (show d.core = (Trickle.create m doublings redundancy seed).core from hcore)
  have hnone : ∀ id ev, a.sim.find? id = some ev → ¬OwnTask n ev.task :=
    ((untouched_idle n identity kind buckets sync inboxes u).play code moves hattended hstart rfl
      hkeeps).fresh _ hd rfl
  obtain ⟨⟨d₀, hd₀⟩, hfirst⟩ := RunsThrough.of_reset code hm h.now_nonneg ha halive hnone hd rfl
    (Trickle.ticks_maxInterval_create (K := K) hm doublings redundancy seed) hstack
  obtain ⟨k, d', hruns, hrest⟩ := hd₀.play code more hm h.now_nonneg ha' h' hb' hmore
  obtain ⟨-, h'', -⟩ := timely_play code more h' hb'
  rw [Nat.zero_add] at hruns
  have hscheduled : ∀ e, e = .interval n ∨ e = .fire n →
      scheduled e code (.step :: more) a = (List.range (k + 1)).map opening := by
    intro e he
    rw [scheduled, hfirst e he, show scheduled e code more (move code a .step) = _ from hrest e he,
      List.range_succ_eq_map, List.map_cons, List.map_map, List.singleton_append]
    congr 1
    refine List.map_congr_left fun j _ => ?_
    rw [Function.comp_apply, show 0 + 1 + j = j.succ by omega]
  refine ⟨k, d', hruns.record, hscheduled _ (Or.inl rfl), hscheduled _ (Or.inr rfl),
    hruns.interval, hruns.counter, hruns.alone, ?_, ?_⟩
  · intro hnot
    obtain ⟨ev, hev, htask, hlive, hdue⟩ := hruns.pending hnot
    have hle : b.sim.now ≤ ev.key.time := h''.le_of_find? hev
    rw [hdue] at hle
    exact ⟨hle, ev, hev, htask, hlive, hdue⟩
  · intro hended
    exact ⟨(hruns.ended hended).2, (hruns.ended hended).1⟩

theorem intervals_double_thrice :
    let code := ticker (.clamp 10) 2 0 [.reset]
    let a := ticked code 2
    Along code (fun b mv => b.leaves 0 mv = true) (List.replicate 40 .step) (step code a) ∧
      scheduled (.interval 0) code (List.replicate 41 .step) a =
        [.clamp 0, .clamp 10, .clamp 30, .clamp 70] ∧
      ∃ d, (play code (List.replicate 40 .step) (step code a)).memory.trickle? 0 = some d ∧
        d.interval = .clamp 40 := by
  intro code a
  have hleaves : Along code (fun b mv => b.leaves 0 mv = true) (List.replicate 40 .step)
      (step code a) := by
    decide +kernel
  have hcount : (scheduled (.interval 0) code (List.replicate 41 .step) a).length = 4 := by
    decide +kernel
  obtain ⟨k, d, hd, hintervals, -, hlength, -⟩ := intervals_double code 0 .list 1 .sequential #[] []
    (ticks code 2) (keepsTimers_ticks code 2) 0 (.clamp 10) 2 0 0 _ _ _ (by decide) (by decide)
    rfl rfl rfl (List.replicate 40 .step) ((keepsTimers_steps code 40 _).and hleaves)
  rw [show scheduled (.interval 0) code (List.replicate 41 .step) a = _ from hintervals,
    List.length_map, List.length_range] at hcount
  obtain rfl : k = 3 := by omega
  exact ⟨hleaves, hintervals.trans (by decide), d, hd, Time.ext (hlength.trans (by decide))⟩

end Machine

end EventKernel
