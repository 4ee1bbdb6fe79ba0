import EventKernel.Proofs.Machine.Clock
import EventKernel.Proofs.Timer.FiringPoint
import EventKernel.Proofs.Timer.Trickle

/-!
# The intervals of a trickle timer

An interval begins with two events, its end and its firing point, and the timer remembers the two
handles. As long as intervals do not overlap, these are the only events of the timer that are
pending, but for firing points that are due at this very moment and were overtaken by the end of
their interval.
-/

namespace EventKernel

open Simulator (Passage Timely issueTurns)

variable {K : Type} {s t : Simulator K} {turns : List (Turn K)} {keys : List EventKey}

namespace Simulator

/-- What a call that schedules an event comes to, with all that is held behind it. -/
lemma Sound.schedule_cases (h : s.Sound) (delay : Time) (task : Task K) :
    (∃ e, s.schedule delay task = (.error e, s) ∧
      (s.phase = .destroyed ∨ delay.isNegative = true)) ∨
      ∃ id t, s.schedule delay task = (.ok id, t) ∧ s.phase ≠ .destroyed ∧
        delay.isNegative = false ∧ id.sequence = s.sequences.next ∧ t.Sound ∧
        t.now = s.now ∧ t.phase = s.phase ∧ t.context = s.context ∧
        t.sequences.next = s.sequences.next + 1 ∧
        (∀ j, t.find? j = if j = id then
          some { key := ⟨s.now + delay, s.sequences.next⟩, context := s.context, task }
        else s.find? j) ∧
        issueTurns (.ok id, t) = [⟨id, .issued,
          { key := ⟨s.now + delay, s.sequences.next⟩, context := s.context, task }⟩] := by
  have hp := h.passage (s.course_schedule delay task).course
  rw [schedule, scheduleWith] at hp ⊢
  split
  · next hphase => exact Or.inl ⟨_, rfl, Or.inl hphase⟩
  · next hphase =>
    rw [if_neg hphase] at hp
    split
    · next hdelay => exact Or.inl ⟨_, rfl, Or.inr hdelay⟩
    · next hdelay =>
      rw [if_neg hdelay] at hp
      obtain ⟨hseq, -, hfind⟩ := h.find?_insert s.context delay task
      exact Or.inr ⟨_, _, rfl, hphase, Bool.eq_false_iff.mpr hdelay, hseq, hp.sound, rfl, rfl, rfl,
        rfl, hfind, turn_eq_of_find? .issued ((hfind _).trans (if_pos rfl))⟩

/-- The event that is taken off the queue is the first of those that are queued. -/
lemma Timely.key_lt_of_removeNext (h : s.Timely keys) (hs : s.Sound) {id : EventId}
    {ev other : Event (Task K)} {q : Scheduler (Task K)}
    (hnext : s.scheduler.removeNext = (some (id, ev), q)) {slot n : Nat}
    (hother : s.find? (.queued slot n) = some other) (hne : EventId.queued slot n ≠ id) :
    ev.key < other.key := by
  obtain ⟨e, -, hkey, -, hrest⟩ := h.of_removeNext hnext
  have hheld := ((hs.find?_take hnext s.now).2 _).trans ((if_neg hne).trans hother)
  rw [hkey]
  exact (hrest _ (Arena.mem_entries_of_get? hheld)).2

/-- The event that is taken off the queue is due no later than any other one that is held. -/
lemma Timely.time_le_of_removeNext (h : s.Timely keys) {id j : EventId} {ev other : Event (Task K)}
    {q : Scheduler (Task K)} (hnext : s.scheduler.removeNext = (some (id, ev), q))
    (hj : s.find? j = some other) (hne : j ≠ id) (hs : s.Sound) :
    ev.key.time ≤ other.key.time := by
  cases j with
  | queued slot n => exact EventKey.ticks_le (le_of_lt (h.key_lt_of_removeNext hs hnext hj hne))
  | destroy n =>
    obtain ⟨old, -, rfl⟩ := Option.map_eq_some_iff.mp hj
    exact Int.lt_add_one_iff.mp ev.key.time.ticks_lt

end Simulator

namespace Trickle

variable {n : Nat} {d : Trickle K}

/-- The timer without its function, which comes and goes as it runs. -/
def core (d : Trickle K) : Trickle K := { d with function := none }

/-! ### The beginning of an interval -/

/-- How far the firing point of the interval that is about to begin lies behind its start. -/
def offset (d : Trickle K) : Time := d.interval.scaleBy d.generator.upperHalf.1

/-- The firing point lies within the interval. -/
lemma offset_spec (h : 0 ≤ d.interval.ticks) :
    0 ≤ d.offset.ticks ∧ d.offset ≤ d.interval ∧ d.interval.ticks ≤ 2 * d.offset.ticks + 512 ∧
      (d.interval.ticks ≤ 2 ^ 53 → d.interval.ticks ≤ 2 * d.offset.ticks) :=
  Time.firingPoint_spec h d.generator

/-- The end of the interval that begins now. -/
def intervalEnd (n : Nat) (d : Trickle K) (s : Simulator K) : Event (Task K) where
  key := ⟨s.now + d.interval, s.sequences.next⟩
  context := s.context
  task := .trickleInterval n

/-- The firing point of the interval that begins now. -/
def firingPoint (n : Nat) (d : Trickle K) (s : Simulator K) : Event (Task K) where
  key := ⟨s.now + d.offset, s.sequences.next + 1⟩
  context := s.context
  task := .trickleFire n

/-- An interval begins with both of its events, or nothing is scheduled at all. -/
inductive Begun (n : Nat) (d : Trickle K) (s : Simulator K) :
    List (Turn K) → Except SimError PUnit × Trickle K × Simulator K → Prop where
  | refused (e : SimError) (hwhy : s.phase = .destroyed ∨ d.interval.ticks < 0) :
      Begun n d s [] (.error e, { d with generator := d.generator.upperHalf.2, counter := 0 }, s)
  | begun {interval fire : EventId} {t : Simulator K} (halive : s.phase ≠ .destroyed)
      (hinterval : 0 ≤ d.interval.ticks) (hseq : interval.sequence = s.sequences.next)
      (hseq' : fire.sequence = s.sequences.next + 1) (hsound : t.Sound) (hnow : t.now = s.now)
      (hfind : ∀ j, t.find? j = if j = fire then some (d.firingPoint n s)
        else if j = interval then some (d.intervalEnd n s) else s.find? j) :
      Begun n d s [⟨interval, .issued, d.intervalEnd n s⟩, ⟨fire, .issued, d.firingPoint n s⟩]
        (.ok (), { d with
        generator := d.generator.upperHalf.2, counter := 0, intervalEvent := interval,
        fireEvent := fire }, t)

lemma begun_beginInterval (n : Nat) (d : Trickle K) (hs : s.Sound) :
    Begun n d s (d.beginTurns n s) (d.beginInterval n s) := by
  rw [beginInterval, beginTurns]
  dsimp only
  rcases hs.schedule_cases d.interval (.trickleInterval n) with ⟨e, he, hwhy⟩ |
    ⟨id, t, ht, halive, hdelay, hseq, hsound, hnow, hphase, hcontext, hnext, hfind, hturn⟩
  · rw [he]
    exact .refused e (hwhy.imp_right of_decide_eq_true)
  · have hinterval : 0 ≤ d.interval.ticks := Int.not_lt.mp (of_decide_eq_false hdelay)
    rw [ht]
    dsimp only
    rcases hsound.schedule_cases (d.interval.scaleBy d.generator.upperHalf.1) (.trickleFire n) with
      ⟨e, -, hwhy⟩ | ⟨id', t', ht', -, -, hseq', hsound', hnow', -, -, -, hfind', hturn'⟩
    · -- a refusal would have come for the end of the interval
      rcases hwhy with hdestroyed | hnegative
      · exact absurd (hphase.symm.trans hdestroyed) halive
      · have hoffset := (offset_spec hinterval).1
        exact absurd hoffset (Int.not_le.mpr (of_decide_eq_true hnegative))
    · rw [hnow, hnext, hcontext] at hturn'
      rw [ht']
      dsimp only
      rw [hturn, hturn']
      refine .begun halive hinterval hseq (hseq'.trans hnext) hsound' (hnow'.trans hnow) ?_
      intro j
      rw [hfind', hnow, hnext, hcontext, hfind]
      rfl

/-! ### The events that are pending -/

/-- The pending events of a timer are those that it names, except for firing points that are due
now; and the firing point it names does not lie behind the end of its interval. -/
structure Sole (n : Nat) (d : Trickle K) (s : Simulator K) : Prop where
  interval : ∀ id ev, s.find? id = some ev → ev.task = .trickleInterval n → ev.cancelled = false →
    id = d.intervalEvent
  fire : ∀ id ev, s.find? id = some ev → ev.task = .trickleFire n → ev.cancelled = false →
    id = d.fireEvent ∨ ev.key.time = s.now
  order : ∀ last ev, s.find? d.intervalEvent = some last → last.cancelled = false →
    s.find? d.fireEvent = some ev → ev.cancelled = false → ev.key.time ≤ last.key.time

/-- No end of an interval is pending, and firing points only as far as they are due now. -/
structure Ended (n : Nat) (s : Simulator K) : Prop where
  interval : ∀ id ev, s.find? id = some ev → ev.task = .trickleInterval n → ev.cancelled = true
  fire : ∀ id ev, s.find? id = some ev → ev.task = .trickleFire n → ev.cancelled = false →
    ev.key.time = s.now

/-- Whether turns issue no event of a timer. -/
def NoneIssued (n : Nat) (turns : List (Turn K)) : Prop :=
  ∀ x ∈ turns, x.fate = .issued → ¬OwnTask n x.event.task

lemma NoneIssued.held (h : NoneIssued n turns) (hp : Passage s turns t) {id : EventId}
    {ev : Event (Task K)} (hev : t.find? id = some ev) (htask : OwnTask n ev.task) :
    ∃ old, s.find? id = some old ∧ old.key = ev.key ∧ old.task = ev.task ∧
      (ev.cancelled = false → old.cancelled = false) := by
  rcases hp.held id ev hev with ⟨old, hold, hsame, hlive⟩ | ⟨-, x, hx, -, hissued, hsame⟩
  · exact ⟨old, hold, (Event.of_unmarked_eq hsame).1, (Event.of_unmarked_eq hsame).2, hlive⟩
  · refine absurd ?_ (h x hx hissued)
    rw [hsame]
    exact htask

lemma Sole.congr (h : d.Sole n s) {d' : Trickle K} (hinterval : d'.intervalEvent = d.intervalEvent)
    (hfire : d'.fireEvent = d.fireEvent) : d'.Sole n s where
  interval := by
    rw [hinterval]
    exact h.interval
  fire := by
    rw [hfire]
    exact h.fire
  order := by
    rw [hinterval, hfire]
    exact h.order

lemma Sole.passage (h : d.Sole n s) (hp : Passage s turns t) (hnow : t.now = s.now)
    (hissued : NoneIssued n turns) (hkept : d.Kept n t) : d.Sole n t where
  interval id ev hev htask hlive := by
    obtain ⟨old, hold, -, htask', hlive'⟩ := hissued.held hp hev (Or.inl htask)
    exact h.interval id old hold (htask'.trans htask) (hlive' hlive)
  fire id ev hev htask hlive := by
    obtain ⟨old, hold, hkey, htask', hlive'⟩ := hissued.held hp hev (Or.inr htask)
    rw [hnow, ← hkey]
    exact h.fire id old hold (htask'.trans htask) (hlive' hlive)
  order last ev hlast hpending hev hlive := by
    obtain ⟨last', hlast', hkey, -, hpending'⟩ :=
      hissued.held hp hlast (Or.inl (hkept.interval.2 _ hlast))
    obtain ⟨ev', hev', hkey', -, hlive'⟩ := hissued.held hp hev (Or.inr (hkept.fire.2 _ hev))
    rw [← hkey, ← hkey']
    exact h.order last' ev' hlast' (hpending' hpending) hev' (hlive' hlive)

lemma Ended.passage (h : Ended n s) (hp : Passage s turns t) (hnow : t.now = s.now)
    (hissued : NoneIssued n turns) : Ended n t where
  interval id ev hev htask := by
    by_contra hlive
    obtain ⟨old, hold, -, htask', hlive'⟩ := hissued.held hp hev (Or.inl htask)
    have hcancelled := h.interval id old hold (htask'.trans htask)
    rw [hlive' (Bool.eq_false_iff.mpr hlive)] at hcancelled
    cases hcancelled
  fire id ev hev htask hlive := by
    obtain ⟨old, hold, hkey, htask', hlive'⟩ := hissued.held hp hev (Or.inr htask)
    rw [hnow, ← hkey]
    exact h.fire id old hold (htask'.trans htask) (hlive' hlive)

lemma Ended.sole (h : Ended n s) (hkept : d.Kept n s) : d.Sole n s where
  interval id ev hev htask hlive := by
    have hcancelled := h.interval id ev hev htask
    rw [hlive] at hcancelled
    cases hcancelled
  fire id ev hev htask hlive := Or.inr (h.fire id ev hev htask hlive)
  order last ev hlast hpending hev hlive := by
    have hcancelled := h.interval _ last hlast (hkept.interval.2 _ hlast)
    rw [hpending] at hcancelled
    cases hcancelled

/-- What a timer names has expired, so that nothing else of it is pending. -/
lemma Sole.ended (h : d.Sole n s) (hs : s.Sound) (hinterval : s.isExpired d.intervalEvent = true)
    (hfire : s.isExpired d.fireEvent = true) : Ended n s := by
  have hcancelled : ∀ {id : EventId}, s.isExpired id = true → ∀ {ev}, s.find? id = some ev →
      ev.cancelled = true := by
    intro id hexpired ev hev
    rw [hs.isExpired_eq, hev, Option.any_some, Bool.not_not] at hexpired
    exact hexpired
  constructor
  · intro id ev hev htask
    by_contra hlive
    obtain rfl := h.interval id ev hev htask (Bool.eq_false_iff.mpr hlive)
    exact hlive (hcancelled hinterval hev)
  · intro id ev hev htask hlive
    rcases h.fire id ev hev htask hlive with rfl | hdue
    · rw [hcancelled hfire hev] at hlive
      cases hlive
    · exact hdue

/-- A new interval begins where none is left. -/
lemma Ended.begin (h : Ended n s) {r : Except SimError PUnit × Trickle K × Simulator K}
    (hr : Begun n d s turns r) (hkept : d.Kept n s) : r.2.1.Sole n r.2.2 := by
  cases hr with
  | refused e hwhy => exact (h.sole hkept).congr rfl rfl
  | @begun interval fire t halive hinterval hseq hseq' hsound hnow hfind =>
    have hne : interval ≠ fire := by
      rintro rfl
      omega
    refine ⟨?_, ?_, ?_⟩
    · intro id ev hev htask hlive
      rw [hfind] at hev
      split at hev
      · rw [← Option.some.inj hev] at htask
        cases htask
      · split at hev
        · next hid => exact hid
        · have hcancelled := h.interval id ev hev htask
          rw [hlive] at hcancelled
          cases hcancelled
    · intro id ev hev htask hlive
      rw [hfind] at hev
      split at hev
      · next hid => exact Or.inl hid
      · split at hev
        · rw [← Option.some.inj hev] at htask
          cases htask
        · right
          rw [hnow]
          exact h.fire id ev hev htask hlive
    · intro last ev hlast hpending hev hlive
      rw [hfind, if_neg hne, if_pos rfl] at hlast
      rw [hfind, if_pos rfl] at hev
      rw [← Option.some.inj hlast, ← Option.some.inj hev]
      have hoffset := (offset_spec hinterval).2.1
      rw [Time.le_iff] at hoffset ⊢
      show (s.now + d.offset).ticks ≤ (s.now + d.interval).ticks
      rw [Time.ticks_add, Time.ticks_add, Time.ticks_clamp, Time.ticks_clamp]
      omega

/-- Stopping cancels what the timer names. -/
lemma isExpired_stop (hs : s.Sound) (d : Trickle K) :
    (d.stop s).isExpired d.intervalEvent = true ∧ (d.stop s).isExpired d.fireEvent = true := by
  have hcancel : ∀ {s : Simulator K}, s.Sound → ∀ id j, (j = id ∨ s.isExpired j = true) →
      (s.cancel id).2.Sound ∧ (s.cancel id).2.isExpired j = true := by
    intro s hs id j hj
    have hp := hs.passage (s.course_cancel id).course
    obtain ⟨-, -, hfind⟩ := hs.find?_cancel id
    refine ⟨hp.sound, ?_⟩
    rw [hp.sound.isExpired_eq, hfind]
    split
    · cases s.find? id <;> rfl
    · next hne =>
      rw [← hs.isExpired_eq]
      exact hj.resolve_left hne
  obtain ⟨hsound, hinterval⟩ := hcancel hs d.intervalEvent d.intervalEvent (Or.inl rfl)
  exact ⟨(hcancel hsound d.fireEvent d.intervalEvent (Or.inr hinterval)).2,
    (hcancel hsound d.fireEvent d.fireEvent (Or.inl rfl)).2⟩

lemma noneIssued_stopTurns (n : Nat) (d : Trickle K) (s : Simulator K) :
    NoneIssued n (d.stopTurns s) := by
  intro x hx hissued
  exact (((confined_stopTurns (P := fun _ => False) d s).of_issued hx hissued)).elim

lemma Sole.stop (h : d.Sole n s) (hs : s.Sound) (hkept : d.Kept n s) : Ended n (d.stop s) := by
  have hp := hs.passage (d.course_stop s).course
  have hnow := ((d.course_stop s).course.unchanged).2.1
  obtain ⟨hinterval, hfire⟩ := isExpired_stop hs d
  exact (h.passage hp hnow (noneIssued_stopTurns n d s) (hkept.passage hp)).ended hp.sound
    hinterval hfire

/-- When an event is taken off the queue and the clock advances to it, the timer still names what is
pending; and if it was the end of the interval, nothing is left of it. -/
lemma Sole.take (h : d.Sole n s) (hs : s.Sound) (htimely : s.Timely keys)
    {id : EventId} {ev : Event (Task K)} {q : Scheduler (Task K)}
    (hnext : s.scheduler.removeNext = (some (id, ev), q)) :
    d.Sole n { s with scheduler := q, now := ev.key.time } ∧
      (ev.task = .trickleInterval n → ev.cancelled = false →
        Ended n { s with scheduler := q, now := ev.key.time }) := by
  obtain ⟨hev, hfind⟩ := hs.find?_take hnext ev.key.time
  have hheld : ∀ {j other}, Simulator.find? { s with scheduler := q, now := ev.key.time } j =
      some other → s.find? j = some other ∧ j ≠ id ∧ ev.key.time ≤ other.key.time := by
    intro j other hj
    rw [hfind] at hj
    split at hj
    · cases hj
    · next hne => exact ⟨hj, hne, htimely.time_le_of_removeNext hnext hj hne hs⟩
  -- what was due before the event was taken is due when it is taken
  have hdue : ∀ {j other}, s.find? j = some other → ev.key.time ≤ other.key.time →
      other.key.time ≤ s.now → other.key.time = ev.key.time := by
    intro j other hj hle hdue
    have hnow : s.now ≤ ev.key.time := (htimely.take hnext).1
    rw [Time.le_iff] at hle hdue hnow
    exact Time.ext (by omega)
  refine ⟨⟨?_, ?_, ?_⟩, ?_⟩
  · intro j other hj htask hlive
    exact h.interval j other (hheld hj).1 htask hlive
  · intro j other hj htask hlive
    obtain ⟨hj, -, hle⟩ := hheld hj
    rcases h.fire j other hj htask hlive with hnamed | hnow
    · exact Or.inl hnamed
    · exact Or.inr (hdue hj hle (hnow ▸ Int.le_refl _))
  · intro last other hlast hpending hother hlive
    exact h.order last other (hheld hlast).1 hpending (hheld hother).1 hlive
  · intro htask hlive
    have hid := h.interval id ev hev htask hlive
    constructor
    · intro j other hj htask'
      obtain ⟨hj, hne, -⟩ := hheld hj
      by_contra hlive'
      exact hne ((h.interval j other hj htask' (Bool.eq_false_iff.mpr hlive')).trans hid.symm)
    · intro j other hj htask' hlive'
      obtain ⟨hj, -, hle⟩ := hheld hj
      rcases h.fire j other hj htask' hlive' with rfl | hnow
      · have horder := h.order ev other (hid ▸ hev) hlive hj hlive'
        rw [Time.le_iff] at hle horder
        exact Time.ext (le_antisymm horder hle)
      · exact hdue hj hle (hnow ▸ Int.le_refl _)

end Trickle

end EventKernel
