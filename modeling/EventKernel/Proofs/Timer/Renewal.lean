import EventKernel.Proofs.Timer.Trickle
import EventKernel.Proofs.Timer.Watchdog

/-!
# How timers renew their handles

A timer keeps a bare handle for each kind of event that it schedules. An operation puts another
handle in its place exactly when it schedules such an event, and in the end keeps the handle that
was issued last. On which simulator that was, the timer does not record.
-/

namespace EventKernel

open Simulator (Passage issueTurns)

variable {K : Type} {s t : Simulator K} {turns more : List (Turn K)}

/-! ### The events of timers -/

/-- The kinds of events that timers schedule. -/
inductive TimerEvent where
  | expiry (w : Nat)
  | interval (n : Nat)
  | fire (n : Nat)
  deriving DecidableEq

def TimerEvent.task : TimerEvent → Task K
  | expiry w => .watchdog w
  | interval n => .trickleInterval n
  | fire n => .trickleFire n

/-- The kind of timer event that a task handles. -/
def Task.timerEvent? : Task K → Option TimerEvent
  | .watchdog w => some (.expiry w)
  | .trickleInterval n => some (.interval n)
  | .trickleFire n => some (.fire n)
  | .user _ | .stop => none

lemma Task.timerEvent?_eq_some_iff {task : Task K} {e : TimerEvent} :
    task.timerEvent? = some e ↔ task = e.task := by
  cases task <;> cases e <;> simp [timerEvent?, TimerEvent.task]

@[simp] lemma TimerEvent.timerEvent?_task (e : TimerEvent) :
    (e.task : Task K).timerEvent? = some e :=
  Task.timerEvent?_eq_some_iff.mpr rfl

lemma Task.IsPlain.ne_timerEvent {task : Task K} (h : task.IsPlain) (e : TimerEvent) :
    task ≠ e.task := by
  rintro rfl
  cases e <;> exact h

/-- The handles that are issued for one kind of timer event. -/
def issuedFor (e : TimerEvent) (turns : List (Turn K)) : List EventId :=
  (turns.filter fun x => x.fate = .issued ∧ x.event.task.timerEvent? = some e).map (·.id)

variable {e : TimerEvent}

lemma mem_issuedFor {id : EventId} :
    id ∈ issuedFor e turns ↔ ∃ x ∈ turns, x.fate = .issued ∧ x.event.task = e.task ∧ x.id = id := by
  simp only [issuedFor, List.mem_map, List.mem_filter, decide_eq_true_iff,
    Task.timerEvent?_eq_some_iff, and_assoc]

lemma issuedFor_append (e : TimerEvent) (turns more : List (Turn K)) :
    issuedFor e (turns ++ more) = issuedFor e turns ++ issuedFor e more := by
  rw [issuedFor, List.filter_append, List.map_append, issuedFor, issuedFor]

lemma Confined.issuedFor_eq_nil {P : Task K → Prop} {Q : EventId → Prop} (h : Confined P Q turns)
    (hP : ¬P e.task) : issuedFor e turns = [] := by
  refine List.eq_nil_iff_forall_not_mem.mpr fun id hid => ?_
  obtain ⟨x, hx, hissued, htask, -⟩ := mem_issuedFor.mp hid
  exact hP (htask ▸ h.of_issued hx hissued)

/-- The handle kept after some were issued: the last of these, if any. -/
def EventId.renewed (ids : List EventId) (old : EventId) : EventId := ids.getLast?.getD old

@[simp] lemma EventId.renewed_nil (old : EventId) : renewed [] old = old := rfl

@[simp] lemma EventId.renewed_singleton (id old : EventId) : renewed [id] old = id := rfl

lemma EventId.renewed_append (ids ids' : List EventId) (old : EventId) :
    renewed (ids ++ ids') old = renewed ids' (renewed ids old) := by
  rw [renewed, renewed, renewed, List.getLast?_append]
  cases ids'.getLast? <;> rfl

namespace Simulator

/-- A handle that is issued belongs to the task it is issued for. -/
lemma Sound.owns_issued (h : s.Sound) (hcourse : Course s turns t) {x : Turn K} (hx : x ∈ turns)
    (hissued : x.fate = .issued) : t.Owns x.id x.event.task := by
  induction hcourse with
  | refl => cases hx
  | tail hbefore hchange ih =>
    have hadvance := (h.passage hbefore).sound.change hchange
    rcases List.mem_append.mp hx with hx | hx
    · exact (ih hx).passage hadvance.passage
    · obtain ⟨hone, hseq, hlt⟩ := hadvance.issued x hx hissued
      refine ⟨hseq ▸ hlt, fun ev hev => ?_⟩
      -- the event is the one of this turn, since the number is a new one
      rcases hadvance.passage.held x.id ev hev with ⟨old, hold, -⟩ | ⟨-, y, hy, -, -, hsame⟩
      · have hold := ((h.passage hbefore).sound.lt_next x.id old hold).2
        omega
      · rw [hone, List.mem_singleton] at hy
        rw [← hy, hsame]
        rfl

/-- What is not issued concerns an event that was there before, or that has just been issued. -/
lemma Sound.held_of_not_issued (h : s.Sound) (hcourse : Course s turns t) {x : Turn K}
    (hx : x ∈ turns) (hnot : x.fate ≠ .issued) :
    (∃ ev, s.find? x.id = some ev ∧ ev.task = x.event.task) ∨
      s.sequences.next ≤ x.id.sequence := by
  induction hcourse with
  | refl => cases hx
  | @tail u v _ more hbefore hchange ih =>
    rcases List.mem_append.mp hx with hx | hx
    · exact ih hx
    · have hp := h.passage hbefore
      have hstep := (hp.sound.change hchange).lifeStep x.id
      have hheld : ∃ ev, u.find? x.id = some ev ∧ ev.task = x.event.task := by
        have hmem := mem_turnsOf.mpr ⟨hx, rfl⟩
        generalize turnsOf x.id more = own at hstep hmem
        generalize u.find? x.id = front at hstep
        generalize v.find? x.id = behind at hstep
        cases hstep with
        | none => cases hmem
        | issue => exact absurd (by rw [List.mem_singleton.mp hmem]) hnot
        | @cancel ev | take ev | leave ev =>
          exact ⟨ev, rfl, congrArg (·.event.task) (List.mem_singleton.mp hmem).symm⟩
      obtain ⟨ev, hev, htask⟩ := hheld
      rcases hp.held x.id ev hev with ⟨old, hold, hsame, -⟩ | ⟨hnew, -⟩
      · exact Or.inl ⟨old, hold, (Event.of_unmarked_eq hsame).2.trans htask⟩
      · exact Or.inr hnew

lemma Sound.issuedFor_schedule (h : s.Sound) (delay : Time) (e : TimerEvent) :
    (∃ err, s.schedule delay e.task = (.error err, s) ∧ ∀ e' : TimerEvent,
        issuedFor e' (issueTurns (s.schedule delay e.task)) = []) ∨
      ∃ id t, s.schedule delay e.task = (.ok id, t) ∧ t.Sound ∧
        ∀ e' : TimerEvent, issuedFor e' (issueTurns (s.schedule delay e.task)) =
          if e' = e then [id] else [] := by
  have hp := h.passage (s.course_schedule delay e.task).course
  rw [schedule] at hp ⊢
  rcases h.scheduleWith_cases s.context delay e.task with
    ⟨err, he, -⟩ | ⟨id, t, ht, -, -, hturns, -, -⟩
  · rw [he]
    exact Or.inl ⟨err, rfl, fun _ => rfl⟩
  · rw [ht] at hp ⊢
    refine Or.inr ⟨id, t, rfl, hp.sound, fun e' => ?_⟩
    rw [hturns, issuedFor, List.filter_singleton]
    by_cases he : e' = e
    · simp [he]
    · simp [he, Ne.symm he]

lemma issuedFor_cancelTurns (e : TimerEvent) (id : EventId) (s : Simulator K) :
    issuedFor e (s.cancelTurns id) = [] :=
  (confined_cancelTurns (P := fun _ => False) id s).issuedFor_eq_nil not_false

end Simulator

open EventId (renewed)

/-! ### Watchdogs -/

namespace Watchdog

variable {w : Nat}

lemma event_scheduleExpiry (hs : s.Sound) (delay : Time) (d : Watchdog K) :
    (d.scheduleExpiry w delay s).2.1.event =
      renewed (issuedFor (.expiry w) (issueTurns (s.schedule delay (.watchdog w)))) d.event := by
  rw [scheduleExpiry]
  rcases hs.issuedFor_schedule delay (.expiry w) with ⟨err, he, hids⟩ | ⟨id, t, ht, -, hids⟩
  · rw [show Task.watchdog w = (TimerEvent.expiry w).task from rfl, hids, he]
    rfl
  · rw [show Task.watchdog w = (TimerEvent.expiry w).task from rfl, hids, ht, if_pos rfl]
    rfl

lemma event_arm (delay : Time) (d : Watchdog K) (s : Simulator K) :
    (d.arm w delay s).2.1.event = (d.scheduleExpiry w delay s).2.1.event := by
  rw [arm]
  split
  · next h => rw [h]
  · next h => rw [h]

lemma event_ping (hs : s.Sound) (delay : Time) (d : Watchdog K) :
    (d.ping w delay s).2.1.event =
      renewed (issuedFor (.expiry w) (d.pingTurns w delay s)) d.event := by
  rw [ping, pingTurns]
  split
  · rfl
  · dsimp only
    split
    · rw [event_arm]
      exact event_scheduleExpiry hs delay { d with cancelled := false }
    · split
      · rfl
      · split
        · have hp := hs.passage (s.course_cancel d.event).course
          rw [issuedFor_append, Simulator.issuedFor_cancelTurns, List.nil_append]
          exact event_scheduleExpiry hp.sound delay { d with cancelled := false, deadline := _ }
        · rfl

lemma event_expire (hs : s.Sound) (d : Watchdog K) :
    (d.expire w s).2.1.event = renewed (issuedFor (.expiry w) (d.expireTurns w s)) d.event := by
  rw [expire, expireTurns]
  split
  · rfl
  · split
    · exact event_scheduleExpiry hs _ d
    · rfl

lemma isExpired_scheduleExpiry (hs : s.Sound) (delay : Time) (d : Watchdog K)
    (hok : (d.scheduleExpiry w delay s).1 = .ok ()) :
    (d.scheduleExpiry w delay s).2.2.isExpired (d.scheduleExpiry w delay s).2.1.event = false := by
  rw [scheduleExpiry, Simulator.schedule] at hok ⊢
  have hp := hs.passage (s.course_schedule delay (.watchdog w)).course
  rw [Simulator.schedule] at hp
  rcases hs.scheduleWith_cases s.context delay (.watchdog w) with
    ⟨e, he, -⟩ | ⟨id, t, ht, -, -, -, hfind, -⟩
  · rw [he] at hok
    cases hok
  · rw [ht] at hp ⊢
    exact (hp.sound.isExpired_eq id).trans (by rw [hfind]; rfl)

/-- A ping that succeeds leaves the event pending that its watchdog names. -/
lemma isExpired_ping (hs : s.Sound) {delay : Time} {d : Watchdog K}
    (hok : (d.ping w delay s).1 = .ok ()) :
    (d.ping w delay s).2.2.isExpired (d.ping w delay s).2.1.event = false := by
  rw [ping] at hok ⊢
  split at hok
  · cases hok
  · next hdelay =>
    rw [if_neg hdelay]
    dsimp only at hok ⊢
    split at hok
    · next hexpired =>
      rw [if_pos hexpired]
      have hpending := isExpired_scheduleExpiry (w := w) hs delay { d with cancelled := false }
      rw [arm] at hok ⊢
      generalize ({ d with cancelled := false } : Watchdog K).scheduleExpiry w delay s = r
        at hpending hok ⊢
      obtain ⟨_ | _, d', t⟩ := r
      · cases hok
      · exact hpending rfl
    · next hpending =>
      rw [if_neg hpending]
      rw [Bool.not_eq_true] at hpending
      split at hok
      · next hmore =>
        rw [if_pos hmore]
        exact hpending
      · next hmore =>
        rw [if_neg hmore]
        split at hok
        · next hless =>
          rw [if_pos hless]
          have hp := hs.passage (s.course_cancel d.event).course
          exact isExpired_scheduleExpiry hp.sound delay _ hok
        · next hless =>
          rw [if_neg hless]
          exact hpending

end Watchdog

/-! ### Trickle timers -/

namespace Trickle

variable {n : Nat} {d d' : Trickle K}

/-- Both handles of a timer are those issued last. -/
structure Renewed (n : Nat) (turns : List (Turn K)) (d d' : Trickle K) : Prop where
  interval : d'.intervalEvent = renewed (issuedFor (.interval n) turns) d.intervalEvent
  fire : d'.fireEvent = renewed (issuedFor (.fire n) turns) d.fireEvent

lemma renewed_beginInterval (hs : s.Sound) (d : Trickle K) :
    Renewed n (d.beginTurns n s) d (d.beginInterval n s).2.1 := by
  rw [beginInterval, beginTurns]
  dsimp only
  have hfirst := hs.issuedFor_schedule d.interval (.interval n)
  rw [show (TimerEvent.interval n).task = Task.trickleInterval n from rfl] at hfirst
  rcases hfirst with ⟨err, he, hids⟩ | ⟨id, t, ht, hsound, hids⟩
  · rw [he] at hids ⊢
    dsimp only
    rw [List.append_nil]
    constructor
    · rw [hids]
      rfl
    · rw [hids]
      rfl
  · rw [ht] at hids ⊢
    dsimp only
    have hsecond := hsound.issuedFor_schedule (d.interval.scaleBy d.generator.upperHalf.1) (.fire n)
    rw [show (TimerEvent.fire n).task = Task.trickleFire n from rfl] at hsecond
    rcases hsecond with ⟨err, he, hids'⟩ | ⟨id', t', ht', -, hids'⟩
    · rw [he] at hids' ⊢
      constructor
      · rw [issuedFor_append, hids, hids']
        simp
      · rw [issuedFor_append, hids, hids']
        simp
    · rw [ht'] at hids' ⊢
      constructor
      · rw [issuedFor_append, hids, hids']
        simp
      · rw [issuedFor_append, hids, hids']
        simp

lemma issuedFor_stopTurns (e : TimerEvent) (d : Trickle K) (s : Simulator K) :
    issuedFor e (d.stopTurns s) = [] :=
  (confined_stopTurns (P := fun _ => False) d s).issuedFor_eq_nil not_false

lemma renewed_reset (hs : s.Sound) (d : Trickle K) :
    Renewed n (d.resetTurns n s) d (d.reset n s).2.1 := by
  have hp := hs.passage (d.course_stop s).course
  obtain ⟨hinterval, hfire⟩ := renewed_beginInterval (n := n) hp.sound
    { d with interval := d.minInterval }
  constructor
  · rw [resetTurns, issuedFor_append, issuedFor_stopTurns, List.nil_append]
    exact hinterval
  · rw [resetTurns, issuedFor_append, issuedFor_stopTurns, List.nil_append]
    exact hfire

lemma renewed_endInterval (hs : s.Sound) (d : Trickle K) :
    Renewed n (d.endTurns n s) d (d.endInterval n s).1 := by
  obtain ⟨hinterval, hfire⟩ := renewed_beginInterval (n := n) hs
    { d with interval := (d.interval.scale 2).earlier d.maxInterval }
  exact ⟨hinterval, hfire⟩

end Trickle

end EventKernel
