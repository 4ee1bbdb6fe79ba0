import EventKernel.Proofs.Simulator.Owner
import EventKernel.Proofs.Timer.Turn

/-!
# Watchdogs and their expiry

A watchdog names its own expiry and nothing else. At most one expiry of it is pending, the one it
names, and it is due no later than the deadline. So a ping that finds an expiry pending can leave it
in the queue and only record a later deadline, and the expiry that finds the deadline moved back is
scheduled again.
-/

namespace EventKernel

open Simulator (Passage)

variable {K : Type} {s t : Simulator K} {turns : List (Turn K)}

lemma Time.le_later_left (t u : Time) : t ≤ t.later u := by
  rw [later]
  split
  · next h => exact h
  · exact Int.le_refl _

lemma Time.le_later_right (t u : Time) : u ≤ t.later u := by
  rw [later]
  split
  · exact Int.le_refl _
  · next h => exact Int.le_of_lt (Int.not_le.mp h)

namespace Watchdog

variable {w : Nat} {d : Watchdog K}

/-- The watchdog names no event of others, and its only pending expiry is the one it names, which is
due no later than its deadline. -/
structure Kept (w : Nat) (d : Watchdog K) (s : Simulator K) : Prop where
  owns : s.Owns d.event (.watchdog w)
  expiry : ∀ id ev, s.find? id = some ev → ev.task = .watchdog w → ev.cancelled = false →
    id = d.event ∧ ev.key.time ≤ d.deadline

/-- Whether no expiry of a watchdog is pending. -/
def Resting (w : Nat) (s : Simulator K) : Prop :=
  ∀ id ev, s.find? id = some ev → ev.task = .watchdog w → ev.cancelled = true

lemma Resting.passage (h : Resting w s) (hp : Passage s turns t)
    (hturns : ∀ x ∈ turns, x.fate = .issued → x.event.task ≠ .watchdog w) : Resting w t := by
  intro id ev hev htask
  rcases hp.held id ev hev with ⟨old, hold, hsame, hlive⟩ | ⟨-, x, hx, -, hfate, hsame⟩
  · by_contra hnot
    have hold := h id old hold ((Event.of_unmarked_eq hsame).2.trans htask)
    rw [hlive (Bool.not_eq_true _ ▸ hnot)] at hold
    cases hold
  · exact absurd ((congrArg Event.task hsame).trans htask) (hturns x hx hfate)

lemma Kept.passage (h : d.Kept w s) (hp : Passage s turns t)
    (hturns : ∀ x ∈ turns, x.fate = .issued → x.event.task ≠ .watchdog w) : d.Kept w t where
  owns := h.owns.passage hp
  expiry := by
    intro id ev hev htask hpending
    rcases hp.held id ev hev with ⟨old, hold, hsame, hlive⟩ | ⟨-, x, hx, -, hfate, hsame⟩
    · obtain ⟨hkey, hsame⟩ := Event.of_unmarked_eq hsame
      rw [← hkey]
      exact h.expiry id old hold (hsame.trans htask) (hlive hpending)
    · exact absurd ((congrArg Event.task hsame).trans htask) (hturns x hx hfate)

/-- Only the handle and the deadline matter, and the deadline may move back. -/
lemma Kept.congr {d' : Watchdog K} (h : d.Kept w s) (hevent : d'.event = d.event)
    (hdeadline : d.deadline ≤ d'.deadline) : d'.Kept w s where
  owns := by
    rw [hevent]
    exact h.owns
  expiry := by
    intro id ev hev htask hpending
    obtain ⟨hid, hle⟩ := h.expiry id ev hev htask hpending
    exact ⟨hid.trans hevent.symm, Int.le_trans hle hdeadline⟩

lemma Kept.of_resting {d' : Watchdog K} (h : d.Kept w s) (hresting : Resting w s)
    (hevent : d'.event = d.event) : d'.Kept w s where
  owns := by
    rw [hevent]
    exact h.owns
  expiry := by
    intro id ev hev htask hpending
    rw [hresting id ev hev htask] at hpending
    cases hpending

/-- A watchdog rests if the event that it names is not pending. -/
lemma Kept.resting (h : d.Kept w s) (hs : s.Sound) (hexpired : s.isExpired d.event = true) :
    Resting w s := by
  rw [hs.isExpired_eq, Bool.not_eq_true'] at hexpired
  intro id ev hev htask
  by_contra hnot
  obtain ⟨rfl, -⟩ := h.expiry id ev hev htask (Bool.not_eq_true _ ▸ hnot)
  rw [hev, Option.any_some, Bool.not_eq_false'] at hexpired
  exact hnot hexpired

/-- When the expiry of a watchdog is taken off the queue, no other one is pending, and the deadline
has not passed. -/
lemma Kept.take (h : d.Kept w s) (hs : s.Sound) {id : EventId} {ev : Event (Task K)}
    {q : Scheduler (Task K)} (hnext : s.scheduler.removeNext = (some (id, ev), q))
    (htask : ev.task = .watchdog w) (hlive : ev.cancelled = false) :
    Resting w { s with scheduler := q, now := ev.key.time } ∧ ev.key.time ≤ d.deadline := by
  obtain ⟨hfind, hrest⟩ := hs.find?_take hnext ev.key.time
  obtain ⟨hid, hle⟩ := h.expiry id ev hfind htask hlive
  refine ⟨?_, hle⟩
  intro id' ev' hev' htask'
  by_contra hnot
  rw [hrest] at hev'
  split at hev'
  · cases hev'
  · next hne =>
    obtain ⟨heq, -⟩ := h.expiry id' ev' hev' htask' (Bool.not_eq_true _ ▸ hnot)
    exact hne (heq.trans hid.symm)

/-- A resting watchdog schedules its expiry. -/
lemma scheduleExpiry_cases (d : Watchdog K) (hs : s.Sound) (hresting : Resting w s)
    (delay : Time) :
    (∃ e, d.scheduleExpiry w delay s = (.error e, d, s) ∧
      (s.phase = .destroyed ∨ delay.isNegative = true)) ∨
      ∃ id t, d.scheduleExpiry w delay s = (.ok (), { d with event := id }, t) ∧
        s.schedule delay (.watchdog w) = (.ok id, t) ∧
        delay.isNegative = false ∧ t.isExpired id = false ∧
        ∀ d' : Watchdog K, d'.event = id → s.now + delay ≤ d'.deadline → d'.Kept w t := by
  rcases hs.scheduleWith_cases s.context delay (.watchdog w) with
    ⟨e, he, hrefused⟩ | ⟨id, t, ht, hseq, hdelay, hturns, hfind, hnext⟩
  · refine Or.inl ⟨e, ?_, hrefused⟩
    rw [scheduleExpiry, Simulator.schedule, he]
  · have hcourse := s.course_schedule delay (.watchdog w)
    rw [Simulator.schedule, ht, hturns] at hcourse
    have hp := hs.passage hcourse.course
    refine Or.inr ⟨id, t, ?_, ht, hdelay, ?_, ?_⟩
    · rw [scheduleExpiry, Simulator.schedule, ht]
    · rw [hp.sound.isExpired_eq, hfind]
      rfl
    · rintro d' rfl hdeadline
      refine ⟨.of_find? (by omega) hfind, ?_⟩
      intro j ev hev htask hpending
      rcases hp.held j ev hev with ⟨old, hold, hsame, hlive⟩ | ⟨-, x, hx, hid, -, hsame⟩
      · have hcancelled := hresting j old hold ((Event.of_unmarked_eq hsame).2.trans htask)
        rw [hlive hpending] at hcancelled
        cases hcancelled
      · rw [List.mem_singleton.mp hx] at hid hsame
        have hkey := congrArg Event.key hsame
        dsimp only at hid hkey
        refine ⟨hid.symm, ?_⟩
        show ev.unmarked.key.time ≤ d'.deadline
        rw [← hkey]
        exact hdeadline

/-- The deadline that a ping leaves behind: `delay` from now, unless the expiry that is pending is
due no later than that. In this case the deadline is not moved forward. -/
def pingedDeadline (delay : Time) (d : Watchdog K) (s : Simulator K) : Time :=
  if s.isExpired d.event = false ∧ s.delayLeft d.event ≤ delay then d.deadline.later (s.now + delay)
  else s.now + delay

/-- Cancelling the pending expiry of a watchdog leaves none. -/
lemma Kept.resting_cancel (h : d.Kept w s) (hs : s.Sound) : Resting w (s.cancel d.event).2 := by
  intro id ev hev htask
  rw [(hs.find?_cancel d.event).2.2 id] at hev
  split at hev
  · obtain ⟨old, -, rfl⟩ := Option.map_eq_some_iff.mp hev
    rfl
  · next hne =>
    by_contra hnot
    exact hne (h.expiry id ev hev htask (Bool.not_eq_true _ ▸ hnot)).1

/-- Every ping keeps the watchdog in order. One that succeeds leaves it with a pending expiry. -/
lemma Kept.ping (h : d.Kept w s) (hs : s.Sound) (hnow : 0 ≤ s.now.ticks)
    (hle : ∀ id ev, s.find? id = some ev → s.now ≤ ev.key.time) (delay : Time) :
    (d.ping w delay s).2.1.Kept w (d.ping w delay s).2.2 ∧
      (d.ping w delay s).2.1.function = d.function ∧
      ((d.ping w delay s).1 = .ok () →
        (d.ping w delay s).2.1.cancelled = false ∧
        (d.ping w delay s).2.2.isExpired (d.ping w delay s).2.1.event = false ∧
        (d.ping w delay s).2.1.deadline = d.pingedDeadline delay s ∧
        s.now + delay ≤ (d.ping w delay s).2.1.deadline) := by
  rw [Watchdog.ping, pingedDeadline]
  split
  · exact ⟨h, rfl, fun hok => by cases hok⟩
  · next hdelay =>
    have hlive : ({ d with cancelled := false } : Watchdog K).Kept w s :=
      h.congr rfl (Int.le_refl _)
    dsimp only
    split
    · next hexpired =>
      have hresting := h.resting hs hexpired
      rw [arm, if_neg (fun hand => by rw [hexpired] at hand; cases hand.1)]
      rcases scheduleExpiry_cases { d with cancelled := false } hs hresting delay with
        ⟨e, he, -⟩ | ⟨id, t, ht, -, -, hpending, hkept⟩
      · rw [he]
        exact ⟨hlive, rfl, fun hok => by cases hok⟩
      · rw [ht]
        exact ⟨hkept _ rfl (Int.le_refl _), rfl, fun _ => ⟨rfl, hpending, rfl, Int.le_refl _⟩⟩
    · next hpending =>
      rw [Bool.not_eq_true] at hpending
      obtain ⟨ev, hev, hcancelled, hleft⟩ := hs.delayLeft_of_pending hpending
      have hdue := (h.expiry _ ev hev (h.owns.2 ev hev) hcancelled).2
      have hafter := hle _ ev hev
      have hfits : (ev.key.time - s.now).ticks = ev.key.time.ticks - s.now.ticks := by
        have hhigh := ev.key.time.ticks_lt
        rw [Time.le_iff] at hafter
        rw [Time.ticks_sub, Time.ticks_clamp]
        omega
      split
      · next hmore =>
        rw [if_pos ⟨hpending, Int.le_of_lt hmore⟩]
        refine ⟨hlive.congr rfl (Time.le_later_left ..), rfl, fun _ => ?_⟩
        exact ⟨rfl, hpending, rfl, Time.le_later_right ..⟩
      · next hmore =>
        split
        · next hless =>
          have hcourse := (s.course_cancel d.event).course
          have hp := hs.passage hcourse
          have hresting := h.resting_cancel hs
          have hnow' : (s.cancel d.event).2.now = s.now := hcourse.unchanged.2.1
          rw [if_neg (fun hand => Int.not_lt.mpr hand.2 hless)]
          rcases scheduleExpiry_cases { d with cancelled := false, deadline := s.now + delay }
            hp.sound hresting delay with ⟨e, he, -⟩ | ⟨id, t, ht, -, -, hpending', hkept⟩
          · rw [he]
            have hcancel := h.passage hp fun x hx hissued =>
              (Simulator.confined_cancelTurns (P := (· ≠ .watchdog w)) d.event s).of_issued hx hissued
            exact ⟨hcancel.of_resting hresting rfl, rfl, fun hok => by cases hok⟩
          · rw [ht]
            refine ⟨hkept _ rfl ?_, rfl, fun _ => ⟨rfl, hpending', rfl, Int.le_refl _⟩⟩
            rw [hnow']
            exact Int.le_refl _
        · next hless =>
          have heq : s.delayLeft d.event = delay :=
            Time.ext (Int.le_antisymm (Int.not_lt.mp hless) (Int.not_lt.mp hmore))
          have hsum : s.now + delay = ev.key.time := by
            rw [← heq, hleft]
            have hhigh := ev.key.time.ticks_lt
            have hlow := ev.key.time.le_ticks
            ext
            rw [Time.ticks_add, hfits, Time.ticks_clamp]
            omega
          rw [if_pos ⟨hpending, Int.le_of_eq (congrArg Time.ticks heq)⟩, hsum]
          refine ⟨hlive, rfl, fun _ => ⟨rfl, hpending, ?_, hdue⟩⟩
          rw [Time.later]
          split
          · next hboth => exact Time.ext (Int.le_antisymm hboth hdue)
          · rfl

/-- A ping that fails on a simulator that is not torn down leaves the watchdog as it was. -/
lemma ping_of_error (hs : s.Sound) (halive : s.phase ≠ .destroyed) {delay : Time} {e : SimError}
    (herror : (d.ping w delay s).1 = .error e) : (d.ping w delay s).2.1 = d := by
  have hschedule : ∀ {t : Simulator K} (d' : Watchdog K), t.Sound → t.phase = s.phase →
      delay.isNegative = false → (d'.scheduleExpiry w delay t).1 ≠ .error e := by
    intro t d' ht hphase hdelay
    rw [scheduleExpiry, Simulator.schedule]
    rcases ht.scheduleWith_cases t.context delay (.watchdog w) with
      ⟨_, he, hrefused | hrefused⟩ | ⟨id, t', he, -⟩
    · exact absurd (hphase.symm.trans hrefused) halive
    · rw [hdelay] at hrefused
      cases hrefused
    · rw [he]
      exact fun hok => by cases hok
  rw [Watchdog.ping] at herror ⊢
  split at herror
  · next hdelay => rw [if_pos hdelay]
  · next hdelay =>
    rw [Bool.not_eq_true] at hdelay
    dsimp only at herror
    split at herror
    · have hne := hschedule { d with cancelled := false } hs rfl hdelay
      rw [arm] at herror
      generalize ({ d with cancelled := false } : Watchdog K).scheduleExpiry w delay s = r
        at hne herror
      obtain ⟨_ | _, d', t⟩ := r
      · exact absurd herror hne
      · cases herror
    · split at herror
      · cases herror
      · split at herror
        · have hcourse := s.course_cancel d.event
          have hphase : (s.cancel d.event).2.phase = s.phase := by
            rw [hcourse.unchanged]
          exact absurd herror (hschedule _ (hs.passage hcourse.course).sound hphase hdelay)
        · cases herror

/-- What happens when the expiry of a watchdog is handled, which is not after its deadline: nothing
if the watchdog was cancelled, a new expiry if the deadline has been moved back, or else the
function is taken out, and this is at the deadline. -/
lemma expire_cases (d : Watchdog K) (hs : s.Sound) (hresting : Resting w s)
    (hnow : 0 ≤ s.now.ticks) (hdue : s.now ≤ d.deadline) (halive : s.phase ≠ .destroyed) :
    d.cancelled = true ∧ d.expire w s = (none, d, s) ∨
      d.cancelled = false ∧ (∃ id t, d.expire w s = (none, { d with event := id }, t) ∧
        t.isExpired id = false ∧ ({ d with event := id } : Watchdog K).Kept w t) ∨
      d.cancelled = false ∧ s.now = d.deadline ∧
        d.expire w s = (d.function, { d with function := none }, s) := by
  rw [Watchdog.expire]
  split
  · next hcancelled => exact Or.inl ⟨hcancelled, rfl⟩
  · next hcancelled =>
    rw [Bool.not_eq_true] at hcancelled
    split
    · next hmoved =>
      have hfits : (d.deadline - s.now).ticks = d.deadline.ticks - s.now.ticks := by
        have hhigh := d.deadline.ticks_lt
        rw [Time.lt_iff] at hmoved
        rw [Time.ticks_sub, Time.ticks_clamp]
        omega
      refine Or.inr (Or.inl ⟨hcancelled, ?_⟩)
      rcases scheduleExpiry_cases d hs hresting (d.deadline - s.now) with
        ⟨e, -, hphase | hdelay⟩ | ⟨id, t, ht, -, -, hpending, hkept⟩
      · exact absurd hphase halive
      · rw [Time.lt_iff] at hmoved
        rw [Time.isNegative, hfits, decide_eq_true_iff] at hdelay
        omega
      · rw [ht]
        refine ⟨id, t, rfl, hpending, hkept _ rfl ?_⟩
        have hhigh := d.deadline.ticks_lt
        have hlow := d.deadline.le_ticks
        show (s.now + (d.deadline - s.now)).ticks ≤ d.deadline.ticks
        rw [Time.ticks_add, hfits, Time.ticks_clamp]
        omega
    · next hmoved =>
      exact Or.inr (Or.inr ⟨hcancelled, Time.ext (Int.le_antisymm hdue (Int.not_lt.mp hmoved)), rfl⟩)

lemma function_expire (d : Watchdog K) (w : Nat) (s : Simulator K)
    (h : (d.expire w s).1 = none) : (d.expire w s).2.1.function = d.function := by
  rw [Watchdog.expire] at h ⊢
  split
  · rfl
  · split
    · show (d.scheduleExpiry w (d.deadline - s.now) s).2.1.function = d.function
      rw [scheduleExpiry]
      split <;> rfl
    · next hcancelled hmoved =>
      rw [if_neg hcancelled, if_neg hmoved] at h
      exact h.symm

lemma confined_pingTurns (hs : s.Sound) (w : Nat) (delay : Time) (d : Watchdog K) :
    Confined (· = .watchdog w) (· = d.event) (d.pingTurns w delay s) := by
  rw [pingTurns]
  split
  · exact confined_nil
  · split
    · exact hs.confined_scheduleWith _ _ _
    · split
      · exact confined_nil
      · split
        · have hp := hs.passage (s.course_cancel d.event).course
          exact (Simulator.confined_cancelTurns d.event s).append
            (hp.sound.confined_scheduleWith _ _ _)
        · exact confined_nil

lemma confined_expireTurns (hs : s.Sound) (w : Nat) (d : Watchdog K) :
    Confined (· = .watchdog w) (· = d.event) (d.expireTurns w s) := by
  rw [expireTurns]
  split
  · exact confined_nil
  · split
    · exact hs.confined_scheduleWith _ _ _
    · exact confined_nil

end Watchdog

end EventKernel
