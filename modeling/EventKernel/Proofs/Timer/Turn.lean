import EventKernel.Proofs.Simulator.Turn
import EventKernel.Timer.Trickle
import EventKernel.Timer.Watchdog

/-!
# What timers do to a simulator

Every operation of a timer is a course of elementary changes. A watchdog issues and cancels its
expiry, a trickle timer the end of its interval and the firing point.
-/

namespace EventKernel

open Simulator (EventCourse issueTurns)

variable {K : Type}

/-! ### Watchdogs -/

namespace Watchdog

def pingTurns (self : Nat) (delay : Time) (w : Watchdog K) (s : Simulator K) : List (Turn K) :=
  if delay.isNegative then []
  else if s.isExpired w.event then issueTurns (s.schedule delay (.watchdog self))
  else if s.delayLeft w.event < delay then []
  else if delay < s.delayLeft w.event then
    s.cancelTurns w.event ++ issueTurns ((s.cancel w.event).2.schedule delay (.watchdog self))
  else []

def expireTurns (self : Nat) (w : Watchdog K) (s : Simulator K) : List (Turn K) :=
  if w.cancelled then []
  else if s.now < w.deadline then
    issueTurns (s.schedule (w.deadline - s.now) (.watchdog self))
  else []

lemma course_scheduleExpiry (self : Nat) (delay : Time) (w : Watchdog K) (s : Simulator K) :
    EventCourse s (issueTurns (s.schedule delay (.watchdog self)))
      (w.scheduleExpiry self delay s).2.2 := by
  have h := s.course_schedule delay (.watchdog self)
  rw [scheduleExpiry]
  split
  · next hs => rwa [hs] at h ⊢
  · next hs => rwa [hs] at h ⊢

lemma course_arm (self : Nat) (delay : Time) (w : Watchdog K) (s : Simulator K) :
    EventCourse s (issueTurns (s.schedule delay (.watchdog self))) (w.arm self delay s).2.2 := by
  have h := course_scheduleExpiry self delay w s
  rw [arm]
  split
  · next hs => rwa [hs] at h
  · next hs => rwa [hs] at h

lemma course_ping (self : Nat) (delay : Time) (w : Watchdog K) (s : Simulator K) :
    EventCourse s (w.pingTurns self delay s) (w.ping self delay s).2.2 := by
  rw [ping, pingTurns]
  split
  · exact .refl s
  · dsimp only
    split
    · exact course_arm self delay _ s
    · split
      · exact .refl s
      · split
        · exact (s.course_cancel w.event).trans (course_scheduleExpiry self delay _ _)
        · exact .refl s

lemma course_expire (self : Nat) (w : Watchdog K) (s : Simulator K) :
    EventCourse s (w.expireTurns self s) (w.expire self s).2.2 := by
  rw [expire, expireTurns]
  split
  · exact .refl s
  · split
    · exact course_scheduleExpiry self _ w s
    · exact .refl s

end Watchdog

/-! ### Trickle timers -/

namespace Trickle

def beginTurns (self : Nat) (t : Trickle K) (s : Simulator K) : List (Turn K) :=
  issueTurns (s.schedule t.interval (.trickleInterval self)) ++
    match s.schedule t.interval (.trickleInterval self) with
    | (.error _, _) => []
    | (.ok _, s) =>
      issueTurns (s.schedule (t.interval.scaleBy t.generator.upperHalf.1) (.trickleFire self))

/-- The timer with its first interval drawn. -/
def drawn (t : Trickle K) : Trickle K :=
  let (whole, generator) := t.generator.below 1 t.multiples
  let (factor, generator) :=
    if whole < t.multiples then
      let (x, generator) := generator.fraction
      ((Binary64.ofInt whole).add x, generator)
    else (Binary64.ofInt whole, generator)
  { t with generator := generator, interval := t.minInterval.scaleBy factor }

lemma enable_eq (self : Nat) (t : Trickle K) (s : Simulator K) :
    t.enable self s = t.drawn.beginInterval self s := rfl

def stopTurns (t : Trickle K) (s : Simulator K) : List (Turn K) :=
  s.cancelTurns t.intervalEvent ++ (s.cancel t.intervalEvent).2.cancelTurns t.fireEvent

def resetTurns (self : Nat) (t : Trickle K) (s : Simulator K) : List (Turn K) :=
  t.stopTurns s ++ beginTurns self { t with interval := t.minInterval } (t.stop s)

def inconsistentTurns (self : Nat) (t : Trickle K) (s : Simulator K) : List (Turn K) :=
  if t.minInterval < t.interval then t.resetTurns self s else []

def endTurns (self : Nat) (t : Trickle K) (s : Simulator K) : List (Turn K) :=
  beginTurns self { t with interval := (t.interval.scale 2).earlier t.maxInterval } s

lemma course_beginInterval (self : Nat) (t : Trickle K) (s : Simulator K) :
    EventCourse s (t.beginTurns self s) (t.beginInterval self s).2.2 := by
  rw [beginInterval, beginTurns]
  dsimp only
  have h := s.course_schedule t.interval (.trickleInterval self)
  generalize s.schedule t.interval (.trickleInterval self) = first at h ⊢
  obtain ⟨e | id, s'⟩ := first
  · exact h
  · dsimp only
    have h' := s'.course_schedule (t.interval.scaleBy t.generator.upperHalf.1) (.trickleFire self)
    generalize s'.schedule (t.interval.scaleBy t.generator.upperHalf.1) (.trickleFire self) =
      second at h' ⊢
    obtain ⟨e | id', s''⟩ := second
    · exact h.trans h'
    · exact h.trans h'

lemma course_enable (self : Nat) (t : Trickle K) (s : Simulator K) :
    EventCourse s (t.drawn.beginTurns self s) (t.enable self s).2.2 := by
  rw [enable_eq]
  exact course_beginInterval self t.drawn s

lemma course_stop (t : Trickle K) (s : Simulator K) : EventCourse s (t.stopTurns s) (t.stop s) :=
  (s.course_cancel t.intervalEvent).trans (Simulator.course_cancel t.fireEvent _)

lemma course_reset (self : Nat) (t : Trickle K) (s : Simulator K) :
    EventCourse s (t.resetTurns self s) (t.reset self s).2.2 :=
  (course_stop t s).trans (course_beginInterval self _ _)

lemma course_inconsistent (self : Nat) (t : Trickle K) (s : Simulator K) :
    EventCourse s (t.inconsistentTurns self s) (t.inconsistent self s).2.2 := by
  rw [inconsistent, inconsistentTurns]
  split
  · exact course_reset self t s
  · exact .refl s

lemma course_endInterval (self : Nat) (t : Trickle K) (s : Simulator K) :
    EventCourse s (t.endTurns self s) (t.endInterval self s).2 := by
  rw [endInterval, endTurns]
  exact course_beginInterval self _ s

end Trickle

end EventKernel
