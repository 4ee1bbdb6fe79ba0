import EventKernel.Proofs.Simulator.Owner
import EventKernel.Proofs.Timer.Interval

/-!
# Calls that schedule events

A request can schedule an event for its caller, and timers schedule events for themselves: a watchdog
its expiry, a trickle timer the end of an interval and the firing point in it. Each of these is one
call within a course of changes, and from then on its handle can only name the event that was
scheduled, which is due when the delay is over.
-/

namespace EventKernel

open Simulator (EventCourse Passage)

variable {K : Type} {s t u : Simulator K} {turns : List (Turn K)} {id : EventId}
  {delay due : Time} {task : Task K}

/-! ### What a handle names -/

namespace Simulator

/-- Whether a handle can only name an event with a certain task that is due at a certain time. -/
def Books (s : Simulator K) (id : EventId) (due : Time) (task : Task K) : Prop :=
  id.sequence < s.sequences.next ∧ ∀ ev, s.find? id = some ev → ev.key.time = due ∧ ev.task = task

lemma Books.passage (h : s.Books id due task) (hp : Passage s turns t) : t.Books id due task := by
  refine ⟨Nat.lt_of_lt_of_le h.1 hp.next_le, ?_⟩
  intro ev hev
  obtain ⟨old, hold, hkey, htask, -⟩ := hp.held_of_lt hev h.1
  rw [← hkey, ← htask]
  exact h.2 old hold

/-- On the way from `s` to `t` there is a call that schedules a task and gives a handle out. -/
inductive Scheduled (s t : Simulator K) (delay : Time) (task : Task K) (id : EventId) : Prop where
  | call {context : ContextId} {turns more : List (Turn K)} {u : Simulator K}
      (hbefore : EventCourse s turns u) (hok : (u.scheduleWith context delay task).1 = .ok id)
      (hbehind : EventCourse (u.scheduleWith context delay task).2 more t) :
      Scheduled s t delay task id

/-- A call with a negative delay gives no handle out. -/
lemma isNegative_of_ok {context : ContextId}
    (h : (s.scheduleWith context delay task).1 = .ok id) : delay.isNegative = false := by
  rw [scheduleWith] at h
  split at h
  · cases h
  · split at h
    · cases h
    · next hdelay => exact Bool.eq_false_iff.mpr hdelay

lemma Scheduled.behind (h : u.Scheduled t delay task id) (hcourse : EventCourse s turns u) :
    s.Scheduled t delay task id := by
  obtain ⟨hbefore, hok, hbehind⟩ := h
  exact .call (hcourse.trans hbefore) hok hbehind

lemma Scheduled.before (h : s.Scheduled u delay task id) (hcourse : EventCourse u turns t) :
    s.Scheduled t delay task id := by
  obtain ⟨hbefore, hok, hbehind⟩ := h
  exact .call hbefore hok (hbehind.trans hcourse)

/-- A call that is all there is on the way. -/
lemma Scheduled.of_ok (h : (s.schedule delay task).1 = .ok id) :
    s.Scheduled (s.schedule delay task).2 delay task id :=
  .call (.refl s) h (.refl _)

/-- A call books the event for the end of the delay. -/
lemma Sound.books_of_scheduled (h : s.Sound) (hcall : s.Scheduled t delay task id) :
    delay.isNegative = false ∧ t.Books id (s.now + delay) task := by
  obtain @⟨context, turns, more, u, hbefore, hok, hbehind⟩ := hcall
  have hu : u.Sound := (h.passage hbefore.course).sound
  have hnow : u.now = s.now := hbefore.course.unchanged.2.1
  have hcourse := (u.course_scheduleWith context delay task).course
  have hbehind := (hu.passage hcourse).sound.passage hbehind.course
  rcases hu.scheduleWith_cases context delay task with
    ⟨e, he, -⟩ | ⟨j, v, hv, hseq, hdelay, -, hfind, hnext⟩
  · rw [he] at hok
    cases hok
  · rw [hv] at hok hbehind
    obtain rfl : j = id := Except.ok.inj hok
    refine ⟨hdelay, Books.passage ⟨?_, ?_⟩ hbehind⟩
    · rw [hseq, hnext]
      exact Nat.lt_succ_self _
    · intro ev hev
      rw [hfind] at hev
      cases hev
      exact ⟨congrArg (· + delay) hnow, rfl⟩

end Simulator

/-! ### Watchdogs -/

namespace Watchdog

variable {w : Watchdog K} {self : Nat}

lemma scheduleExpiry_sim (self : Nat) (delay : Time) (w : Watchdog K) (s : Simulator K) :
    (w.scheduleExpiry self delay s).2.2 = (s.schedule delay (.watchdog self)).2 := by
  rw [scheduleExpiry]
  split
  · next hs => rw [hs]
  · next hs => rw [hs]

lemma arm_sim (self : Nat) (delay : Time) (w : Watchdog K) (s : Simulator K) :
    (w.arm self delay s).2.2 = (s.schedule delay (.watchdog self)).2 := by
  rw [arm, ← w.scheduleExpiry_sim self delay s]
  split
  · next hs => rw [hs]
  · next hs => rw [hs]

/-- A ping schedules an expiry in a simulator if none is pending, or if the pending one comes too
late, which is cancelled. -/
inductive PingArms (delay : Time) (w : Watchdog K) (s : Simulator K) : Simulator K → Prop where
  | first (hexpired : s.isExpired w.event = true) : PingArms delay w s s
  | earlier (hpending : s.isExpired w.event = false) (hlate : delay < s.delayLeft w.event) :
      PingArms delay w s (s.cancel w.event).2

lemma PingArms.scheduled (h : w.PingArms delay s u)
    (hok : (u.schedule delay (.watchdog self)).1 = .ok id) :
    s.Scheduled (w.ping self delay s).2.2 delay (.watchdog self) id := by
  have hcall := Simulator.Scheduled.of_ok hok
  rw [ping, if_neg (Bool.eq_false_iff.mp (Simulator.isNegative_of_ok hok))]
  cases h with
  | first hexpired =>
    dsimp only
    rw [if_pos hexpired, arm_sim]
    exact hcall
  | earlier hpending hlate =>
    have hnot : ¬s.delayLeft w.event < delay := Int.not_lt.mpr (Int.le_of_lt hlate)
    dsimp only
    rw [if_neg (Bool.eq_false_iff.mp hpending), if_neg hnot, if_pos hlate, scheduleExpiry_sim]
    exact hcall.behind (s.course_cancel w.event)

/-- An expiry whose deadline was moved schedules itself again for the rest. -/
lemma scheduled_expire (hlive : w.cancelled = false) (hmoved : s.now < w.deadline)
    (hok : (s.schedule (w.deadline - s.now) (.watchdog self)).1 = .ok id) :
    s.Scheduled (w.expire self s).2.2 (w.deadline - s.now) (.watchdog self) id := by
  rw [expire, if_neg (Bool.eq_false_iff.mp hlive), if_pos hmoved]
  dsimp only
  rw [scheduleExpiry_sim]
  exact .of_ok hok

end Watchdog

/-! ### Trickle timers -/

namespace Trickle

variable {d : Trickle K} {n : Nat}

/-- What a timer schedules when its interval begins. -/
inductive Schedules (n : Nat) (d : Trickle K) (s : Simulator K) :
    Time → Task K → EventId → Prop where
  | interval {id : EventId} (hok : (s.schedule d.interval (.trickleInterval n)).1 = .ok id) :
      Schedules n d s d.interval (.trickleInterval n) id
  | fire {id first : EventId} {u : Simulator K}
      (hfirst : s.schedule d.interval (.trickleInterval n) = (.ok first, u))
      (hok : (u.schedule d.offset (.trickleFire n)).1 = .ok id) :
      Schedules n d s d.offset (.trickleFire n) id

/-- The firing point is scheduled unless the end of the interval was refused. -/
lemma beginInterval_sim (n : Nat) (d : Trickle K) (s : Simulator K) :
    (d.beginInterval n s).2.2 =
      match s.schedule d.interval (.trickleInterval n) with
      | (.error _, u) => u
      | (.ok _, u) => (u.schedule d.offset (.trickleFire n)).2 := by
  rw [beginInterval, offset]
  dsimp only
  generalize s.schedule d.interval (.trickleInterval n) = first
  obtain ⟨_ | _, u⟩ := first
  · rfl
  · dsimp only
    split
    · next hs => rw [hs]
    · next hs => rw [hs]

lemma Schedules.scheduled (h : d.Schedules n s delay task id) :
    s.Scheduled (d.beginInterval n s).2.2 delay task id := by
  rw [beginInterval_sim]
  cases h with
  | interval hok =>
    have hcall := Simulator.Scheduled.of_ok hok
    generalize s.schedule d.interval (.trickleInterval n) = first at hcall ⊢
    obtain ⟨_ | _, u⟩ := first
    · exact hcall
    · exact hcall.before (u.course_schedule d.offset (.trickleFire n))
  | fire hfirst hok =>
    have hcourse := s.course_schedule d.interval (.trickleInterval n)
    rw [hfirst] at hcourse ⊢
    exact (Simulator.Scheduled.of_ok hok).behind hcourse

end Trickle

end EventKernel
