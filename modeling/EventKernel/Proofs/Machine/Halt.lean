import EventKernel.Proofs.Machine.Account

/-!
# Requests to stop do not show

Whether the loop of a simulator was asked to stop is kept in two flags, one of the simulator and one
of its inbox. Only the question whether the simulator is finished reads them. So whatever else is
done with a simulator commutes with putting other flags in place.
-/

namespace EventKernel

variable {K U : Type}

/-! ### Simulators -/

namespace Simulator

/-- The simulator with other flags that say whether its loop was asked to stop. -/
def withStop (own remote : Bool) (s : Simulator K) : Simulator K :=
  { s with stopRequested := own, inbox := { s.inbox with stop := remote } }

variable (x y : Bool) (s : Simulator K)

lemma withStop_withStop (x' y' : Bool) : (s.withStop x y).withStop x' y' = s.withStop x' y' := rfl

lemma withStop_self : s.withStop s.stopRequested s.inbox.stop = s := rfl

lemma withStop_of_not_stopPending {s : Simulator K} (h : s.stopPending = false) :
    s.withStop false false = s := by
  rw [stopPending, Bool.or_eq_false_iff] at h
  have hself := s.withStop_self
  rwa [h.1, h.2] at hself

lemma withStop_scheduleWith (context : ContextId) (delay : Time) (task : Task K) :
    (s.withStop x y).scheduleWith context delay task =
      (s.scheduleWith context delay task).map id (withStop x y) := by
  rw [scheduleWith, scheduleWith]
  show (if s.phase = .destroyed then _ else _) = _
  split
  · rfl
  · split <;> rfl

lemma withStop_schedule (delay : Time) (task : Task K) :
    (s.withStop x y).schedule delay task = (s.schedule delay task).map id (withStop x y) :=
  s.withStop_scheduleWith x y s.context delay task

lemma withStop_scheduleDestroy (task : Task K) :
    (s.withStop x y).scheduleDestroy task = (s.scheduleDestroy task).map id (withStop x y) := by
  rw [scheduleDestroy, scheduleDestroy]
  show (if s.phase = .destroyed then _ else _) = _
  split <;> rfl

lemma withStop_cancel (j : EventId) :
    (s.withStop x y).cancel j = (s.cancel j).map id (withStop x y) := by
  by_cases h : j.isDetached
  · cases j <;> simp only [cancel, h, if_true] <;> rfl
  · cases j <;> simp only [cancel, h, Bool.false_eq_true, if_false] <;> rfl

lemma withStop_remove (j : EventId) :
    (s.withStop x y).remove j = (s.remove j).map id (withStop x y) := by
  by_cases h : j.isDetached
  · cases j <;> simp only [remove, h, if_true] <;> rfl
  · cases j <;> simp only [remove, h, Bool.false_eq_true, if_false] <;> rfl

lemma withStop_insertAll (evs : List (RemoteEvent (Task K))) :
    insertAll evs (s.withStop x y) = (insertAll evs s).withStop x y := by
  induction evs generalizing s with
  | nil => rfl
  | cons ev evs ih => exact ih (s.insert ev.context ev.delay ev.task).2

lemma withStop_drainInbox : (s.withStop x y).drainInbox = s.drainInbox.withStop x y := by
  rw [drainInbox_eq, drainInbox_eq]
  exact withStop_insertAll x y { s with inbox := s.inbox.clear } s.inbox.events.toList

end Simulator

/-! ### Timers -/

section

variable (x y : Bool) (s : Simulator K)

lemma Watchdog.withStop_scheduleExpiry (d : Watchdog K) (w : Nat) (delay : Time) :
    d.scheduleExpiry w delay (s.withStop x y) =
      (d.scheduleExpiry w delay s).map id (.map id (.withStop x y)) := by
  rw [scheduleExpiry, scheduleExpiry, s.withStop_schedule]
  rcases s.schedule delay (.watchdog w) with ⟨_ | _, t⟩ <;> rfl

lemma Watchdog.withStop_ping (d : Watchdog K) (w : Nat) (delay : Time) :
    d.ping w delay (s.withStop x y) = (d.ping w delay s).map id (.map id (.withStop x y)) := by
  rw [ping, ping]
  split
  · rfl
  · dsimp only
    rw [show (s.withStop x y).isExpired d.event = s.isExpired d.event from rfl,
      show (s.withStop x y).delayLeft d.event = s.delayLeft d.event from rfl]
    split
    · rw [arm, arm, withStop_scheduleExpiry]
      rcases scheduleExpiry w delay { d with cancelled := false } s with ⟨_ | _, d', t⟩ <;> rfl
    · split
      · rfl
      · split
        · rw [s.withStop_cancel]
          exact withStop_scheduleExpiry x y (s.cancel d.event).2 _ w delay
        · rfl

lemma Watchdog.withStop_expire (d : Watchdog K) (w : Nat) :
    d.expire w (s.withStop x y) = (d.expire w s).map id (.map id (.withStop x y)) := by
  rw [expire, expire]
  split
  · rfl
  · show (if s.now < d.deadline then _ else _) = _
    split
    · dsimp only
      rw [show (s.withStop x y).now = s.now from rfl, withStop_scheduleExpiry]
      rfl
    · rfl

lemma Trickle.withStop_beginInterval (d : Trickle K) (n : Nat) :
    d.beginInterval n (s.withStop x y) =
      (d.beginInterval n s).map id (.map id (.withStop x y)) := by
  rw [beginInterval, beginInterval]
  dsimp only
  rw [s.withStop_schedule]
  rcases s.schedule d.interval (.trickleInterval n) with ⟨_ | i, t⟩
  · rfl
  · dsimp only [Prod.map, id_eq]
    rw [t.withStop_schedule]
    rcases t.schedule (d.interval.scaleBy d.generator.upperHalf.1) (.trickleFire n) with
      ⟨_ | _, u⟩ <;> rfl

lemma Trickle.withStop_stop (d : Trickle K) :
    d.stop (s.withStop x y) = (d.stop s).withStop x y := by
  rw [stop, s.withStop_cancel, stop]
  show (((s.cancel d.intervalEvent).2.withStop x y).cancel d.fireEvent).2 = _
  rw [Simulator.withStop_cancel]
  rfl

lemma Trickle.withStop_reset (d : Trickle K) (n : Nat) :
    d.reset n (s.withStop x y) = (d.reset n s).map id (.map id (.withStop x y)) := by
  rw [reset, withStop_stop, withStop_beginInterval]
  rfl

end

/-! ### Requests -/

section

variable (x y : Bool) (s : Simulator K)

lemma SimRequest.withStop_apply {r : SimRequest K} (hr : r ≠ .isFinished) :
    ∃ x', r.apply (s.withStop x y) = (r.apply s).map id (.withStop x' y) := by
  cases r with
  | stop => exact ⟨true, rfl⟩
  | isFinished => exact absurd rfl hr
  | schedule delay k => exact ⟨x, s.withStop_schedule x y delay (.user k)⟩
  | scheduleNow k => exact ⟨x, s.withStop_schedule x y .zero (.user k)⟩
  | scheduleWith context delay k => exact ⟨x, s.withStop_scheduleWith x y context delay (.user k)⟩
  | scheduleDestroy k => exact ⟨x, s.withStop_scheduleDestroy x y (.user k)⟩
  | stopAfter delay => exact ⟨x, s.withStop_scheduleWith x y .none delay .stop⟩
  | cancel j => exact ⟨x, s.withStop_cancel x y j⟩
  | remove j => exact ⟨x, s.withStop_remove x y j⟩
  | isExpired | delayLeft | identity | now | context | phase | eventCount | pendingEvents | kind
  | setScheduler | sync | boundLookahead | observe | describe => exact ⟨x, rfl⟩

lemma Inbox.withStop_push {α : Type} (ev : RemoteEvent α) (b : Inbox α) :
    ({ b with stop := y } : Inbox α).push ev =
      (b.push ev).map id fun b => { b with stop := y } := by
  rw [push, push]
  split
  · rfl
  · show (if b.closed then _ else _) = _
    split <;> rfl

lemma InboxRequest.withStop_apply (r : InboxRequest K) (b : Inbox (Task K)) :
    ∃ y', r.apply { b with stop := y } = (r.apply b).map id fun b => { b with stop := y' } := by
  cases r with
  | schedule context delay k => exact ⟨y, Inbox.withStop_push y _ b⟩
  | stop => exact ⟨true, rfl⟩
  | isClosed | describe => exact ⟨y, rfl⟩

lemma Memory.withStop_askInbox (m : Memory K U) (target : Nat) (r : InboxRequest K) :
    ∃ y', m.askInbox target r (s.withStop x y) =
      (m.askInbox target r s).map id (.map (.withStop x y') id) := by
  rw [askInbox, askInbox]
  show ∃ y', (if target = s.identity then _ else _) = _
  split
  · obtain ⟨y', h⟩ := r.withStop_apply y s.inbox
    refine ⟨y', ?_⟩
    rw [show (s.withStop x y).inbox = { s.inbox with stop := y } from rfl, h]
    rfl
  · exact ⟨y, rfl⟩

lemma Memory.askInbox_stop (m : Memory K U) :
    m.askInbox s.identity .stop s = ((), { s with inbox := s.inbox.requestStop }, m) := by
  rw [askInbox]
  exact if_pos rfl

/-- Every request but the question whether the simulator is finished is answered alike, and the
simulators go on to differ in nothing but their requests to stop. -/
lemma Request.withStop_apply {r : Request K U} (hr : r ≠ .sim .isFinished) (m : Memory K U) :
    ∃ x' y', r.apply (s.withStop x y) m =
      (r.apply s m).map id (.map (.withStop x' y') id) := by
  cases r with
  | sim r =>
    obtain ⟨x', h⟩ := SimRequest.withStop_apply x y s fun heq => hr (congrArg Request.sim heq)
    refine ⟨x', y, ?_⟩
    rw [apply, h]
    rfl
  | inbox target r =>
    obtain ⟨y', h⟩ := m.withStop_askInbox x y s target r
    exact ⟨x, y', h⟩
  | watchdog w r =>
    refine ⟨x, y, ?_⟩
    rw [apply, apply]
    cases m.watchdog? w with
    | none => rfl
    | some d =>
      cases r with
      | ping delay =>
        dsimp only [WatchdogRequest.apply]
        rw [d.withStop_ping x y s]
        rfl
      | setFunction | cancel | info => rfl
  | trickle n r =>
    refine ⟨x, y, ?_⟩
    rw [apply, apply]
    cases m.trickle? n with
    | none => rfl
    | some d =>
      cases r with
      | enable =>
        dsimp only [TrickleRequest.apply, Trickle.enable]
        rw [Trickle.withStop_beginInterval x y s]
        rfl
      | reset =>
        dsimp only [TrickleRequest.apply]
        rw [d.withStop_reset x y s]
        rfl
      | inconsistent =>
        dsimp only [TrickleRequest.apply, Trickle.inconsistent]
        split
        · rw [d.withStop_reset x y s]
          rfl
        · rfl
      | stop =>
        dsimp only [TrickleRequest.apply]
        rw [d.withStop_stop x y s]
        rfl
      | setFunction | consistent | info => rfl
  | newWatchdog | dropWatchdog | newTrickle | dropTrickle | load | update => exact ⟨x, y, rfl⟩

/-- A request to stop has no other effect. -/
lemma Request.withStop_of_asksStop {r : Request K U} (hr : r.asksStop s.identity) (m : Memory K U) :
    ∃ answer x' y', r.apply (s.withStop x y) m = (answer, s.withStop x' y', m) := by
  cases r with
  | sim r =>
    cases r with
    | stop => exact ⟨(), true, y, rfl⟩
    | _ => exact hr.elim
  | inbox target r =>
    cases r with
    | stop =>
      obtain rfl : target = s.identity := hr
      exact ⟨(), x, true, Memory.askInbox_stop (s.withStop x y) m⟩
    | _ => exact hr.elim
  | _ => exact hr.elim

end

/-! ### How long a stop is pending -/

section

variable {s : Simulator K}

lemma SimRequest.stopPending_of_pending (r : SimRequest K) (h : s.stopPending = true) :
    (r.apply s).2.stopPending = true := by
  rcases r.effect_apply s with hcourse | ⟨-, stop, sync, observer, rfl | rfl, happly⟩
  · rw [hcourse.stopPending_eq]
    exact h
  · rw [happly]
    exact h
  · rfl

lemma Memory.stopPending_of_pending (m : Memory K U) (target : Nat) (r : InboxRequest K)
    (h : s.stopPending = true) : (m.askInbox target r s).2.1.stopPending = true := by
  rw [askInbox]
  split
  · cases r with
    | schedule context delay k =>
      rw [Simulator.stopPending, InboxRequest.apply, Inbox.stop_push]
      exact h
    | stop => exact Bool.or_true _
    | isClosed | describe => exact h
  · exact h

lemma Request.stopPending_of_pending (r : Request K U) (m : Memory K U)
    (h : s.stopPending = true) : (r.apply s m).2.1.stopPending = true := by
  cases r with
  | sim r => exact r.stopPending_of_pending h
  | inbox target r => exact m.stopPending_of_pending target r h
  | _ => exact (eventCourse_apply _ s m (by simp) (by simp)).stopPending_eq.trans h

end

/-- A request to stop is pending until the loop is left. Until then no event is taken off the queue,
and afterwards nothing is left of the request. -/
lemma Machine.step_of_stopPending (code : Code K U) {a : Machine K U}
    (h : a.sim.stopPending = true) :
    a.taken? = none ∧ ((step code a).sim.stopPending = true ∨
      ∃ rest, a.stack = .next :: rest ∧ (step code a).stack = rest ∧
        (step code a).sim.stopPending = false ∧ (step code a).sim.phase = .stopped) := by
  obtain ⟨s, m, stack, broken⟩ := a
  cases stack with
  | nil => exact ⟨rfl, Or.inl h⟩
  | cons f rest =>
    rw [step]
    cases f with
    | next =>
      refine ⟨if_pos h, Or.inr ⟨rest, rfl, ?_⟩⟩
      rw [stepFrame, takeNext, if_pos h]
      exact ⟨rfl, rfl, rfl⟩
    | exec p =>
      refine ⟨rfl, Or.inl ?_⟩
      cases p with
      | done | perform => exact h
      | ask r next => exact r.stopPending_of_pending m h
      | run next =>
        rw [stepFrame, exec]
        split <;> exact h
      | destroy next =>
        rw [stepFrame, exec]
        split <;> exact h
    | task t =>
      refine ⟨rfl, Or.inl ?_⟩
      cases t with
      | stop => rfl
      | user | watchdog | trickleInterval | trickleFire =>
        exact (eventCourse_start code _ s m rest (by simp)).stopPending_eq.trans h
    | loop => exact ⟨rfl, Or.inl (s.stopPending_drainInbox.trans h)⟩
    | teardown =>
      refine ⟨rfl, Or.inl ?_⟩
      simp only [stepFrame, nextTeardown]
      split <;> exact h
    | restore | rearmWatchdog | rearmTrickle | close | clear => exact ⟨rfl, Or.inl h⟩

end EventKernel
