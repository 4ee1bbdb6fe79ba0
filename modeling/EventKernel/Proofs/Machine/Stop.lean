import EventKernel.Proofs.Machine.Clock

/-!
# Requests to stop

A stop is pending only after somebody has asked for it: a callback of its simulator, another thread
or simulator through the inbox, an event that was scheduled to stop the loop, or the observer.
-/

namespace EventKernel

open Simulator (EventCourse Timely)

variable {K U : Type} {s t : Simulator K} {keys : List EventKey} {turns : List (Turn K)}

lemma Simulator.EventCourse.stopPending_eq (h : EventCourse s turns t) :
    t.stopPending = s.stopPending := by
  rw [h.unchanged]
  rfl

lemma Inbox.stop_push {α : Type} (ev : RemoteEvent α) (b : Inbox α) :
    (b.push ev).2.stop = b.stop := by
  rw [push]
  split
  · rfl
  · split <;> rfl

lemma Simulator.stopPending_drainInbox (s : Simulator K) :
    s.drainInbox.stopPending = s.stopPending := by
  rw [stopPending, s.inbox_drainInbox.1, s.inbox_drainInbox.2]
  rfl

/-! ### Requests -/

lemma SimRequest.stopPending_apply (r : SimRequest K) (s : Simulator K)
    (h : (r.apply s).2.stopPending = true) : s.stopPending = true ∨ r = .stop := by
  rcases r.effect_apply s with hcourse | ⟨-, stop, sync, observer, rfl | rfl, happly⟩
  · exact Or.inl (hcourse.stopPending_eq ▸ h)
  · rw [happly] at h
    exact Or.inl h
  · exact Or.inr rfl

lemma InboxRequest.stopPending_apply (r : InboxRequest K) (s : Simulator K)
    (h : ({ s with inbox := (r.apply s.inbox).2 } : Simulator K).stopPending = true) :
    s.stopPending = true ∨ r = .stop := by
  cases r with
  | stop => exact Or.inr rfl
  | schedule context delay k =>
    rw [Simulator.stopPending, InboxRequest.apply, Inbox.stop_push] at h
    exact Or.inl h
  | isClosed | describe => exact Or.inl h

lemma Memory.stopPending_askInbox (target : Nat) (r : InboxRequest K) (s : Simulator K)
    (m : Memory K U) (h : (m.askInbox target r s).2.1.stopPending = true) :
    s.stopPending = true ∨ target = s.identity ∧ r = .stop := by
  rw [askInbox] at h
  split at h
  · next htarget =>
    rcases r.stopPending_apply s h with h | h
    · exact Or.inl h
    · exact Or.inr ⟨htarget, h⟩
  · exact Or.inl h

/-- The requests that ask the loop of a simulator to stop. -/
def Request.asksStop (identity : Nat) : Request K U → Prop
  | .sim .stop => True
  | .inbox target .stop => target = identity
  | _ => False

lemma Request.stopPending_apply (r : Request K U) (s : Simulator K) (m : Memory K U)
    (h : (r.apply s m).2.1.stopPending = true) :
    s.stopPending = true ∨ r.asksStop s.identity := by
  cases r with
  | sim r =>
    rcases r.stopPending_apply s h with h | rfl
    · exact Or.inl h
    · exact Or.inr trivial
  | inbox target r =>
    rcases m.stopPending_askInbox target r s h with h | ⟨htarget, rfl⟩
    · exact Or.inl h
    · exact Or.inr htarget
  | _ =>
    exact Or.inl ((eventCourse_apply _ s m (by simp) (by simp)).stopPending_eq.symm.trans h)

/-! ### Steps -/

namespace Machine

/-- Whether a move asks the loop to stop. -/
def AsksStop (code : Code K U) (a : Machine K U) : Move K U → Prop
  | .remote .stop => True
  | .step =>
    match a.stack with
    | .exec (.ask r _) :: _ => r.asksStop a.sim.identity
    | .task .stop :: _ => True
    | .next :: _ => ∃ k id ev, a.sim.observer = some k ∧ a.taken? = some (id, ev) ∧
        .stop a.sim.identity ∈
          (code.observe k a.sim.identity ⟨id, ev.key.time, ev.context⟩ a.memory.user).2
    | _ => False
  | _ => False

lemma stopPending_send (ms : List (Message K)) (s : Simulator K) (m : Memory K U)
    (h : (send s m ms).1.stopPending = true) :
    s.stopPending = true ∨ .stop s.identity ∈ ms := by
  induction ms generalizing s m with
  | nil => exact Or.inl h
  | cons msg ms ih =>
    cases msg with
    | schedule target context delay k =>
      have hask := m.stopPending_askInbox target (.schedule context delay k) s
      have hsame := (m.course_askInbox target (.schedule context delay k) s).unchanged.1
      rw [send] at h
      generalize m.askInbox target (.schedule context delay k) s = r at h hask hsame
      obtain ⟨answer, s', m'⟩ := r
      rcases ih s' m' h with h | h
      · rcases hask h with h | ⟨-, h⟩
        · exact Or.inl h
        · cases h
      · exact Or.inr (List.mem_cons_of_mem _ (hsame ▸ h))
    | stop target =>
      have hask := m.stopPending_askInbox target .stop s
      have hsame := (m.course_askInbox target .stop s).unchanged.1
      rw [send] at h
      generalize m.askInbox target .stop s = r at h hask hsame
      obtain ⟨answer, s', m'⟩ := r
      rcases ih s' m' h with h | h
      · rcases hask h with h | ⟨rfl, -⟩
        · exact Or.inl h
        · exact Or.inr List.mem_cons_self
      · exact Or.inr (List.mem_cons_of_mem _ (hsame ▸ h))

lemma stopPending_launch (code : Code K U) (id : EventId) (ev : Event (Task K)) (s : Simulator K)
    (m : Memory K U) (rest : List (Frame K U))
    (h : (launch code id ev s m rest).sim.stopPending = true) :
    s.stopPending = true ∨ ∃ k, s.observer = some k ∧
      .stop s.identity ∈ (code.observe k s.identity ⟨id, ev.key.time, ev.context⟩ m.user).2 := by
  have hnotify : (notify code ⟨id, ev.key.time, ev.context⟩ s m).1.stopPending = true := h
  rw [notify] at hnotify
  cases hk : s.observer with
  | none =>
    rw [hk] at hnotify
    exact Or.inl hnotify
  | some k =>
    rw [hk] at hnotify
    rcases stopPending_send _ s _ hnotify with h | h
    · exact Or.inl h
    · exact Or.inr ⟨k, rfl, h⟩

lemma stopPending_exec (p : Program K U PUnit) (s : Simulator K) (m : Memory K U)
    (rest : List (Frame K U)) (h : (exec p s m rest).sim.stopPending = true) :
    s.stopPending = true ∨ ∃ r next, p = .ask r next ∧ r.asksStop s.identity := by
  cases p with
  | done | perform => exact Or.inl h
  | ask r next =>
    rcases r.stopPending_apply s m h with h | h
    · exact Or.inl h
    · exact Or.inr ⟨r, next, rfl, h⟩
  | run next =>
    rw [exec] at h
    split at h <;> exact Or.inl h
  | destroy next =>
    rw [exec] at h
    split at h <;> exact Or.inl h

/-- A stop comes to be pending only by a move that asks for it. -/
lemma stopPending_move (code : Code K U) (mv : Move K U) {a : Machine K U}
    (ht : a.sim.Timely keys) (h : (move code a mv).sim.stopPending = true) :
    a.sim.stopPending = true ∨ a.AsksStop code mv := by
  cases mv with
  | remote r =>
    rcases r.stopPending_apply a.sim h with h | rfl
    · exact Or.inl h
    · exact Or.inr trivial
  | enter f p =>
    rw [move] at h
    split at h <;> exact Or.inl h
  | step =>
    obtain ⟨s, m, stack, broken⟩ := a
    cases stack with
    | nil => exact Or.inl h
    | cons f rest =>
      rw [move, step] at h
      cases f with
      | exec p =>
        rcases stopPending_exec p s m rest h with h | ⟨r, next, rfl, hr⟩
        · exact Or.inl h
        · exact Or.inr hr
      | task t =>
        cases t with
        | stop => exact Or.inr trivial
        | user | watchdog | trickleInterval | trickleFire =>
          exact Or.inl ((eventCourse_start code _ s m rest (by simp)).stopPending_eq.symm.trans h)
      | loop => exact Or.inl ((Simulator.stopPending_drainInbox s).symm.trans h)
      | next =>
        have hround := round_takeNext code m rest ht.consistent ht.now_le
        rw [stepFrame] at h
        generalize takeNext code s m rest = b at hround h
        cases hround with
        | finish => exact absurd h Bool.false_ne_true
        | pass => exact Or.inl h
        | @start id ev q hsome hnext hlive =>
          rcases stopPending_launch code id ev _ m rest h with h | ⟨k, hk, h⟩
          · exact Or.inl h
          · exact Or.inr ⟨k, id, ev, hk, hsome, h⟩
      | teardown =>
        simp only [stepFrame, nextTeardown] at h
        split at h <;> exact Or.inl h
      | restore | rearmWatchdog | rearmTrickle | close | clear => exact Or.inl h

/-- As long as nobody asks for a stop, none is pending. -/
lemma stopPending_play (code : Code K U) (moves : List (Move K U)) {a : Machine K U}
    (ht : a.sim.Timely keys) (hb : a.broken = false) (h : a.sim.stopPending = false)
    (halong : Along code (fun b mv => ¬b.AsksStop code mv) moves a) :
    (play code moves a).sim.stopPending = false := by
  induction moves generalizing a keys with
  | nil => exact h
  | cons mv moves ih =>
    obtain ⟨hb', ht', -⟩ := timely_move code mv ht hb
    refine ih ht' hb' (Bool.eq_false_iff.mpr ?_) halong.2
    intro hstop
    rcases stopPending_move code mv ht hstop with hstop | hasks
    · rw [h] at hstop
      cases hstop
    · exact halong.1 hasks

end Machine

end EventKernel
