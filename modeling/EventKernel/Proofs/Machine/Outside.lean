import EventKernel.Proofs.Machine.Clock

/-!
# What a step does to other simulators

A machine reaches the simulators that it does not run only through their inboxes. They accept code
of the user there, which is not due in the past; and each keeps its place among the others.
-/

namespace EventKernel

open Simulator (Course Timely)

variable {K U : Type} {m m' m'' : Memory K U}

lemma InboxRequest.mem_events_apply (r : InboxRequest K) (b : Inbox (Task K)) :
    ∀ ev ∈ (r.apply b).2.events,
      ev ∈ b.events ∨ ev.delay.isNegative = false ∧ ∃ k, ev.task = .user k := by
  cases r with
  | stop | isClosed | describe => exact fun ev hev => Or.inl hev
  | schedule context delay k =>
    rw [apply, Inbox.push]
    split
    · exact fun ev hev => Or.inl hev
    · next hdelay =>
      split
      · exact fun ev hev => Or.inl hev
      · intro ev hev
        rcases Array.mem_push.mp hev with hev | rfl
        · exact Or.inl hev
        · exact Or.inr ⟨Bool.eq_false_iff.mpr hdelay, k, rfl⟩

namespace Memory

/-- What the inboxes in the memory hold was there before, or is code of the user. -/
structure Delivers (m m' : Memory K U) : Prop where
  size : m'.inboxes.size = m.inboxes.size
  events : ∀ j, ∀ ev ∈ (m'.inboxes.getD j .shut).events,
    ev ∈ (m.inboxes.getD j .shut).events ∨ ev.delay.isNegative = false ∧ ∃ k, ev.task = .user k

lemma Delivers.of_eq (h : m'.inboxes = m.inboxes) : m.Delivers m' where
  size := congrArg Array.size h
  events := by
    rw [h]
    exact fun j ev hev => Or.inl hev

lemma Delivers.refl (m : Memory K U) : m.Delivers m := .of_eq rfl

lemma Delivers.trans (h : m.Delivers m') (h' : m'.Delivers m'') : m.Delivers m'' where
  size := h'.size.trans h.size
  events j ev hev := by
    rcases h'.events j ev hev with hev | huser
    · exact h.events j ev hev
    · exact Or.inr huser

/-- To the simulator whose inbox it is, a delivery is a change of the inbox. -/
lemma Delivers.course (h : m.Delivers m') {j : Nat} {s : Simulator K}
    (hs : s.inbox = m.inboxes.getD j .shut) :
    Course s [] { s with inbox := m'.inboxes.getD j .shut } := by
  refine .single (.inbox s _ ?_)
  rw [hs]
  exact h.events j

lemma delivers_askInbox (target : Nat) (r : InboxRequest K) (s : Simulator K) (m : Memory K U) :
    m.Delivers (m.askInbox target r s).2.2 := by
  rw [askInbox]
  split
  · exact .refl m
  · refine ⟨Array.size_setIfInBounds, ?_⟩
    intro j ev hev
    simp only [Array.getD_eq_getD_getElem?, Array.getElem?_setIfInBounds] at hev ⊢
    split at hev
    · next htarget =>
      subst htarget
      split at hev
      · exact r.mem_events_apply _ ev hev
      · simp [Inbox.shut] at hev
    · exact Or.inl hev

end Memory

lemma Request.delivers_apply (r : Request K U) (s : Simulator K) (m : Memory K U) :
    m.Delivers (r.apply s m).2.2 := by
  cases r with
  | inbox target r => exact m.delivers_askInbox target r s
  | watchdog w r =>
    rw [apply]
    split <;> exact .of_eq rfl
  | trickle t r =>
    rw [apply]
    split <;> exact .of_eq rfl
  | sim | newWatchdog | dropWatchdog | newTrickle | dropTrickle | load | update => exact .of_eq rfl

namespace Machine

lemma delivers_send (ms : List (Message K)) (s : Simulator K) (m : Memory K U) :
    m.Delivers (send s m ms).2 := by
  induction ms generalizing s m with
  | nil => exact .refl m
  | cons msg ms ih =>
    cases msg with
    | schedule target context delay k =>
      exact (m.delivers_askInbox target (.schedule context delay k) s).trans (ih _ _)
    | stop target => exact (m.delivers_askInbox target .stop s).trans (ih _ _)

lemma delivers_notify (code : Code K U) (info : EventInfo) (s : Simulator K) (m : Memory K U) :
    m.Delivers (notify code info s m).2 := by
  rw [notify]
  split
  · exact .refl m
  · next k _ =>
    have huser : m.Delivers { m with user := (code.observe k s.identity info m.user).1 } :=
      .of_eq rfl
    exact huser.trans (delivers_send _ s _)

lemma delivers_start (code : Code K U) (t : Task K) (s : Simulator K) (m : Memory K U)
    (rest : List (Frame K U)) : m.Delivers (start code t s m rest).memory := by
  cases t with
  | user | stop => exact .refl m
  | watchdog w | trickleFire t =>
    rw [start]
    split
    · exact .refl m
    · split <;> exact .of_eq rfl
  | trickleInterval t =>
    rw [start]
    split <;> exact .of_eq rfl

lemma delivers_takeNext (code : Code K U) (s : Simulator K) (m : Memory K U)
    (rest : List (Frame K U)) : m.Delivers (takeNext code s m rest).memory := by
  rw [takeNext]
  split
  · exact .refl m
  · rcases s.scheduler.removeNext with ⟨_ | ⟨id, ev⟩, q⟩
    · exact .refl m
    · dsimp only
      rw [dispatch]
      split
      · exact .refl m
      · split
        · exact .refl m
        · exact delivers_notify code _ _ m

lemma delivers_exec (p : Program K U PUnit) (s : Simulator K) (m : Memory K U)
    (rest : List (Frame K U)) : m.Delivers (exec p s m rest).memory := by
  cases p with
  | done | perform => exact .refl m
  | ask r next => exact r.delivers_apply s m
  | run next | destroy next =>
    rw [exec]
    split <;> exact .refl m

/-- A step hands code of the user to other simulators, and nothing else. -/
lemma delivers_step (code : Code K U) (a : Machine K U) :
    a.memory.Delivers (step code a).memory := by
  obtain ⟨s, m, stack, broken⟩ := a
  cases stack with
  | nil => exact .refl m
  | cons f rest =>
    rw [step]
    cases f with
    | exec p => exact delivers_exec p s m rest
    | task t => exact delivers_start code t s m rest
    | next => exact delivers_takeNext code s m rest
    | teardown =>
      rw [stepFrame, nextTeardown]
      dsimp only
      split <;> exact .refl m
    | loop | restore | rearmWatchdog | rearmTrickle | close | clear => exact .of_eq rfl

/-- No move changes the number that tells simulators apart. -/
lemma identity_move (code : Code K U) (mv : Move K U) {a : Machine K U} {keys : List EventKey}
    (h : a.sim.Timely keys) (hb : a.broken = false) :
    (move code a mv).sim.identity = a.sim.identity := by
  cases moveCase code mv h hb with
  | course hnext hnone hbroken hcourse => exact hcourse.unchanged.1
  | @round rest hstep hstack htaken hturns hround =>
    generalize move code a mv = b at hround ⊢
    cases hround with
    | finish | pass => rfl
    | @start id ev q hsome hnext hlive =>
      rw [(launch_unchanged code id ev _ a.memory rest).1]

end Machine

end EventKernel
