import EventKernel.Machine.World
import EventKernel.Proofs.Machine.Turn

/-!
# The inbox of a running simulator

While a simulator runs, its inbox is its own, and the one that is kept for it in the memory is out
of use: no step looks at it. So it is enough to put the inbox back when the simulator has nothing
left to do.
-/

namespace EventKernel

variable {K U : Type} {s : Simulator K} {i : Nat}

namespace Memory

/-- Change the inbox of the simulator `i`. -/
def setInbox (i : Nat) (b : Inbox (Task K)) (m : Memory K U) : Memory K U :=
  { m with inboxes := m.inboxes.setIfInBounds i b }

lemma askInbox_setInbox (hs : s.identity = i) (b : Inbox (Task K)) (target : Nat)
    (r : InboxRequest K) (m : Memory K U) :
    (m.setInbox i b).askInbox target r s =
      ((m.askInbox target r s).1, (m.askInbox target r s).2.1,
        (m.askInbox target r s).2.2.setInbox i b) := by
  rw [askInbox, askInbox]
  by_cases htarget : target = s.identity
  · rw [if_pos htarget, if_pos htarget]
  · rw [if_neg htarget, if_neg htarget]
    have hne : i ≠ target := fun h => htarget (h.symm.trans hs.symm)
    have hget : (m.setInbox i b).inboxes.getD target .shut = m.inboxes.getD target .shut := by
      simp [setInbox, hne]
    rw [hget]
    simp [setInbox, Array.setIfInBounds_comm _ _ hne]

end Memory

lemma Request.apply_setInbox (hs : s.identity = i) (b : Inbox (Task K)) (r : Request K U)
    (m : Memory K U) :
    r.apply s (m.setInbox i b) =
      ((r.apply s m).1, (r.apply s m).2.1, (r.apply s m).2.2.setInbox i b) := by
  cases r with
  | inbox target r => exact Memory.askInbox_setInbox hs b target r m
  | watchdog w r =>
    simp only [apply]
    rw [show (m.setInbox i b).watchdog? w = m.watchdog? w from rfl]
    cases m.watchdog? w <;> rfl
  | trickle t r =>
    simp only [apply]
    rw [show (m.setInbox i b).trickle? t = m.trickle? t from rfl]
    cases m.trickle? t <;> rfl
  | sim | newWatchdog | dropWatchdog | newTrickle | dropTrickle | load | update => rfl

namespace Machine

/-- Change the inbox that the memory keeps for the simulator `i`. -/
def setInbox (i : Nat) (b : Inbox (Task K)) (a : Machine K U) : Machine K U :=
  { a with memory := a.memory.setInbox i b }

lemma send_setInbox (hs : s.identity = i) (b : Inbox (Task K)) (ms : List (Message K))
    (m : Memory K U) :
    send s (m.setInbox i b) ms = ((send s m ms).1, (send s m ms).2.setInbox i b) := by
  induction ms generalizing s m with
  | nil => rfl
  | cons msg ms ih =>
    have hidentity : ∀ target r, (m.askInbox target r s).2.1.identity = i := by
      intro target r
      rw [(m.askInbox_unchanged target r s).1]
      exact hs
    cases msg with
    | schedule target context delay k =>
      rw [send, Memory.askInbox_setInbox hs]
      exact ih (hidentity _ _) _
    | stop target =>
      rw [send, Memory.askInbox_setInbox hs]
      exact ih (hidentity _ _) _

lemma notify_setInbox (hs : s.identity = i) (b : Inbox (Task K)) (code : Code K U)
    (info : EventInfo) (m : Memory K U) :
    notify code info s (m.setInbox i b) =
      ((notify code info s m).1, (notify code info s m).2.setInbox i b) := by
  rw [notify, notify]
  split
  · rfl
  · next k _ =>
    exact send_setInbox hs b _ { m with user := (code.observe k s.identity info m.user).1 }

lemma start_setInbox (b : Inbox (Task K)) (code : Code K U) (t : Task K) (s : Simulator K)
    (m : Memory K U) (rest : List (Frame K U)) :
    start code t s (m.setInbox i b) rest = (start code t s m rest).setInbox i b := by
  cases t with
  | user | stop => rfl
  | watchdog w =>
    simp only [start]
    rw [show (m.setInbox i b).watchdog? w = m.watchdog? w from rfl]
    cases m.watchdog? w with
    | none => rfl
    | some d =>
      dsimp only
      split <;> rfl
  | trickleInterval t =>
    simp only [start]
    rw [show (m.setInbox i b).trickle? t = m.trickle? t from rfl]
    cases m.trickle? t <;> rfl
  | trickleFire t =>
    simp only [start]
    rw [show (m.setInbox i b).trickle? t = m.trickle? t from rfl]
    cases m.trickle? t with
    | none => rfl
    | some d =>
      dsimp only
      split <;> rfl

lemma takeNext_setInbox (hs : s.identity = i) (b : Inbox (Task K)) (code : Code K U)
    (m : Memory K U) (rest : List (Frame K U)) :
    takeNext code s (m.setInbox i b) rest = (takeNext code s m rest).setInbox i b := by
  simp only [takeNext]
  split
  · rfl
  · rcases s.scheduler.removeNext with ⟨_ | ⟨id, ev⟩, q⟩
    · rfl
    · simp only [dispatch]
      split
      · rfl
      · split
        · rfl
        · rw [notify_setInbox (s := { s with scheduler := q, now := ev.key.time }) hs]
          rfl

lemma exec_setInbox (hs : s.identity = i) (b : Inbox (Task K)) (p : Program K U PUnit)
    (m : Memory K U) (rest : List (Frame K U)) :
    exec p s (m.setInbox i b) rest = (exec p s m rest).setInbox i b := by
  cases p with
  | done | perform => rfl
  | ask r next =>
    simp only [exec]
    rw [Request.apply_setInbox hs]
    rfl
  | run next | destroy next =>
    simp only [exec]
    split <;> rfl

/-- No step looks at the inbox that is kept for the simulator that runs. -/
lemma step_setInbox (code : Code K U) {a : Machine K U} (hi : a.sim.identity = i)
    (b : Inbox (Task K)) : step code (a.setInbox i b) = (step code a).setInbox i b := by
  obtain ⟨s, m, stack, broken⟩ := a
  cases stack with
  | nil => rfl
  | cons f rest =>
    show stepFrame code f s (m.setInbox i b) rest = (stepFrame code f s m rest).setInbox i b
    cases f with
    | exec p => exact exec_setInbox hi b p m rest
    | task t => exact start_setInbox b code t s m rest
    | next => exact takeNext_setInbox hi b code m rest
    | teardown =>
      simp only [stepFrame, nextTeardown]
      split <;> rfl
    | loop | restore | rearmWatchdog | rearmTrickle | close | clear => rfl

end Machine

end EventKernel
