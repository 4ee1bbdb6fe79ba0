import EventKernel.Proofs.Machine.Clock

/-!
# Runs that come to their end

The machine makes as many steps as it is allowed to, or fewer if nothing is left to do. That it has
nothing left to do is shown backwards, from the end of a run to its beginning, and so is what holds
on the way there.
-/

namespace EventKernel

/-! ### How many events are stored -/

namespace Simulator

variable {K : Type} {s : Simulator K}

lemma pendingEvents_insert (context : ContextId) (delay : Time) (task : Task K) (s : Simulator K) :
    (s.insert context delay task).2.pendingEvents = s.pendingEvents + 1 := by
  obtain ⟨identity, ⟨⟨slots, free, live⟩, queue, buckets⟩⟩ := s
  cases free <;> rfl

lemma pendingEvents_insertAll (evs : List (RemoteEvent (Task K))) (s : Simulator K) :
    (insertAll evs s).pendingEvents = s.pendingEvents + evs.length := by
  induction evs generalizing s with
  | nil => rfl
  | cons ev evs ih =>
    have hrest := ih (s.insert ev.context ev.delay ev.task).2
    rw [pendingEvents_insert] at hrest
    rw [List.length_cons, Nat.add_comm evs.length, ← Nat.add_assoc]
    exact hrest

lemma pendingEvents_drainInbox (s : Simulator K) :
    s.drainInbox.pendingEvents = s.pendingEvents + s.inbox.events.size := by
  rw [drainInbox_eq, pendingEvents_insertAll, Array.length_toList]
  rfl

lemma pendingEvents_removeNext (hc : s.scheduler.Consistent) {id : EventId} {ev : Event (Task K)}
    {q : Scheduler (Task K)} (hnext : s.scheduler.removeNext = (some (id, ev), q)) :
    s.pendingEvents = q.size + 1 := by
  rcases hc.removeNext_cases with ⟨-, hn⟩ | ⟨e, ev', q', ⟨hmem, -⟩, -, -, -, hn⟩
  · rw [hnext] at hn
    cases hn
  · rw [hnext] at hn
    cases hn
    have hpos : 0 < s.scheduler.arena.live := by
      rw [hc.tidy.live_eq]
      exact List.length_pos_of_mem hmem
    exact (Nat.sub_add_cancel hpos).symm

end Simulator

namespace Machine

variable {K U : Type} {code : Code K U}

/-! ### So many steps -/

lemma runFor_succ (code : Code K U) (n : Nat) (a : Machine K U) :
    runFor code (n + 1) a = runFor code n (step code a) := by
  rw [runFor_eq_play, runFor_eq_play, List.replicate_succ, play_cons, move]

lemma runFor_of_isDone {a : Machine K U} (h : a.isDone = true) (n : Nat) :
    runFor code n a = a := by
  cases n with
  | zero => rfl
  | succ n => rw [runFor, if_pos h]

/-- A machine that has nothing left to do after some steps has nothing left to do after one more. -/
lemma isDone_runFor_succ {n : Nat} {a : Machine K U}
    (h : (runFor code n a).isDone = true) : (runFor code (n + 1) a).isDone = true := by
  induction n generalizing a with
  | zero =>
    have hdone : a.isDone = true := h
    rw [runFor_of_isDone hdone]
    exact hdone
  | succ n ih =>
    rw [runFor_succ] at h ⊢
    exact ih h

lemma isDone_runFor_mono {n n' : Nat} (hle : n ≤ n') {a : Machine K U}
    (h : (runFor code n a).isDone = true) : (runFor code n' a).isDone = true := by
  induction hle with
  | refl => exact h
  | step _ ih => exact isDone_runFor_succ ih

lemma isDone_runFor_of_step {n : Nat} {a : Machine K U}
    (h : (runFor code n (step code a)).isDone = true) : (runFor code (n + 1) a).isDone = true := by
  rw [runFor_succ]
  exact h

/-! ### The way to the end -/

/-- The machine comes to its end in at most so many steps. Something holds all the way, and
something else in the end. -/
inductive Concludes (code : Code K U) (always ending : Machine K U → Prop) :
    Nat → Machine K U → Prop where
  | rest {n : Nat} {a : Machine K U} (hdone : a.isDone = true) (h : always a) (hend : ending a) :
      Concludes code always ending n a
  | step {n : Nat} {a : Machine K U} (h : always a)
      (hnext : Concludes code always ending n (step code a)) :
      Concludes code always ending (n + 1) a

namespace Concludes

variable {always ending : Machine K U → Prop} {n k : Nat} {a : Machine K U}

lemma mono (h : Concludes code always ending n a) (hle : n ≤ k) :
    Concludes code always ending k a := by
  induction h generalizing k with
  | rest hdone h hend => exact .rest hdone h hend
  | step h hnext ih =>
    obtain ⟨k, rfl⟩ : ∃ k', k = k' + 1 := ⟨k - 1, by omega⟩
    exact .step h (ih (Nat.le_of_succ_le_succ hle))

/-- What holds all the way holds in each state of the run. -/
lemma on_the_way (h : Concludes code always ending n a) (k : Nat) :
    always (runFor code k a) := by
  induction h generalizing k with
  | rest hdone h hend =>
    rw [runFor_of_isDone hdone]
    exact h
  | step h hnext ih =>
    cases k with
    | zero => exact h
    | succ k =>
      rw [runFor_succ]
      exact ih k

/-- As many steps as were foreseen, or more, lead to the end. -/
lemma at_the_end (h : Concludes code always ending n a) (hle : n ≤ k) :
    (runFor code k a).isDone = true ∧ ending (runFor code k a) := by
  induction h generalizing k with
  | rest hdone h hend =>
    rw [runFor_of_isDone hdone]
    exact ⟨hdone, hend⟩
  | step h hnext ih =>
    obtain ⟨k, rfl⟩ : ∃ k', k = k' + 1 := ⟨k - 1, by omega⟩
    rw [runFor_succ]
    exact ih (Nat.le_of_succ_le_succ hle)

end Concludes

end Machine

end EventKernel
