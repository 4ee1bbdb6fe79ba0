import Mathlib.Tactic.Lemma
import EventKernel.Machine.Basic

/-!
# Runs of a machine

The life of a simulator from its creation on. Its machine makes steps; other threads make requests
to its inbox at any time; and once nothing is left to do, its owner changes what the callbacks share
and has another program carried out. A run is a list of such moves, so that what holds behind every
list of moves holds throughout the life of the simulator.
-/

namespace EventKernel

/-- What can happen to a machine. -/
inductive Move (K U : Type) where
  | step
  /-- Another thread makes a request to the inbox of the simulator. -/
  | remote (r : InboxRequest K)
  /-- The owner changes the memory and has a program carried out; while something is left to do,
  nothing happens. -/
  | enter (f : Memory K U → Memory K U) (p : Program K U PUnit)

namespace Machine

variable {K U : Type}

/-- The machine of a new simulator. -/
def idle (identity : Nat) (kind : QueueKind) (buckets : Nat) (sync : SyncMode)
    (m : Memory K U) : Machine K U where
  sim := .create identity kind buckets sync
  memory := m
  stack := []

/-- Make a move. -/
def move (code : Code K U) (a : Machine K U) : Move K U → Machine K U
  | .step => step code a
  | .remote r => { a with sim := { a.sim with inbox := (r.apply a.sim.inbox).2 } }
  | .enter f p => if a.isDone then { a with memory := f a.memory, stack := [.exec p] } else a

/-- Make moves in turn. -/
def play (code : Code K U) (moves : List (Move K U)) (a : Machine K U) : Machine K U :=
  moves.foldl (move code) a

/-- The event the next step takes off the queue, cancelled or not. -/
def taken? (a : Machine K U) : Option (EventId × Event (Task K)) :=
  match a.stack with
  | .next :: _ => if a.sim.stopPending then none else a.sim.scheduler.removeNext.1
  | _ => none

/-- The event a move takes off the queue. -/
def takenBy? (a : Machine K U) : Move K U → Option (EventId × Event (Task K))
  | .step => a.taken?
  | .remote _ | .enter _ _ => none

/-- The events taken off the queue in the course of a run. -/
def taken (code : Code K U) : List (Move K U) → Machine K U → List (EventId × Event (Task K))
  | [], _ => []
  | mv :: moves, a => (a.takenBy? mv).toList ++ taken code moves (move code a mv)

/-- The events taken off the queue in the course of a run that were cancelled, or that were not. -/
def takenWith (cancelled : Bool) (code : Code K U) (moves : List (Move K U)) (a : Machine K U) :
    List (EventId × Event (Task K)) :=
  (taken code moves a).filter (·.2.cancelled == cancelled)

/-- The events whose callbacks were invoked. -/
abbrev invoked (code : Code K U) (moves : List (Move K U)) (a : Machine K U) :
    List (EventId × Event (Task K)) :=
  takenWith false code moves a

/-- The events that were cancelled and passed over. -/
abbrev passedOver (code : Code K U) (moves : List (Move K U)) (a : Machine K U) :
    List (EventId × Event (Task K)) :=
  takenWith true code moves a

/-- What holds of every move of a run and the state it is made in. -/
def Along (code : Code K U) (P : Machine K U → Move K U → Prop) :
    List (Move K U) → Machine K U → Prop
  | [], _ => True
  | mv :: moves, a => P a mv ∧ Along code P moves (move code a mv)

instance (code : Code K U) (P : Machine K U → Move K U → Prop) [∀ a mv, Decidable (P a mv)] :
    ∀ moves a, Decidable (Along code P moves a)
  | [], _ => .isTrue trivial
  | mv :: moves, a =>
    have := instDecidableAlong code P moves (move code a mv)
    inferInstanceAs (Decidable (P a mv ∧ Along code P moves (move code a mv)))

lemma Along.and {code : Code K U} {P Q : Machine K U → Move K U → Prop} {moves : List (Move K U)}
    {a : Machine K U} (h : Along code P moves a) (h' : Along code Q moves a) :
    Along code (fun a mv => P a mv ∧ Q a mv) moves a := by
  induction moves generalizing a with
  | nil => trivial
  | cons mv moves ih => exact ⟨⟨h.1, h'.1⟩, ih h.2 h'.2⟩

lemma Along.mono {code : Code K U} {P Q : Machine K U → Move K U → Prop} {moves : List (Move K U)}
    {a : Machine K U} (h : Along code P moves a) (hPQ : ∀ a mv, P a mv → Q a mv) :
    Along code Q moves a := by
  induction moves generalizing a with
  | nil => trivial
  | cons mv moves ih => exact ⟨hPQ a mv h.1, ih h.2⟩

@[simp] lemma play_nil (code : Code K U) (a : Machine K U) : play code [] a = a := rfl

@[simp] lemma play_cons (code : Code K U) (mv : Move K U) (moves : List (Move K U))
    (a : Machine K U) : play code (mv :: moves) a = play code moves (move code a mv) := rfl

/-- What is taken off the queue is taken by a loop. -/
lemma stack_of_taken? {a : Machine K U} {p : EventId × Event (Task K)} (htaken : a.taken? = some p) :
    ∃ below, a.stack = .next :: below := by
  obtain ⟨s, m, stack, broken⟩ := a
  rw [taken?] at htaken
  split at htaken
  · next below hstack => exact ⟨below, hstack⟩
  · cases htaken

lemma takenWith_cons (cancelled : Bool) (code : Code K U) (mv : Move K U)
    (moves : List (Move K U)) (a : Machine K U) :
    takenWith cancelled code (mv :: moves) a =
      (a.takenBy? mv).toList.filter (·.2.cancelled == cancelled) ++
        takenWith cancelled code moves (move code a mv) := by
  rw [takenWith, taken, List.filter_append, takenWith]

/-- Steps up to a bound are moves. -/
theorem runFor_eq_play (code : Code K U) (n : Nat) (a : Machine K U) :
    runFor code n a = play code (List.replicate n .step) a := by
  induction n generalizing a with
  | zero => rfl
  | succ n ih =>
    rw [runFor, List.replicate_succ, play_cons, move]
    split
    · next h =>
      obtain ⟨s, m, stack, broken⟩ := a
      obtain rfl : stack = [] := List.isEmpty_iff.mp h
      rw [step, ← ih]
      cases n <;> rfl
    · exact ih _

end Machine

end EventKernel
