import EventKernel.Machine.Basic

/-!
# Worlds of simulators

Any number of simulators that are driven one after the other from outside. While one of them runs,
the inboxes of the others stay open. Simulators are numbered in the order in which they were asked
for, also those whose construction failed; the number is the identity.
-/

namespace EventKernel

/-- Simulators and what they share. The inbox of a simulator that does not run is kept in the
memory. -/
structure World (K U : Type) where
  sims : Array (Option (Simulator K)) := #[]
  memory : Memory K U

namespace World

variable {K U : Type}

/-- The state of the user. -/
def user (w : World K U) : U := w.memory.user

/-- Change the state of the user. -/
def modifyUser (f : U → U) (w : World K U) : World K U :=
  { w with memory := { w.memory with user := f w.memory.user } }

/-- The living simulator with a number, its inbox in place. -/
def sim? (w : World K U) (i : Nat) : Option (Simulator K) :=
  ((w.sims[i]?).join).map fun s => { s with inbox := w.memory.inboxes.getD i .shut }

/-- Have the simulator `i` carry out a program, in at most so many steps. -/
def performFor (steps : Nat) (code : Code K U) (i : Nat) (p : Program K U PUnit) (w : World K U) :
    World K U :=
  match w.sim? i with
  | none => w
  | some s =>
    let a := (Machine.load s w.memory p).runFor code steps
    { sims := w.sims.setIfInBounds i (some a.sim)
      memory := { a.memory with inboxes := a.memory.inboxes.setIfInBounds i a.sim.inbox } }

/-- More steps of the machine than can be made in any reasonable time. A program that goes on for
ever has to be cut off somewhere. -/
def stepLimit : Nat := 1000000000000000

/-- Have the simulator `i` carry out a program. -/
def perform (code : Code K U) (i : Nat) (p : Program K U PUnit) (w : World K U) : World K U :=
  w.performFor stepLimit code i p

/-- Add a simulator, or a gap if its construction failed. -/
def add (s : Option (Simulator K)) (w : World K U) : World K U :=
  let inbox := (s.map (·.inbox)).getD .shut
  { sims := w.sims.push s
    memory := { w.memory with inboxes := w.memory.inboxes.push inbox } }

/-- Tear the simulator `i` down, unless that has happened, and drop it. -/
def drop (code : Code K U) (i : Nat) (w : World K U) : World K U :=
  match w.sim? i with
  | none => w
  | some s =>
    let w := if s.phase = .destroyed then w else w.perform code i (.destroy fun _ => .done ())
    { sims := w.sims.setIfInBounds i none
      memory := { w.memory with inboxes := w.memory.inboxes.setIfInBounds i .shut } }

/-- Make a request to the inbox of a simulator that does not run; a refusal is ignored. -/
def askInbox (target : Nat) (r : InboxRequest K) : World K U → World K U
  | ⟨sims, ⟨watchdogs, trickles, inboxes, user⟩⟩ =>
    ⟨sims, ⟨watchdogs, trickles, inboxes.modify target fun b => (r.apply b).2, user⟩⟩

/-- Deliver a message while no simulator runs; a refused one is lost. -/
def deliver (w : World K U) : Message K → World K U
  | .schedule target context delay k => w.askInbox target (.schedule context delay k)
  | .stop target => w.askInbox target .stop

/-- Whether numbers increase. -/
def increasing : List Nat → Bool
  | a :: b :: ns => a < b && increasing (b :: ns)
  | _ => true

/-- The identities of the living simulators. -/
def identities (w : World K U) : List Nat :=
  w.sims.toList.filterMap fun s => s.map (·.identity)

end World

end EventKernel
