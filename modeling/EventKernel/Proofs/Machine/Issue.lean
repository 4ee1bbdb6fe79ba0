import EventKernel.Proofs.Machine.Handle
import EventKernel.Proofs.Machine.Inbox

/-!
# What is issued

The turns of a run tell of every event that is put on record. A program that is answered with a
handle goes on with it, and the handle is issued in the same step; the events that wait in the inbox
are issued when the loop empties it, each under a handle of its own; and an event that is held behind
a move but not in front of it was issued in that move, whatever else the move did.
-/

namespace EventKernel

open Simulator (Told issueTurns)

variable {K U : Type} {s : Simulator K} {keys : List EventKey} {turns : List (Turn K)} {id : EventId}

/-- The handle in the answer to a request, if the request asks for one and is not refused. -/
def SimRequest.handle? : (r : SimRequest K) → r.Reply → Option EventId
  | schedule .., answer | scheduleNow _, answer | scheduleWith .., answer
  | scheduleDestroy _, answer | stopAfter _, answer => Except.toOption answer
  | _, _ => none

lemma SimRequest.issued_of_handle? (h : s.Told turns) (r : SimRequest K)
    (hid : r.handle? (r.apply s).1 = some id) :
    Met (r.turns s) id .issued ∧ ∃ ev, (r.apply s).2.find? id = some ev := by
  have hcall : ∀ x : Except SimError EventId × Simulator K,
      ((∃ context delay task, x = s.scheduleWith context delay task) ∨
        ∃ task, x = s.scheduleDestroy task) →
      x.1.toOption = some id → Met (issueTurns x) id .issued ∧ ∃ ev, x.2.find? id = some ev := by
    intro x hx hid
    cases hok : x.1 with
    | error e =>
      rw [hok] at hid
      cases hid
    | ok j =>
      rw [hok] at hid
      obtain rfl := Option.some.inj hid
      exact ⟨(Machine.issued_of_ok h hx hok).1, (Machine.find?_of_ok h.sound hx hok).2⟩
  cases r with
  | schedule delay k => exact hcall (s.schedule delay (.user k)) (Or.inl ⟨_, _, _, rfl⟩) hid
  | scheduleNow k => exact hcall (s.scheduleNow (.user k)) (Or.inl ⟨_, _, _, rfl⟩) hid
  | scheduleWith context delay k =>
    exact hcall (s.scheduleWith context delay (.user k)) (Or.inl ⟨_, _, _, rfl⟩) hid
  | scheduleDestroy k => exact hcall (s.scheduleDestroy (.user k)) (Or.inr ⟨_, rfl⟩) hid
  | stopAfter delay => exact hcall (s.stopAfter delay) (Or.inl ⟨_, _, _, rfl⟩) hid
  | _ => cases hid

namespace Machine

/-- What is put on record in the next move is issued in its turns. -/
structure Issues (code : Code K U) (a : Machine K U) : Prop where
  /-- A program goes on with the answer to its request; a handle in it is issued, and names an
  event. -/
  answered : ∀ (r : SimRequest K) next rest, a.stack = .exec (.ask (.sim r) next) :: rest →
    (step code a).stack = .exec (next (r.apply a.sim).1) :: rest ∧
    ∀ id, r.handle? (r.apply a.sim).1 = some id →
      Met (a.turns .step) id .issued ∧ ∃ ev, (step code a).sim.find? id = some ev
  /-- What waits in the inbox is issued event by event, in order, and held in its own context, its
  delay behind the time on the clock. -/
  drained : ∀ rest, a.stack = .loop :: rest → ∃ stored : List (Insertion K),
    stored.map (·.event) = a.sim.inbox.events.toList ∧
    a.turns .step = stored.map Insertion.turn ∧
    stored.Pairwise (·.id.sequence < ·.id.sequence) ∧
    ∀ x ∈ stored, x.now = a.sim.now ∧ (step code a).sim.find? x.id = some x.stored
  /-- What is held behind a move and was not in front of it is issued in the move. -/
  held : ∀ mv id ev, a.sim.find? id = none → (move code a mv).sim.find? id = some ev →
    Met (a.turns mv) id .issued

lemma issues (code : Code K U) {a : Machine K U} (h : a.sim.Timely keys) (hb : a.broken = false)
    (ht : a.sim.Told turns) : a.Issues code where
  answered r next rest hstack := by
    rw [step_of_stack code hstack, turns_of_stack hstack]
    exact ⟨rfl, fun id hid => r.issued_of_handle? ht hid⟩
  drained rest hstack := by
    rw [step_of_stack code hstack, turns_of_stack hstack]
    refine ⟨a.sim.drainInsertions, a.sim.map_event_drainInsertions,
      ht.sound.drainTurns_eq h.delay_nonneg, ?_, fun x hx => ⟨?_, ?_⟩⟩
    · exact (ht.sound.pairwise_drainInsertions h.delay_nonneg).imp And.right
    · exact Simulator.now_of_mem_drainInsertions hx
    · exact (ht.sound.find?_drainInsertions h.delay_nonneg hx).2
  held mv id ev hnone hev := by
    have hpassage := passage_move code mv h hb ht.sound
    rcases hpassage.held id ev hev with ⟨old, hold, -⟩ | ⟨-, x, hx, hid, hfate, -⟩
    · rw [hnone] at hold
      cases hold
    · exact ⟨x, hx, hid, hfate⟩

end Machine

end EventKernel
