import EventKernel.Proofs.Machine.Turn
import EventKernel.Proofs.Simulator.Life

/-!
# Turns that are asked for

Events are issued, cancelled and removed because somebody asks for it, and are started, skipped and
dropped because their turn has come or their simulator goes. So most of what is on the stack of a
machine starts no event, and drops none.
-/

namespace EventKernel

open Simulator (issueTurns)

variable {K U : Type} {turns more : List (Turn K)}

/-- Whether a fate is met by request. The other ones are met when a turn comes, or at the end. -/
def Fate.IsAsked : Fate → Prop
  | issued | cancelled | removed => True
  | started | skipped | dropped => False

/-- Whether all of some turns are taken by request. -/
def Asked (turns : List (Turn K)) : Prop := ∀ x ∈ turns, x.fate.IsAsked

lemma asked_nil : Asked ([] : List (Turn K)) := fun x hx => by cases hx

lemma Asked.append (h : Asked turns) (h' : Asked more) : Asked (turns ++ more) := by
  intro x hx
  rcases List.mem_append.mp hx with hx | hx
  · exact h x hx
  · exact h' x hx

namespace Simulator

lemma asked_turn (fate : Fate) (hfate : fate.IsAsked) (s : Simulator K) (id : EventId) :
    Asked (s.turn fate id) := by
  intro x hx
  rw [(of_mem_turn hx).2]
  exact hfate

lemma asked_issueTurns (r : Except SimError EventId × Simulator K) : Asked (issueTurns r) := by
  obtain ⟨e | id, s⟩ := r
  · exact asked_nil
  · exact asked_turn .issued trivial s id

lemma asked_cancelTurns (id : EventId) (s : Simulator K) : Asked (s.cancelTurns id) := by
  rw [cancelTurns]
  split
  · exact asked_turn .cancelled trivial s id
  · exact asked_nil

lemma asked_removeTurns (id : EventId) (s : Simulator K) : Asked (s.removeTurns id) := by
  rw [removeTurns]
  split
  · exact asked_turn .removed trivial s id
  · exact asked_nil

lemma asked_insertTurns (evs : List (RemoteEvent (Task K))) (s : Simulator K) :
    Asked (insertTurns evs s) := by
  induction evs generalizing s with
  | nil => exact asked_nil
  | cons ev evs ih => exact (asked_turn .issued trivial _ _).append (ih _)

end Simulator

open Simulator (asked_issueTurns asked_cancelTurns asked_removeTurns)

lemma Watchdog.asked_pingTurns (w : Nat) (delay : Time) (d : Watchdog K) (s : Simulator K) :
    Asked (d.pingTurns w delay s) := by
  rw [pingTurns]
  split
  · exact asked_nil
  · split
    · exact asked_issueTurns _
    · split
      · exact asked_nil
      · split
        · exact (asked_cancelTurns _ _).append (asked_issueTurns _)
        · exact asked_nil

lemma Watchdog.asked_expireTurns (w : Nat) (d : Watchdog K) (s : Simulator K) :
    Asked (d.expireTurns w s) := by
  rw [expireTurns]
  split
  · exact asked_nil
  · split
    · exact asked_issueTurns _
    · exact asked_nil

lemma Trickle.asked_beginTurns (n : Nat) (d : Trickle K) (s : Simulator K) :
    Asked (d.beginTurns n s) := by
  rw [beginTurns]
  refine (asked_issueTurns _).append ?_
  split
  · exact asked_nil
  · exact asked_issueTurns _

lemma Trickle.asked_stopTurns (d : Trickle K) (s : Simulator K) : Asked (d.stopTurns s) :=
  (asked_cancelTurns _ _).append (asked_cancelTurns _ _)

lemma Trickle.asked_resetTurns (n : Nat) (d : Trickle K) (s : Simulator K) :
    Asked (d.resetTurns n s) :=
  (d.asked_stopTurns s).append (asked_beginTurns n _ _)

lemma SimRequest.asked_turns (r : SimRequest K) (s : Simulator K) : Asked (r.turns s) := by
  cases r with
  | schedule | scheduleNow | scheduleWith | scheduleDestroy | stopAfter => exact asked_issueTurns _
  | cancel id => exact asked_cancelTurns id s
  | remove id => exact asked_removeTurns id s
  | isExpired | delayLeft | identity | now | context | phase | eventCount | pendingEvents
  | isFinished | stop | kind | setScheduler | sync | boundLookahead | observe | describe =>
    exact asked_nil

lemma WatchdogRequest.asked_turns (w : Nat) (r : WatchdogRequest K) (d : Watchdog K)
    (s : Simulator K) : Asked (r.turns w d s) := by
  cases r with
  | ping delay => exact d.asked_pingTurns w delay s
  | setFunction | cancel | info => exact asked_nil

lemma TrickleRequest.asked_turns (n : Nat) (r : TrickleRequest K) (d : Trickle K)
    (s : Simulator K) : Asked (r.turns n d s) := by
  cases r with
  | enable => exact d.drawn.asked_beginTurns n s
  | reset => exact d.asked_resetTurns n s
  | inconsistent =>
    rw [turns, Trickle.inconsistentTurns]
    split
    · exact d.asked_resetTurns n s
    · exact asked_nil
  | stop => exact d.asked_stopTurns s
  | setFunction | consistent | info => exact asked_nil

lemma Request.asked_turns (r : Request K U) (s : Simulator K) (m : Memory K U) :
    Asked (r.turns s m) := by
  cases r with
  | sim r => exact r.asked_turns s
  | watchdog w r =>
    intro x hx
    obtain ⟨d, -, hx⟩ := List.mem_flatMap.mp hx
    exact r.asked_turns w d s x hx
  | trickle n r =>
    intro x hx
    obtain ⟨d, -, hx⟩ := List.mem_flatMap.mp hx
    exact r.asked_turns n d s x hx
  | inbox | newWatchdog | dropWatchdog | newTrickle | dropTrickle | load | update =>
    exact asked_nil

lemma Task.asked_turns (task : Task K) (s : Simulator K) (m : Memory K U) :
    Asked (task.turns s m) := by
  cases task with
  | watchdog w =>
    intro x hx
    obtain ⟨d, -, hx⟩ := List.mem_flatMap.mp hx
    exact d.asked_expireTurns w s x hx
  | trickleInterval n =>
    intro x hx
    obtain ⟨d, -, hx⟩ := List.mem_flatMap.mp hx
    exact Trickle.asked_beginTurns n _ s x hx
  | user | stop | trickleFire => exact asked_nil

/-- Only three kinds of frames bring turns that nobody asks for. -/
lemma Frame.asked_turns (f : Frame K U) (s : Simulator K) (m : Memory K U) (hnext : f ≠ .next)
    (hteardown : f ≠ .teardown) (hclear : f ≠ .clear) : Asked (f.turns s m) := by
  cases f with
  | exec p =>
    cases p with
    | ask r next => exact r.asked_turns s m
    | done | perform | run | destroy => exact asked_nil
  | task task => exact task.asked_turns s m
  | loop => exact Simulator.asked_insertTurns _ _
  | next => exact absurd rfl hnext
  | teardown => exact absurd rfl hteardown
  | clear => exact absurd rfl hclear
  | restore | rearmWatchdog | rearmTrickle | close => exact asked_nil

end EventKernel
