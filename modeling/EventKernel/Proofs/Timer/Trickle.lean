import EventKernel.Proofs.Simulator.Owner
import EventKernel.Proofs.Timer.Turn

/-!
# Trickle timers and their events

A trickle timer names the end of its interval and its firing point, and no events of others.
-/

namespace EventKernel

open Simulator (Passage)

variable {K : Type} {s t : Simulator K} {turns : List (Turn K)}

namespace Trickle

variable {n : Nat} {d : Trickle K}

/-- The timer names no event of others. -/
structure Kept (n : Nat) (d : Trickle K) (s : Simulator K) : Prop where
  interval : s.Owns d.intervalEvent (.trickleInterval n)
  fire : s.Owns d.fireEvent (.trickleFire n)

lemma Kept.passage (h : d.Kept n s) (hp : Passage s turns t) : d.Kept n t where
  interval := h.interval.passage hp
  fire := h.fire.passage hp

lemma Kept.beginInterval (h : d.Kept n s) (hs : s.Sound) :
    (d.beginInterval n s).2.1.Kept n (d.beginInterval n s).2.2 := by
  rw [Trickle.beginInterval]
  dsimp only
  have hp := hs.passage (s.course_schedule d.interval (.trickleInterval n)).course
  rcases hs.scheduleWith_cases s.context d.interval (.trickleInterval n) with
    ⟨e, he, -⟩ | ⟨id, t, ht, hseq, -, -, hfind, hnext⟩
  · rw [Simulator.schedule, he]
    exact ⟨h.interval, h.fire⟩
  · rw [Simulator.schedule, ht] at hp ⊢
    have hinterval : t.Owns id (.trickleInterval n) := .of_find? (by omega) hfind
    have hp' := hp.sound.passage
      (t.course_schedule (d.interval.scaleBy d.generator.upperHalf.1) (.trickleFire n)).course
    dsimp only
    rcases hp.sound.scheduleWith_cases t.context (d.interval.scaleBy d.generator.upperHalf.1)
      (.trickleFire n) with ⟨e, he, -⟩ | ⟨id', t', ht', hseq', -, -, hfind', hnext'⟩
    · rw [Simulator.schedule, he]
      exact ⟨hinterval, h.fire.passage hp⟩
    · rw [Simulator.schedule, ht'] at hp' ⊢
      exact ⟨hinterval.passage hp', .of_find? (by omega) hfind'⟩

lemma Kept.enable (h : d.Kept n s) (hs : s.Sound) :
    (d.enable n s).2.1.Kept n (d.enable n s).2.2 := by
  rw [enable_eq]
  exact Kept.beginInterval (d := d.drawn) ⟨h.interval, h.fire⟩ hs

lemma Kept.reset (h : d.Kept n s) (hs : s.Sound) :
    (d.reset n s).2.1.Kept n (d.reset n s).2.2 := by
  have hp := hs.passage (d.course_stop s).course
  exact Kept.beginInterval (d := { d with interval := d.minInterval })
    ⟨h.interval.passage hp, h.fire.passage hp⟩ hp.sound

lemma Kept.inconsistent (h : d.Kept n s) (hs : s.Sound) :
    (d.inconsistent n s).2.1.Kept n (d.inconsistent n s).2.2 := by
  rw [Trickle.inconsistent]
  split
  · exact h.reset hs
  · exact h

lemma Kept.endInterval (h : d.Kept n s) (hs : s.Sound) :
    (d.endInterval n s).1.Kept n (d.endInterval n s).2 := by
  rw [Trickle.endInterval]
  exact Kept.beginInterval (d := { d with interval := (d.interval.scale 2).earlier d.maxInterval })
    ⟨h.interval, h.fire⟩ hs

/-- The tasks of a trickle timer. -/
def OwnTask (n : Nat) (task : Task K) : Prop :=
  task = .trickleInterval n ∨ task = .trickleFire n

/-- The events a trickle timer names. -/
def OwnEvent (d : Trickle K) (id : EventId) : Prop := id = d.intervalEvent ∨ id = d.fireEvent

lemma confined_beginTurns {Q : EventId → Prop} (hs : s.Sound) (n : Nat) (d : Trickle K) :
    Confined (OwnTask n) Q (d.beginTurns n s) := by
  rw [beginTurns]
  have hp := hs.passage (s.course_schedule d.interval (.trickleInterval n)).course
  refine ((hs.confined_scheduleWith _ _ _).mono (fun _ => Or.inl) fun _ hid => hid).append ?_
  generalize s.schedule d.interval (.trickleInterval n) = first at hp ⊢
  obtain ⟨e | id, t⟩ := first
  · exact confined_nil
  · exact (hp.sound.confined_scheduleWith _ _ _).mono (fun _ => Or.inr) fun _ hid => hid

lemma confined_stopTurns {P : Task K → Prop} (d : Trickle K) (s : Simulator K) :
    Confined P d.OwnEvent (d.stopTurns s) :=
  ((Simulator.confined_cancelTurns _ s).mono (fun _ h => h) fun _ => Or.inl).append
    ((Simulator.confined_cancelTurns _ _).mono (fun _ h => h) fun _ => Or.inr)

lemma confined_resetTurns (hs : s.Sound) (n : Nat) (d : Trickle K) :
    Confined (OwnTask n) d.OwnEvent (d.resetTurns n s) :=
  (confined_stopTurns d s).append
    (confined_beginTurns (hs.passage (d.course_stop s).course).sound n _)

lemma confined_inconsistentTurns (hs : s.Sound) (n : Nat) (d : Trickle K) :
    Confined (OwnTask n) d.OwnEvent (d.inconsistentTurns n s) := by
  rw [inconsistentTurns]
  split
  · exact confined_resetTurns hs n d
  · exact confined_nil

end Trickle

end EventKernel
