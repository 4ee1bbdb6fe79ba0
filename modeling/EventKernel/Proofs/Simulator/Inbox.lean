import EventKernel.Proofs.Simulator.Life

/-!
# What passes through an inbox

An open inbox keeps what is handed in, in order, and a closed one refuses it. When a simulator
empties its inbox, it stores the events one after the other, each under a handle of its own that it
has not given out before.
-/

namespace EventKernel

/-! ### Handing in -/

namespace Inbox

variable {α : Type} {b b' b'' : Inbox α} {evs more : List (RemoteEvent α)}

/-- The events behind those that wait are accepted, unless the inbox is closed. -/
structure Gains (b : Inbox α) (evs : List (RemoteEvent α)) (b' : Inbox α) : Prop where
  closed : b'.closed = b.closed
  events : b'.events.toList = b.events.toList ++ if b.closed then [] else evs

lemma Gains.refl (b : Inbox α) : Gains b [] b where
  closed := rfl
  events := by simp

lemma gains_push {ev : RemoteEvent α} (hev : ev.delay.isNegative = false) (b : Inbox α) :
    Gains b [ev] (b.push ev).2 := by
  rw [push, hev, if_neg Bool.false_ne_true]
  split
  · next hclosed => exact ⟨rfl, by simp [hclosed]⟩
  · next hopen => exact ⟨rfl, by simp [hopen]⟩

lemma push_of_isNegative {ev : RemoteEvent α} (hev : ev.delay.isNegative = true) (b : Inbox α) :
    b.push ev = (.error (.negativeDelay ev.delay), b) := by
  rw [push, if_pos hev]

end Inbox

/-! ### Emptying the inbox -/

variable {K : Type}

/-- An event from outside that was stored, with the time on the clock and the handle it got. -/
structure Insertion (K : Type) where
  now : Time
  event : RemoteEvent (Task K)
  id : EventId

/-- What is stored: the event in its own context, `delay` behind the time on the clock. -/
def Insertion.stored (x : Insertion K) : Event (Task K) where
  key := ⟨x.now + x.event.delay, x.id.sequence⟩
  context := x.event.context
  task := x.event.task

def Insertion.turn (x : Insertion K) : Turn K := ⟨x.id, .issued, x.stored⟩

namespace Simulator

variable {s : Simulator K} {evs : List (RemoteEvent (Task K))}

/-- Storing events handed in from outside, one after the other. -/
def insertions : List (RemoteEvent (Task K)) → Simulator K → List (Insertion K)
  | [], _ => []
  | ev :: evs, s =>
    let (id, t) := s.insert ev.context ev.delay ev.task
    ⟨s.now, ev, id⟩ :: insertions evs t

lemma map_event_insertions (evs : List (RemoteEvent (Task K))) (s : Simulator K) :
    (insertions evs s).map (·.event) = evs := by
  induction evs generalizing s with
  | nil => rfl
  | cons ev evs ih => exact congrArg (ev :: ·) (ih _)

lemma now_of_mem_insertions {x : Insertion K} (hx : x ∈ insertions evs s) : x.now = s.now := by
  induction evs generalizing s with
  | nil => cases hx
  | cons ev evs ih =>
    rcases List.mem_cons.mp hx with rfl | hx
    · rfl
    · have hnow := ih hx
      exact hnow

lemma queued_of_mem_insertions {x : Insertion K} (hx : x ∈ insertions evs s) :
    ∃ slot n, x.id = .queued slot n := by
  induction evs generalizing s with
  | nil => cases hx
  | cons ev evs ih =>
    rcases List.mem_cons.mp hx with rfl | hx
    · exact ⟨_, _, rfl⟩
    · exact ih hx

section

variable (h : s.Sound) (hevs : ∀ ev ∈ evs, ev.delay.isNegative = false)
include h hevs

/-- Sequence numbers are given out in order. -/
lemma Sound.sequence_insertions :
    (insertions evs s).map (·.id.sequence) = List.range' s.sequences.next evs.length := by
  induction evs generalizing s with
  | nil => rfl
  | cons ev evs ih =>
    obtain ⟨hev, hevs⟩ := List.forall_mem_cons.mp hevs
    have hinsert := (h.eventChange (.insert s ev.context ev.task hev)).sound
    obtain ⟨hseq, -⟩ := h.find?_insert ev.context ev.delay ev.task
    rw [insertions, List.map_cons, ih hinsert hevs, hseq]
    rfl

lemma Sound.le_sequence_insertions {x : Insertion K} (hx : x ∈ insertions evs s) :
    s.sequences.next ≤ x.id.sequence := by
  have hmem : x.id.sequence ∈ (insertions evs s).map (·.id.sequence) := List.mem_map_of_mem hx
  rw [h.sequence_insertions hevs, List.mem_range'_1] at hmem
  exact hmem.1

lemma Sound.pairwise_insertions :
    (insertions evs s).Pairwise fun x y => x.now ≤ y.now ∧ x.id.sequence < y.id.sequence := by
  have hsequences : ((insertions evs s).map (·.id.sequence)).Pairwise (· < ·) := by
    rw [h.sequence_insertions hevs]
    exact List.pairwise_lt_range'
  refine (List.pairwise_map.mp hsequences).imp_of_mem ?_
  intro x y hx hy hlt
  rw [now_of_mem_insertions hx, now_of_mem_insertions hy]
  exact ⟨Int.le_refl _, hlt⟩

lemma Sound.map_turn_insertions : (insertions evs s).map Insertion.turn = insertTurns evs s := by
  induction evs generalizing s with
  | nil => rfl
  | cons ev evs ih =>
    obtain ⟨hev, hevs⟩ := List.forall_mem_cons.mp hevs
    have hinsert := (h.eventChange (.insert s ev.context ev.task hev)).sound
    obtain ⟨hseq, -, hfind⟩ := h.find?_insert ev.context ev.delay ev.task
    have hself := (hfind _).trans (if_pos rfl)
    rw [insertions, List.map_cons, ih hinsert hevs]
    simp only [insertTurns]
    rw [turn_eq_of_find? .issued hself, Insertion.turn, Insertion.stored, hseq]
    rfl

/-- Behind the insertions every handle names its event, and in front of them it names none. -/
lemma Sound.find?_insertions {x : Insertion K} (hx : x ∈ insertions evs s) :
    s.find? x.id = none ∧ (insertAll evs s).find? x.id = some x.stored := by
  have hnone : s.find? x.id = none := by
    refine Option.eq_none_iff_forall_ne_some.mpr fun ev hev => ?_
    exact absurd (h.lt_next _ ev hev).2 (Nat.not_lt.mpr (h.le_sequence_insertions hevs hx))
  refine ⟨hnone, ?_⟩
  clear hnone
  induction evs generalizing s with
  | nil => cases hx
  | cons ev evs ih =>
    obtain ⟨hev, hevs⟩ := List.forall_mem_cons.mp hevs
    have hinsert := (h.eventChange (.insert s ev.context ev.task hev)).sound
    rcases List.mem_cons.mp hx with hx | hx
    · obtain ⟨hseq, -, hfind⟩ := h.find?_insert ev.context ev.delay ev.task
      have hself := (hfind _).trans (if_pos rfl)
      have hid : x.id = (s.insert ev.context ev.delay ev.task).1 := congrArg Insertion.id hx
      have hrest := (hinsert.passage (course_insertAll evs hevs _).course).find?_eq
        (hinsert.lt_next _ _ hself).2 ?_
      · show (insertAll evs (s.insert ev.context ev.delay ev.task).2).find? _ = _
        rw [Insertion.stored, hid, hrest, hself, hseq, hx]
      · rw [← hinsert.map_turn_insertions hevs]
        rintro y hy -
        obtain ⟨z, -, rfl⟩ := List.mem_map.mp hy
        rfl
    · exact ih hinsert hevs hx

end

end Simulator

end EventKernel
