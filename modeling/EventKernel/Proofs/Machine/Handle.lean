import EventKernel.Proofs.Machine.Clock
import EventKernel.Proofs.Simulator.Life

/-!
# The safety of handles

Whatever a run does, its turns tell what has become of every event, also of those whose slots have
been filled again. A handle expires when its event starts, is cancelled, is taken away, or is
dropped at teardown. It stays expired, and what is asked of it then concerns no other event.
-/

namespace EventKernel

open Simulator (Course Passage Told issueTurns)

variable {K U : Type} {s t : Simulator K} {keys : List EventKey} {turns : List (Turn K)}

/-! ### Histories of runs -/

namespace Simulator

lemma Told.setCount (h : Told turns s) (n : Nat) : Told turns { s with eventCount := n } where
  sound := { h.sound with }
  sequence_lt := h.sequence_lt
  nodup_issued := h.nodup_issued
  life := h.life

lemma Passage.setCount (h : Passage s turns t) (n : Nat) :
    Passage s turns { t with eventCount := n } where
  sound := { h.sound with }
  next_le := h.next_le
  held := h.held
  kept := h.kept
  fresh := h.fresh

/-- A course that brings no turns. -/
lemma Told.quiet (h : Told turns s) (hcourse : Course s [] t) : Told turns t := by
  have h := h.course hcourse
  rwa [List.append_nil] at h

end Simulator

namespace Machine

lemma told_move (code : Code K U) (mv : Move K U) {a : Machine K U} (h : a.sim.Timely keys)
    (hb : a.broken = false) (ht : a.sim.Told turns) :
    (move code a mv).sim.Told (turns ++ a.turns mv) := by
  cases moveCase code mv h hb with
  | course hnext hnone hbroken hcourse => exact ht.course hcourse
  | @round rest hstep hstack htaken hturns hround =>
    rw [hturns]
    generalize move code a mv = b at hround ⊢
    cases hround with
    | finish hnone hempty =>
      rw [hnone, Option.toList_none, List.flatMap_nil, List.append_nil]
      exact ht.quiet (course_finishRun a.sim)
    | @pass id ev q hsome hnext hcancelled =>
      rw [hsome, Option.toList_some, List.flatMap_singleton]
      exact ht.advance (ht.sound.advance_take hnext ev.key.time)
    | @start id ev q hsome hnext hlive =>
      obtain ⟨t, hcourse, hsim⟩ :=
        course_launch code id ev { a.sim with scheduler := q, now := ev.key.time } a.memory rest
      rw [hsome, Option.toList_some, List.flatMap_singleton, hsim]
      exact ((ht.advance (ht.sound.advance_take hnext ev.key.time)).quiet hcourse).setCount _

lemma told_play (code : Code K U) (moves : List (Move K U)) {a : Machine K U}
    (h : a.sim.Timely keys) (hb : a.broken = false) (ht : a.sim.Told turns) :
    (play code moves a).sim.Told (turns ++ chronicle code moves a) := by
  induction moves generalizing a keys turns with
  | nil =>
    rw [chronicle, List.append_nil]
    exact ht
  | cons mv moves ih =>
    obtain ⟨hb', h', -⟩ := timely_move code mv h hb
    rw [chronicle, ← List.append_assoc]
    exact ih h' hb' (told_move code mv h hb ht)

lemma passage_move (code : Code K U) (mv : Move K U) {a : Machine K U} (h : a.sim.Timely keys)
    (hb : a.broken = false) (hs : a.sim.Sound) :
    Passage a.sim (a.turns mv) (move code a mv).sim := by
  cases moveCase code mv h hb with
  | course hnext hnone hbroken hcourse => exact hs.passage hcourse
  | @round rest hstep hstack htaken hturns hround =>
    rw [hturns]
    generalize move code a mv = b at hround ⊢
    cases hround with
    | finish hnone hempty =>
      rw [hnone]
      exact hs.passage (course_finishRun a.sim)
    | @pass id ev q hsome hnext hcancelled =>
      rw [hsome, Option.toList_some, List.flatMap_singleton]
      exact (hs.advance_take hnext ev.key.time).passage
    | @start id ev q hsome hnext hlive =>
      obtain ⟨t, hcourse, hsim⟩ :=
        course_launch code id ev { a.sim with scheduler := q, now := ev.key.time } a.memory rest
      have htake := (hs.advance_take hnext ev.key.time).passage
      have hlaunch := htake.trans (htake.sound.passage hcourse)
      rw [List.append_nil] at hlaunch
      rw [hsome, Option.toList_some, List.flatMap_singleton, hsim]
      exact hlaunch.setCount _

/-! ### Expiry -/

lemma expired_iff (h : s.Told turns) {id : EventId} (hissued : Met turns id .issued) :
    s.isExpired id = true ↔
      Met turns id .started ∨ Met turns id .cancelled ∨ Met turns id .removed ∨
        Met turns id .dropped := by
  rw [h.sound.isExpired_eq, Bool.not_eq_true', (h.life id).pending_iff hissued]

/-- A call that gives a handle out stores an event under it, with a new sequence number. -/
lemma find?_of_ok (h : s.Sound) {r : Except SimError EventId × Simulator K}
    (hr : (∃ context delay task, r = s.scheduleWith context delay task) ∨
      ∃ task, r = s.scheduleDestroy task) {id : EventId} (hok : r.1 = .ok id) :
    id.sequence = s.sequences.next ∧ ∃ ev, r.2.find? id = some ev := by
  rcases hr with ⟨context, delay, task, rfl⟩ | ⟨task, rfl⟩
  · rw [Simulator.scheduleWith] at hok ⊢
    split at hok
    · cases hok
    · split at hok
      · cases hok
      · next halive hdelay =>
        obtain ⟨hseq, -, hfind⟩ := h.find?_insert context delay task
        obtain rfl := Except.ok.inj hok
        rw [if_neg halive, if_neg hdelay]
        exact ⟨hseq, _, (hfind _).trans (if_pos rfl)⟩
  · by_cases halive : s.phase = .destroyed
    · rw [Simulator.scheduleDestroy, if_pos halive] at hok
      cases hok
    · obtain ⟨hid, hfind⟩ := h.find?_register task halive
      rw [hid] at hok
      obtain rfl := Except.ok.inj hok
      exact ⟨rfl, _, (hfind _).trans (if_pos rfl)⟩

lemma issued_of_ok (h : s.Told turns) {r : Except SimError EventId × Simulator K}
    (hr : (∃ context delay task, r = s.scheduleWith context delay task) ∨
      ∃ task, r = s.scheduleDestroy task) {id : EventId} (hok : r.1 = .ok id) :
    Met (issueTurns r) id .issued ∧ ¬Met turns id .issued := by
  obtain ⟨hseq, ev, hev⟩ := find?_of_ok h.sound hr hok
  constructor
  · obtain ⟨answer, t⟩ := r
    obtain rfl : answer = .ok id := hok
    rw [issueTurns, Simulator.turn_eq_of_find? .issued hev]
    exact ⟨_, List.mem_singleton_self _, rfl, rfl⟩
  · rintro ⟨x, hx, rfl, -⟩
    have hlt := (h.sequence_lt x hx).2
    omega

/-- A handle that has expired names at most a record that was cancelled. -/
lemma of_expired (h : s.Sound) {id : EventId} (hexpired : s.isExpired id = true) :
    s.cancel id = (false, s) ∧
      (s.remove id = (false, s) ∨
        (∃ ev, s.find? id = some ev ∧ ev.cancelled = true) ∧
        (s.remove id).1 = true ∧
        (s.remove id).2 = { s with
          scheduler := (s.remove id).2.scheduler, teardown := (s.remove id).2.teardown } ∧
        ∀ j, (s.remove id).2.find? j = if j = id then none else s.find? j) := by
  rw [h.isExpired_eq, Bool.not_eq_true'] at hexpired
  refine ⟨(h.find?_cancel id).2.1 hexpired, ?_⟩
  obtain ⟨hfound, hsame, hfind⟩ := h.find?_remove id
  cases hev : s.find? id with
  | none => exact Or.inl (hsame hev)
  | some ev =>
    rw [hev, Option.any_some, Bool.not_eq_false'] at hexpired
    refine Or.inr ⟨⟨ev, rfl, hexpired⟩, by rw [hfound, hev]; rfl, ?_, hfind⟩
    simp only [Simulator.remove]
    split
    · rfl
    · split <;> rfl

/-- A handle expires exactly when its event starts, is cancelled, is taken away or is dropped. From
then on it stays expired, cancelling it changes nothing, and taking it away can only take the record
of its own cancelled event. No two handles are equal. -/
theorem handle_safety (code : Code K U) (identity : Nat) (kind : QueueKind) (buckets : Nat)
    (sync : SyncMode) (m : Memory K U) (moves : List (Move K U)) :
    let a := play code moves (idle identity kind buckets sync m)
    let turns := chronicle code moves (idle identity kind buckets sync m)
    ((turns.filter (·.fate = .issued)).map (·.id)).Nodup ∧
    (∀ r, ((∃ context delay task, r = a.sim.scheduleWith context delay task) ∨
        ∃ task, r = a.sim.scheduleDestroy task) →
      ∀ id, r.1 = .ok id → Met (issueTurns r) id .issued ∧ ¬Met turns id .issued) ∧
    ∀ id, Met turns id .issued →
      (a.sim.isExpired id = true ↔
        Met turns id .started ∨ Met turns id .cancelled ∨ Met turns id .removed ∨
          Met turns id .dropped) ∧
      (a.sim.isExpired id = true →
        (∀ more, (play code more a).sim.isExpired id = true) ∧
        a.sim.cancel id = (false, a.sim) ∧
        (a.sim.remove id = (false, a.sim) ∨
          (∃ ev, a.sim.find? id = some ev ∧ ev.cancelled = true) ∧
          (a.sim.remove id).1 = true ∧
          (a.sim.remove id).2 = { a.sim with
            scheduler := (a.sim.remove id).2.scheduler,
            teardown := (a.sim.remove id).2.teardown } ∧
          ∀ j, (a.sim.remove id).2.find? j = if j = id then none else a.sim.find? j)) := by
  intro a turns
  obtain ⟨hbroken, htimely, -⟩ := timely_play code moves
    (a := idle identity kind buckets sync m) (Simulator.timely_create ..) rfl
  have h : a.sim.Told turns := told_play code moves (a := idle identity kind buckets sync m)
    (Simulator.timely_create ..) rfl (Simulator.told_create ..)
  refine ⟨?_, fun r hr id hok => issued_of_ok h hr hok, ?_⟩
  · have hnodup := h.nodup_issued
    rw [← Function.comp_def EventId.sequence, ← List.map_map] at hnodup
    exact hnodup.of_map _
  · intro id hissued
    refine ⟨expired_iff h hissued, ?_⟩
    intro hexpired
    refine ⟨?_, of_expired h.sound hexpired⟩
    intro more
    have hlater := told_play code more htimely hbroken h
    rw [expired_iff hlater (met_append.mpr (Or.inl hissued))]
    rw [expired_iff h hissued] at hexpired
    simp only [met_append]
    rcases hexpired with hmet | hmet | hmet | hmet
    · exact Or.inl (Or.inl hmet)
    · exact Or.inr (Or.inl (Or.inl hmet))
    · exact Or.inr (Or.inr (Or.inl (Or.inl hmet)))
    · exact Or.inr (Or.inr (Or.inr (Or.inl hmet)))

end Machine

end EventKernel
