import EventKernel.Proofs.Simulator.Life

/-!
# What handles can name

A call that schedules an event issues a handle for a certain task, and whatever happens later, the
handle names an event with this task or none. So the holder of a handle knows what it asks for.
-/

namespace EventKernel

open Simulator (Passage issueTurns)

variable {K : Type} {s t : Simulator K} {turns : List (Turn K)} {id : EventId}

/-! ### What turns can be about -/

/-- Whether no timer waits for a task. -/
def Task.IsPlain : Task K → Prop
  | .user _ | .stop => True
  | .watchdog _ | .trickleInterval _ | .trickleFire _ => False

/-- Whether turns issue events with some tasks only, and otherwise concern some events only. -/
def Confined (P : Task K → Prop) (Q : EventId → Prop) (turns : List (Turn K)) : Prop :=
  ∀ x ∈ turns, x.fate = .issued ∧ P x.event.task ∨ x.fate ≠ .issued ∧ Q x.id

section

variable {P P' : Task K → Prop} {Q Q' : EventId → Prop}

lemma confined_nil : Confined P Q [] := fun x hx => by cases hx

lemma Confined.append {more : List (Turn K)} (h : Confined P Q turns) (h' : Confined P Q more) :
    Confined P Q (turns ++ more) := by
  intro x hx
  rcases List.mem_append.mp hx with hx | hx
  · exact h x hx
  · exact h' x hx

lemma Confined.mono (h : Confined P Q turns) (hP : ∀ task, P task → P' task)
    (hQ : ∀ id, Q id → Q' id) : Confined P' Q' turns := by
  intro x hx
  exact (h x hx).imp (And.imp_right (hP _)) (And.imp_right (hQ _))

lemma Confined.of_issued (h : Confined P Q turns) {x : Turn K} (hx : x ∈ turns)
    (hissued : x.fate = .issued) : P x.event.task := by
  rcases h x hx with ⟨-, htask⟩ | ⟨hnot, -⟩
  · exact htask
  · exact absurd hissued hnot

lemma Confined.of_not_issued (h : Confined P Q turns) {x : Turn K} (hx : x ∈ turns)
    (hnot : x.fate ≠ .issued) : Q x.id := by
  rcases h x hx with ⟨hissued, -⟩ | ⟨-, hid⟩
  · exact absurd hissued hnot
  · exact hid

/-- Turns of one event that was issued before. -/
lemma confined_of_id (hturns : ∀ x ∈ turns, x.id = id ∧ x.fate ≠ .issued) :
    Confined P (· = id) turns :=
  fun x hx => Or.inr ⟨(hturns x hx).2, (hturns x hx).1⟩

end

namespace Simulator

/-- The time left until a pending event is due. -/
lemma Sound.delayLeft_of_pending (h : s.Sound) (hpending : s.isExpired id = false) :
    ∃ ev, s.find? id = some ev ∧ ev.cancelled = false ∧ s.delayLeft id = ev.key.time - s.now := by
  have hany := h.isExpired_eq id
  rw [hpending, eq_comm, Bool.not_eq_false'] at hany
  obtain ⟨ev, hev, hlive⟩ := (Option.any_eq_true _ _).mp hany
  refine ⟨ev, hev, by simpa using hlive, ?_⟩
  cases id with
  | queued slot n =>
    have hget : s.scheduler.get? (.queued slot n) = some ev := hev
    simp only [delayLeft, hpending, Bool.false_eq_true, if_false, hget]
  | destroy n =>
    obtain ⟨old, -, rfl⟩ := Option.map_eq_some_iff.mp hev
    simp only [delayLeft, hpending, Bool.false_eq_true, if_false]
    rfl

/-- What a call that schedules an event comes to. -/
lemma Sound.scheduleWith_cases (h : s.Sound) (context : ContextId) (delay : Time)
    (task : Task K) :
    (∃ e, s.scheduleWith context delay task = (.error e, s) ∧
      (s.phase = .destroyed ∨ delay.isNegative = true)) ∨
      ∃ id t, s.scheduleWith context delay task = (.ok id, t) ∧ id.sequence = s.sequences.next ∧
        delay.isNegative = false ∧
        issueTurns (.ok id, t) =
          [⟨id, .issued, { key := ⟨s.now + delay, s.sequences.next⟩, context, task }⟩] ∧
        t.find? id = some { key := ⟨s.now + delay, s.sequences.next⟩, context, task } ∧
        t.sequences.next = s.sequences.next + 1 := by
  rw [scheduleWith]
  split
  · next hphase => exact Or.inl ⟨_, rfl, Or.inl hphase⟩
  · split
    · next hdelay => exact Or.inl ⟨_, rfl, Or.inr hdelay⟩
    · next hdelay =>
      obtain ⟨hseq, -, hfind⟩ := h.find?_insert context delay task
      have hself := (hfind _).trans (if_pos rfl)
      refine Or.inr ⟨_, _, rfl, hseq, Bool.eq_false_iff.mpr hdelay, ?_, hself, rfl⟩
      exact turn_eq_of_find? .issued hself

section

variable {P : Task K → Prop} {Q : EventId → Prop}

lemma Sound.confined_scheduleWith (h : s.Sound) (context : ContextId) (delay : Time)
    (task : Task K) : Confined (· = task) Q (issueTurns (s.scheduleWith context delay task)) := by
  rcases h.scheduleWith_cases context delay task with ⟨e, he, -⟩ | ⟨id, t, ht, -, -, hturns, -⟩
  · rw [he]
    exact confined_nil
  · rw [ht, hturns]
    intro x hx
    rw [List.mem_singleton.mp hx]
    exact Or.inl ⟨rfl, rfl⟩

lemma Sound.confined_scheduleDestroy (h : s.Sound) (task : Task K) :
    Confined (· = task) Q (issueTurns (s.scheduleDestroy task)) := by
  by_cases halive : s.phase = .destroyed
  · rw [scheduleDestroy, if_pos halive]
    exact confined_nil
  · obtain ⟨hok, hfind⟩ := h.find?_register task halive
    generalize s.scheduleDestroy task = r at hok hfind ⊢
    obtain ⟨answer, t⟩ := r
    obtain rfl : answer = .ok (.destroy s.sequences.next) := hok
    rw [issueTurns, turn_eq_of_find? .issued ((hfind _).trans (if_pos rfl))]
    intro x hx
    rw [List.mem_singleton.mp hx]
    exact Or.inl ⟨rfl, rfl⟩

lemma confined_cancelTurns (id : EventId) (s : Simulator K) :
    Confined P (· = id) (s.cancelTurns id) := by
  rw [cancelTurns]
  split
  · refine confined_of_id ?_
    intro x hx
    obtain ⟨hid, hfate⟩ := of_mem_turn hx
    exact ⟨hid, by rw [hfate]; exact Fate.noConfusion⟩
  · exact confined_nil

lemma confined_removeTurns (id : EventId) (s : Simulator K) :
    Confined P (· = id) (s.removeTurns id) := by
  rw [removeTurns]
  split
  · exact confined_of_id fun x hx => of_mem_turn_leave (Or.inl rfl) hx
  · exact confined_nil

/-- What is stored from the inbox has the tasks that waited there. -/
lemma Sound.confined_insertTurns (h : s.Sound) {evs : List (RemoteEvent (Task K))}
    (hdelay : ∀ ev ∈ evs, ev.delay.isNegative = false) (hevs : ∀ ev ∈ evs, P ev.task) :
    Confined P Q (insertTurns evs s) := by
  induction evs generalizing s with
  | nil => exact confined_nil
  | cons ev evs ih =>
    have hinsert : EventChange s _ (s.insert ev.context ev.delay ev.task).2 :=
      .insert s ev.context ev.task (hdelay ev List.mem_cons_self)
    have hsound := (h.eventChange hinsert).sound
    have hfind := ((h.find?_insert ev.context ev.delay ev.task).2.2 _).trans (if_pos rfl)
    rw [insertTurns]
    generalize s.insert ev.context ev.delay ev.task = r at hsound hfind ⊢
    obtain ⟨id, t⟩ := r
    refine Confined.append ?_ (ih hsound (fun x hx => hdelay x (List.mem_cons_of_mem ev hx))
      fun x hx => hevs x (List.mem_cons_of_mem ev hx))
    rw [turn_eq_of_find? .issued hfind]
    intro x hx
    rw [List.mem_singleton.mp hx]
    exact Or.inl ⟨rfl, hevs ev List.mem_cons_self⟩

/-- What is taken out for teardown was registered for it. -/
lemma confined_teardownTurns (s : Simulator K) :
    Confined P (fun id => ∃ n, id = .destroy n) s.teardownTurns := by
  intro x hx
  obtain ⟨id, hid, hx⟩ := List.mem_flatMap.mp hx
  obtain ⟨ev, -, rfl⟩ := List.mem_map.mp hid
  obtain ⟨hx, hfate⟩ := of_mem_takeTurn hx
  exact Or.inr ⟨hfate, ev.sequence, hx⟩

lemma confined_dropTurns (s : Simulator K) : Confined P (fun _ => True) s.dropTurns := by
  intro x hx
  obtain ⟨id, -, hx⟩ := List.mem_flatMap.mp hx
  exact Or.inr ⟨(of_mem_turn_leave (Or.inr rfl) hx).2, trivial⟩

end

/-! ### Ownership -/

/-- Whether a handle can only name an event with a certain task. -/
def Owns (s : Simulator K) (id : EventId) (task : Task K) : Prop :=
  id.sequence < s.sequences.next ∧ ∀ ev, s.find? id = some ev → ev.task = task

variable {task : Task K}

lemma Owns.passage (h : s.Owns id task) (hp : Passage s turns t) : t.Owns id task := by
  refine ⟨Nat.lt_of_lt_of_le h.1 hp.next_le, ?_⟩
  intro ev hev
  obtain ⟨old, hold, -, htask, -⟩ := hp.held_of_lt hev h.1
  exact htask ▸ h.2 old hold

lemma Sound.owns_detached (h : s.Sound) (task : Task K) : s.Owns .detached task := by
  refine ⟨h.next_pos, ?_⟩
  intro ev hev
  rw [h.find?_of_isDetached rfl] at hev
  cases hev

lemma Owns.of_find? {ev : Event (Task K)} (hlt : id.sequence < s.sequences.next)
    (hev : s.find? id = some ev) : s.Owns id ev.task := by
  refine ⟨hlt, ?_⟩
  intro ev' hev'
  rw [hev] at hev'
  rw [Option.some.inj hev']

/-- Handles with different tasks do not name the same event. -/
lemma Owns.ne {j : EventId} {other : Task K} {ev : Event (Task K)} (h : s.Owns id task)
    (hev : s.find? j = some ev) (hother : ev.task = other) (hne : other ≠ task) : j ≠ id := by
  rintro rfl
  exact hne (hother.symm.trans (h.2 ev hev))

end Simulator

end EventKernel
