import EventKernel.Proofs.Scheduler.Lookup
import EventKernel.Proofs.Simulator.Teardown
import EventKernel.Simulator.Basic

/-!
# The turns of events

What happens to the events of a simulator, as a list of turns: an event is issued, which gives its
handle out, and later it is started, or cancelled and then skipped, or removed, or dropped at
teardown. A turn names the event by its handle, and tells what it was scheduled with.

Every call of the interface is a course of a few kinds of elementary changes, each with the turns it
brings.
-/

namespace EventKernel

variable {K : Type}

/-! ### Turns -/

/-- What can happen to an event. -/
inductive Fate where
  | issued
  | cancelled
  /-- The event is taken away by request. -/
  | removed
  /-- The event is taken out in its turn, to be run. -/
  | started
  /-- The event is taken out in its turn, but was cancelled and does not run. -/
  | skipped
  /-- The event goes with its simulator. -/
  | dropped
  deriving DecidableEq

/-- The event as it was scheduled. -/
def Event.unmarked {α : Type} (ev : Event α) : Event α := { ev with cancelled := false }

lemma Event.of_unmarked_eq {α : Type} {a b : Event α} (h : a.unmarked = b.unmarked) :
    a.key = b.key ∧ a.task = b.task := by
  have hkey := congrArg Event.key h
  have htask := congrArg Event.task h
  exact ⟨hkey, htask⟩

/-- A turn in the life of an event. -/
structure Turn (K : Type) where
  id : EventId
  fate : Fate
  /-- The event as it was scheduled. -/
  event : Event (Task K)

/-- A teardown event seen as one that is due as late as the clock can go, under no context. -/
def TeardownEvent.toEvent (ev : TeardownEvent (Task K)) : Event (Task K) where
  key := ⟨.never, ev.sequence⟩
  context := .none
  task := ev.task
  cancelled := ev.cancelled

namespace Simulator

variable {s t u : Simulator K} {turns more : List (Turn K)}

/-- The event a handle names, of either kind. -/
def find? (s : Simulator K) : EventId → Option (Event (Task K))
  | .queued slot n => s.scheduler.get? (.queued slot n)
  | .destroy n => (s.teardown.get? n).map TeardownEvent.toEvent

/-- The turn of the event a handle names. -/
def turn (fate : Fate) (s : Simulator K) (id : EventId) : List (Turn K) :=
  (s.find? id).toList.map fun ev => ⟨id, fate, ev.unmarked⟩

/-- A call that issues a handle, unless it is refused. -/
def issueTurns : Except SimError EventId × Simulator K → List (Turn K)
  | (.ok id, s) => s.turn .issued id
  | (.error _, _) => []

def cancelTurns (id : EventId) (s : Simulator K) : List (Turn K) :=
  if (s.cancel id).1 then s.turn .cancelled id else []

def removeTurns (id : EventId) (s : Simulator K) : List (Turn K) :=
  if (s.remove id).1 then s.turn .removed id else []

/-- Storing events handed in from outside, one after the other. -/
def insertTurns : List (RemoteEvent (Task K)) → Simulator K → List (Turn K)
  | [], _ => []
  | ev :: evs, s =>
    let (id, s) := s.insert ev.context ev.delay ev.task
    s.turn .issued id ++ insertTurns evs s

/-- The turn of an event that is taken out when its turn has come. -/
def takeTurn (s : Simulator K) (id : EventId) : List (Turn K) :=
  (s.find? id).toList.map fun ev => ⟨id, if ev.cancelled then .skipped else .started, ev.unmarked⟩

/-- The handles of the teardown events that are taken out to get at the next one to run. -/
def reached (s : Simulator K) : List EventId :=
  (s.teardown.takeWhile (·.cancelled) ++ s.teardown.popLive.1.toList).map fun ev =>
    .destroy ev.sequence

/-- Taking out the next teardown event that was not cancelled. -/
def teardownTurns (s : Simulator K) : List (Turn K) := s.reached.flatMap s.takeTurn

/-- The handles of all events that are held. -/
def handles (s : Simulator K) : List EventId :=
  s.scheduler.arena.entries.map .ofEntry ++ s.teardown.sequences.map .destroy

/-- Dropping all events. -/
def dropTurns (s : Simulator K) : List (Turn K) := s.handles.flatMap (s.turn .dropped)

/-! ### Elementary changes and courses -/

/-- An elementary change of the events of a simulator with its turns. -/
inductive EventChange : Simulator K → List (Turn K) → Simulator K → Prop where
  | insert (s : Simulator K) (context : ContextId) {delay : Time} (task : Task K)
      (hdelay : delay.isNegative = false) :
      EventChange s ((s.insert context delay task).2.turn .issued (s.insert context delay task).1)
        (s.insert context delay task).2
  /-- Only code of the user is registered for teardown. -/
  | register (s : Simulator K) (k : K) (halive : s.phase ≠ .destroyed) :
      EventChange s (issueTurns (s.scheduleDestroy (.user k))) (s.scheduleDestroy (.user k)).2
  | cancel (s : Simulator K) (id : EventId) : EventChange s (s.cancelTurns id) (s.cancel id).2
  | remove (s : Simulator K) (id : EventId) : EventChange s (s.removeTurns id) (s.remove id).2
  | setKind (s : Simulator K) (kind : QueueKind) :
      EventChange s [] { s with scheduler := s.scheduler.setKind kind }
  | popLive (s : Simulator K) :
      EventChange s s.teardownTurns { s with teardown := s.teardown.popLive.2 }
  | clear (s : Simulator K) :
      EventChange s s.dropTurns { s with teardown := [], scheduler := s.scheduler.clear }

/-- An elementary change of a simulator with its turns. -/
inductive Change : Simulator K → List (Turn K) → Simulator K → Prop where
  | events {s t : Simulator K} {turns : List (Turn K)} (h : EventChange s turns t) :
      Change s turns t
  /-- The inbox changes, but accepts only code of the user, and no negative delays. -/
  | inbox (s : Simulator K) (b : Inbox (Task K))
      (hb : ∀ ev ∈ b.events, ev ∈ s.inbox.events ∨
        ev.delay.isNegative = false ∧ ∃ k, ev.task = .user k) :
      Change s [] { s with inbox := b }
  /-- What does not concern events changes. -/
  | other (s : Simulator K) (context : ContextId) (phase : Phase) (stopRequested : Bool)
      (sync : SyncMode) (observer : Option K) :
      Change s [] { s with
        context := context, phase := phase, stopRequested := stopRequested, sync := sync,
        observer := observer }

/-- A chain of changes with all turns in order. -/
inductive Chain (R : Simulator K → List (Turn K) → Simulator K → Prop) :
    Simulator K → List (Turn K) → Simulator K → Prop where
  | refl (s : Simulator K) : Chain R s [] s
  | tail {s t u : Simulator K} {turns more : List (Turn K)} (h : Chain R s turns t)
      (hchange : R t more u) : Chain R s (turns ++ more) u

/-- A chain of elementary changes of events. -/
abbrev EventCourse : Simulator K → List (Turn K) → Simulator K → Prop := Chain EventChange

/-- A chain of elementary changes. -/
abbrev Course : Simulator K → List (Turn K) → Simulator K → Prop := Chain Change

section

variable {R : Simulator K → List (Turn K) → Simulator K → Prop}

lemma Chain.single (h : R s turns t) : Chain R s turns t := (Chain.refl s).tail h

lemma Chain.trans (h : Chain R s turns t) (h' : Chain R t more u) :
    Chain R s (turns ++ more) u := by
  induction h' with
  | refl => rwa [List.append_nil]
  | tail _ hchange ih =>
    rw [← List.append_assoc]
    exact ih.tail hchange

/-- A chain goes on with changes that bring no turns. -/
lemma Chain.quiet (h : Chain R s turns t) (h' : R t [] u) : Chain R s turns u := by
  have h := h.tail h'
  rwa [List.append_nil] at h

end

lemma EventCourse.course (h : EventCourse s turns t) : Course s turns t := by
  induction h with
  | refl => exact .refl _
  | tail _ hchange ih => exact ih.tail (.events hchange)

/-! ### Scheduling -/

lemma course_scheduleWith (context : ContextId) (delay : Time) (task : Task K)
    (s : Simulator K) :
    EventCourse s (issueTurns (s.scheduleWith context delay task))
      (s.scheduleWith context delay task).2 := by
  rw [scheduleWith]
  split
  · exact .refl s
  · split
    · exact .refl s
    · next h => exact .single (.insert s context task (Bool.eq_false_iff.mpr h))

lemma course_schedule (delay : Time) (task : Task K) (s : Simulator K) :
    EventCourse s (issueTurns (s.schedule delay task)) (s.schedule delay task).2 :=
  course_scheduleWith s.context delay task s

lemma course_scheduleDestroy (k : K) (s : Simulator K) :
    EventCourse s (issueTurns (s.scheduleDestroy (.user k))) (s.scheduleDestroy (.user k)).2 := by
  by_cases h : s.phase = .destroyed
  · rw [scheduleDestroy, if_pos h]
    exact .refl s
  · exact .single (.register s k h)

lemma course_cancel (id : EventId) (s : Simulator K) :
    EventCourse s (s.cancelTurns id) (s.cancel id).2 :=
  .single (.cancel s id)

/-! ### The inbox -/

lemma course_push (context : ContextId) (delay : Time) (k : K) (s : Simulator K) :
    Course s [] { s with inbox := (s.inbox.push ⟨context, delay, .user k⟩).2 } := by
  rw [Inbox.push]
  split
  · exact .refl s
  · next hev =>
    split
    · exact .refl s
    · refine .single (.inbox s _ ?_)
      intro x hx
      rcases Array.mem_push.mp hx with hx | rfl
      · exact Or.inl hx
      · exact Or.inr ⟨Bool.eq_false_iff.mpr hev, k, rfl⟩

/-- The inbox keeps its events or loses some. -/
lemma course_inbox {b : Inbox (Task K)} (hb : ∀ ev ∈ b.events, ev ∈ s.inbox.events) :
    Course s [] { s with inbox := b } :=
  .single (.inbox s b fun ev hev => Or.inl (hb ev hev))

/-- Store events handed in from outside, one after the other. -/
def insertAll (evs : List (RemoteEvent (Task K))) (s : Simulator K) : Simulator K :=
  evs.foldl (fun s ev => (s.insert ev.context ev.delay ev.task).2) s

lemma drainInbox_eq (s : Simulator K) :
    s.drainInbox = insertAll s.inbox.events.toList { s with inbox := s.inbox.clear } := by
  rw [drainInbox]
  split
  · next h =>
    obtain ⟨identity, scheduler, sequences, teardown, ⟨events, closed, stop⟩⟩ := s
    obtain rfl : events = #[] := Array.isEmpty_iff.mp h
    rfl
  · exact (Array.foldl_toList _).symm

lemma drainInbox_of_isEmpty (h : s.inbox.events = #[]) : s.drainInbox = s := by
  rw [drainInbox]
  exact if_pos (Array.isEmpty_iff.mpr h)

lemma insertAll_unchanged (evs : List (RemoteEvent (Task K))) (s : Simulator K) :
    insertAll evs s = { s with
      scheduler := (insertAll evs s).scheduler, sequences := (insertAll evs s).sequences } := by
  induction evs generalizing s with
  | nil => rfl
  | cons ev evs ih => exact ih _

/-- Emptying the inbox leaves no events in it, and its flags as they were. -/
lemma inbox_drainInbox (s : Simulator K) :
    s.drainInbox.inbox = s.inbox.clear ∧ s.drainInbox.stopRequested = s.stopRequested := by
  rw [drainInbox_eq, insertAll_unchanged]
  exact ⟨rfl, rfl⟩

lemma course_insertAll (evs : List (RemoteEvent (Task K)))
    (hevs : ∀ ev ∈ evs, ev.delay.isNegative = false) (s : Simulator K) :
    EventCourse s (insertTurns evs s) (insertAll evs s) := by
  induction evs generalizing s with
  | nil => exact .refl s
  | cons ev evs ih =>
    have hev : EventChange s _ (s.insert ev.context ev.delay ev.task).2 :=
      .insert s ev.context ev.task (hevs ev List.mem_cons_self)
    exact (Chain.single hev).trans (ih (fun x hx => hevs x (List.mem_cons_of_mem ev hx)) _)

/-- Emptying the inbox. -/
def drainTurns (s : Simulator K) : List (Turn K) :=
  insertTurns s.inbox.events.toList { s with inbox := s.inbox.clear }

lemma course_drainInbox (h : ∀ ev ∈ s.inbox.events, ev.delay.isNegative = false) :
    Course s s.drainTurns s.drainInbox := by
  rw [drainInbox_eq]
  have hclear : Course s [] { s with inbox := s.inbox.clear } :=
    course_inbox fun ev hev => by simp [Inbox.clear] at hev
  have hinsert := course_insertAll s.inbox.events.toList
    (fun ev hev => h ev (Array.mem_toList_iff.mp hev)) { s with inbox := s.inbox.clear }
  exact hclear.trans hinsert.course

/-! ### What courses leave alone -/

/-- Changes of events touch nothing but the events and their numbers. -/
lemma EventChange.unchanged (h : EventChange s turns t) :
    t = { s with
      scheduler := t.scheduler, sequences := t.sequences, teardown := t.teardown } := by
  cases h with
  | register k halive =>
    rw [scheduleDestroy, if_neg halive]
  | cancel id =>
    simp only [Simulator.cancel]
    split
    · rfl
    · split <;> rfl
  | remove id =>
    simp only [Simulator.remove]
    split
    · rfl
    · split <;> rfl
  | insert | setKind | popLive | clear => rfl

lemma EventCourse.unchanged (h : EventCourse s turns t) :
    t = { s with
      scheduler := t.scheduler, sequences := t.sequences, teardown := t.teardown } := by
  induction h with
  | refl => rfl
  | tail _ hchange ih =>
    rw [hchange.unchanged, ih]

lemma Change.unchanged (h : Change s turns t) :
    t.identity = s.identity ∧ t.now = s.now ∧ t.eventCount = s.eventCount := by
  cases h with
  | events h =>
    rw [h.unchanged]
    exact ⟨rfl, rfl, rfl⟩
  | inbox | other => exact ⟨rfl, rfl, rfl⟩

lemma Course.unchanged (h : Course s turns t) :
    t.identity = s.identity ∧ t.now = s.now ∧ t.eventCount = s.eventCount := by
  induction h with
  | refl => exact ⟨rfl, rfl, rfl⟩
  | tail _ hchange ih =>
    obtain ⟨hidentity, hnow, hcount⟩ := hchange.unchanged
    exact ⟨hidentity.trans ih.1, hnow.trans ih.2.1, hcount.trans ih.2.2⟩

/-- What waits in the inbox was there before, or is code of the user. -/
lemma Course.mem_inbox (h : Course s turns t) :
    ∀ ev ∈ t.inbox.events, ev ∈ s.inbox.events ∨ ∃ k, ev.task = .user k := by
  induction h with
  | refl => exact fun ev hev => Or.inl hev
  | @tail t u _ _ _ hchange ih =>
    have hchange : ∀ ev ∈ u.inbox.events, ev ∈ t.inbox.events ∨ ∃ k, ev.task = .user k := by
      cases hchange with
      | events h =>
        rw [h.unchanged]
        exact fun ev hev => Or.inl hev
      | inbox b hb => exact fun ev hev => (hb ev hev).imp_right And.right
      | other => exact fun ev hev => Or.inl hev
    intro ev hev
    rcases hchange ev hev with hev | huser
    · exact ih ev hev
    · exact Or.inr huser

/-- What is registered for teardown was there before, or is code of the user. -/
lemma EventChange.mem_teardown (h : EventChange s turns t) :
    ∀ ev ∈ t.teardown, ev.task ∈ s.teardown.map (·.task) ∨ ∃ k, ev.task = .user k := by
  have hsame : ∀ ev ∈ s.teardown, ev.task ∈ s.teardown.map (·.task) ∨ ∃ k, ev.task = .user k :=
    fun ev hev => Or.inl (List.mem_map_of_mem hev)
  cases h with
  | insert | setKind => exact hsame
  | register k halive =>
    rw [scheduleDestroy, if_neg halive]
    intro ev hev
    rcases List.mem_append.mp hev with hev | hev
    · exact hsame ev hev
    · rw [List.mem_singleton.mp hev]
      exact Or.inr ⟨k, rfl⟩
  | cancel id =>
    simp only [Simulator.cancel]
    split
    · exact hsame
    · split
      · intro ev hev
        rw [← TeardownList.map_task_cancel]
        exact Or.inl (List.mem_map_of_mem hev)
      · exact hsame
  | remove id =>
    simp only [Simulator.remove]
    split
    · exact hsame
    · split
      · exact fun ev hev => hsame ev ((TeardownList.remove_sublist _ _).subset hev)
      · exact hsame
  | popLive =>
    obtain ⟨rest, hl, hrest, -⟩ := s.teardown.popLive_eq
    intro ev hev
    refine hsame ev ?_
    rw [hl, ← hrest]
    exact List.mem_append_right _ hev
  | clear =>
    intro ev hev
    cases hev

lemma Course.mem_teardown (h : Course s turns t) :
    ∀ ev ∈ t.teardown, ev.task ∈ s.teardown.map (·.task) ∨ ∃ k, ev.task = .user k := by
  induction h with
  | refl => exact fun ev hev => Or.inl (List.mem_map_of_mem hev)
  | tail _ hchange ih =>
    cases hchange with
    | events hchange =>
      intro ev hev
      rcases hchange.mem_teardown ev hev with hold | huser
      · obtain ⟨old, hold, hsame⟩ := List.mem_map.mp hold
        rw [← hsame]
        exact ih old hold
      · exact Or.inr huser
    | inbox | other => exact ih

/-- No queued event is taken out in its turn. -/
lemma EventChange.id_of_taken (h : EventChange s turns t) {x : Turn K} (hx : x ∈ turns)
    (hfate : x.fate = .started ∨ x.fate = .skipped) : ∃ n, x.id = .destroy n := by
  have hturn : ∀ {s : Simulator K} {fate id}, x ∈ s.turn fate id →
      fate ≠ .started → fate ≠ .skipped → ∃ n, x.id = .destroy n := by
    intro s fate id hx hstarted hskipped
    obtain ⟨ev, -, rfl⟩ := List.mem_map.mp hx
    exact absurd hfate (not_or.mpr ⟨hstarted, hskipped⟩)
  cases h with
  | insert => exact hturn hx Fate.noConfusion Fate.noConfusion
  | register k halive =>
    rw [scheduleDestroy, if_neg halive] at hx
    exact hturn hx Fate.noConfusion Fate.noConfusion
  | cancel id =>
    rw [cancelTurns] at hx
    split at hx
    · exact hturn hx Fate.noConfusion Fate.noConfusion
    · cases hx
  | remove id =>
    rw [removeTurns] at hx
    split at hx
    · exact hturn hx Fate.noConfusion Fate.noConfusion
    · cases hx
  | popLive =>
    obtain ⟨j, hj, hx⟩ := List.mem_flatMap.mp hx
    obtain ⟨ev, -, rfl⟩ := List.mem_map.mp hj
    obtain ⟨ev', -, rfl⟩ := List.mem_map.mp hx
    exact ⟨ev.sequence, rfl⟩
  | clear =>
    obtain ⟨j, -, hx⟩ := List.mem_flatMap.mp hx
    exact hturn hx Fate.noConfusion Fate.noConfusion
  | setKind => cases hx

lemma Course.id_of_taken (h : Course s turns t) {x : Turn K} (hx : x ∈ turns)
    (hfate : x.fate = .started ∨ x.fate = .skipped) : ∃ n, x.id = .destroy n := by
  induction h with
  | refl => cases hx
  | tail _ hchange ih =>
    rcases List.mem_append.mp hx with hx | hx
    · exact ih hx
    · cases hchange with
      | events h => exact h.id_of_taken hx hfate
      | inbox | other => cases hx

end Simulator

end EventKernel
