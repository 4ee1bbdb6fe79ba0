import EventKernel.Proofs.Scheduler.Alike
import EventKernel.Proofs.Simulator.Turn

/-!
# Simulators that differ in their queues

Two simulators that differ in nothing but the queues of their schedulers answer every question
alike, and still differ in nothing else behind it.
-/

namespace EventKernel.Simulator

variable {K : Type} {s t : Simulator K}

/-- Two simulators that differ only in the queues of their schedulers. -/
inductive Alike : Simulator K → Simulator K → Prop where
  | intro (s : Simulator K) {r : Scheduler (Task K)} (h : s.scheduler.Alike r) :
      Alike s { s with scheduler := r }

lemma alike_create (identity : Nat) (kind kind' : QueueKind) (buckets buckets' : Nat)
    (sync : SyncMode) :
    Alike (create identity kind buckets sync : Simulator K)
      (create identity kind' buckets' sync) :=
  .intro _ ⟨Scheduler.consistent_empty kind buckets, Scheduler.consistent_empty kind' buckets', rfl⟩

lemma Alike.now_eq (h : Alike s t) : t.now = s.now := by
  obtain ⟨-⟩ := h
  rfl

lemma Alike.inbox_eq (h : Alike s t) : t.inbox = s.inbox := by
  obtain ⟨-⟩ := h
  rfl

lemma Alike.eventCount_eq (h : Alike s t) : t.eventCount = s.eventCount := by
  obtain ⟨-⟩ := h
  rfl

/-! ### Scheduling -/

lemma Alike.insert (h : Alike s t) (context : ContextId) (delay : Time) (task : Task K) :
    ∃ id s' t', s.insert context delay task = (id, s') ∧ t.insert context delay task = (id, t') ∧
      Alike s' t' := by
  obtain ⟨hr⟩ := h
  obtain ⟨id, q, r', hq, hr', h'⟩ :=
    hr.insert { key := ⟨s.now + delay, s.sequences.next⟩, context, task }
  refine ⟨id, { s with scheduler := q, sequences := s.sequences.draw.2 }, _, ?_, ?_, .intro _ h'⟩
  · simp only [Simulator.insert, SequenceSource.draw, hq]
  · simp only [Simulator.insert, SequenceSource.draw, hr']

lemma Alike.scheduleWith (h : Alike s t) (context : ContextId) (delay : Time) (task : Task K) :
    ∃ a s' t', s.scheduleWith context delay task = (a, s') ∧
      t.scheduleWith context delay task = (a, t') ∧ Alike s' t' := by
  obtain ⟨id, s', t', hs, ht, h'⟩ := h.insert context delay task
  have hphase : t.phase = s.phase := by
    obtain ⟨-⟩ := h
    rfl
  rw [Simulator.scheduleWith, Simulator.scheduleWith]
  rw [hphase, hs, ht]
  split
  · exact ⟨_, _, _, rfl, rfl, h⟩
  · split
    · exact ⟨_, _, _, rfl, rfl, h⟩
    · exact ⟨_, _, _, rfl, rfl, h'⟩

lemma Alike.schedule (h : Alike s t) (delay : Time) (task : Task K) :
    ∃ a s' t', s.schedule delay task = (a, s') ∧ t.schedule delay task = (a, t') ∧
      Alike s' t' := by
  have hcontext : t.context = s.context := by
    obtain ⟨-⟩ := h
    rfl
  rw [Simulator.schedule, Simulator.schedule, hcontext]
  exact h.scheduleWith s.context delay task

lemma Alike.scheduleDestroy (h : Alike s t) (task : Task K) :
    ∃ a s' t', s.scheduleDestroy task = (a, s') ∧ t.scheduleDestroy task = (a, t') ∧
      Alike s' t' := by
  obtain ⟨hr⟩ := h
  rw [Simulator.scheduleDestroy, Simulator.scheduleDestroy]
  split
  · exact ⟨_, _, _, rfl, rfl, .intro s hr⟩
  · exact ⟨_, _, _, rfl, rfl, .intro _ hr⟩

/-! ### Handles -/

lemma Alike.cancel (h : Alike s t) (id : EventId) :
    ∃ b s' t', s.cancel id = (b, s') ∧ t.cancel id = (b, t') ∧ Alike s' t' := by
  obtain ⟨hr⟩ := h
  simp only [Simulator.cancel]
  split
  · exact ⟨_, _, _, rfl, rfl, .intro s hr⟩
  · cases id with
    | destroy n => exact ⟨_, _, _, rfl, rfl, .intro _ hr⟩
    | queued slot sequence =>
      obtain ⟨b, q, r', hq, hr', h'⟩ := hr.cancel (.queued slot sequence)
      refine ⟨b, { s with scheduler := q }, _, ?_, ?_, .intro _ h'⟩
      · simp only [hq]
      · simp only [hr']

lemma Alike.remove (h : Alike s t) (id : EventId) :
    ∃ b s' t', s.remove id = (b, s') ∧ t.remove id = (b, t') ∧ Alike s' t' := by
  obtain ⟨hr⟩ := h
  simp only [Simulator.remove]
  split
  · exact ⟨_, _, _, rfl, rfl, .intro s hr⟩
  · cases id with
    | destroy n => exact ⟨_, _, _, rfl, rfl, .intro _ hr⟩
    | queued slot sequence =>
      obtain ⟨found, q, r', hq, hr', h'⟩ := hr.remove (.queued slot sequence)
      refine ⟨found.isSome, { s with scheduler := q }, _, ?_, ?_, .intro _ h'⟩
      · simp only [hq]
      · simp only [hr']

lemma Alike.isExpired_eq (h : Alike s t) (id : EventId) : t.isExpired id = s.isExpired id := by
  obtain ⟨hr⟩ := h
  cases id with
  | destroy n => rfl
  | queued slot sequence => simp only [isExpired, hr.isPending_eq]

lemma Alike.delayLeft_eq (h : Alike s t) (id : EventId) : t.delayLeft id = s.delayLeft id := by
  have hexpired := h.isExpired_eq id
  obtain ⟨hr⟩ := h
  cases id with
  | destroy n =>
    rw [delayLeft, delayLeft]
    rw [hexpired]
  | queued slot sequence =>
    rw [delayLeft, delayLeft]
    simp only [hexpired, hr.get?_eq]

/-! ### State -/

lemma Alike.pendingEvents_eq (h : Alike s t) : t.pendingEvents = s.pendingEvents := by
  obtain ⟨hr⟩ := h
  exact hr.size_eq

lemma Alike.isFinished_eq (h : Alike s t) : t.isFinished = s.isFinished := by
  obtain ⟨hr⟩ := h
  simp only [isFinished, hr.isEmpty_eq, stopPending]

lemma Alike.setScheduler (h : Alike s t) (kind : QueueKind) :
    Alike (s.setScheduler kind) (t.setScheduler kind) := by
  obtain ⟨hr⟩ := h
  exact .intro (s.setScheduler kind) (hr.setKind kind)

/-! ### The inbox -/

lemma Alike.insertAll (h : Alike s t) (evs : List (RemoteEvent (Task K))) :
    Alike (insertAll evs s) (Simulator.insertAll evs t) := by
  induction evs generalizing s t with
  | nil => exact h
  | cons ev evs ih =>
    obtain ⟨_, s', t', hs, ht, h'⟩ := h.insert ev.context ev.delay ev.task
    have := ih h'
    simp only [Simulator.insertAll, List.foldl_cons, hs, ht]
    exact this

lemma Alike.drainInbox (h : Alike s t) : Alike s.drainInbox t.drainInbox := by
  rw [drainInbox_eq, drainInbox_eq]
  obtain ⟨hr⟩ := h
  exact Alike.insertAll (.intro { s with inbox := s.inbox.clear } hr) _

end EventKernel.Simulator
