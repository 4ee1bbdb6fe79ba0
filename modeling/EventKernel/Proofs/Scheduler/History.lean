import EventKernel.Proofs.Scheduler.Consistent

/-!
# Histories of schedulers

Arena and queue agree behind every history of operations, whatever events are put in, whatever
handles are named, and however often the queue is exchanged.
-/

namespace EventKernel.Scheduler

open scoped List

variable {α : Type}

/-- An operation on a scheduler. -/
inductive Op (α : Type) where
  | insert (ev : Event α)
  | least
  | removeNext
  | remove (id : EventId)
  | cancel (id : EventId)
  | setKind (kind : QueueKind)
  | clear

/-- The scheduler behind an operation. -/
def apply (s : Scheduler α) : Op α → Scheduler α
  | .insert ev => (s.insert ev).2
  | .least => s
  | .removeNext => s.removeNext.2
  | .remove id => (s.remove id).2
  | .cancel id => (s.cancel id).2
  | .setKind kind => s.setKind kind
  | .clear => s.clear

/-- The scheduler behind a list of operations. -/
def after (s : Scheduler α) (ops : List (Op α)) : Scheduler α := ops.foldl apply s

lemma Consistent.apply {s : Scheduler α} (h : s.Consistent) (op : Op α) :
    (s.apply op).Consistent := by
  cases op with
  | insert ev => exact h.insert ev
  | least => exact h
  | removeNext => exact h.removeNext
  | remove id => exact h.remove id
  | cancel id => exact h.cancel id
  | setKind kind => exact h.setKind kind
  | clear => exact h.clear

lemma Consistent.after {s : Scheduler α} (h : s.Consistent) (ops : List (Op α)) :
    (s.after ops).Consistent := by
  induction ops generalizing s with
  | nil => exact h
  | cons op ops ih => exact ih (h.apply op)

/-- Behind every history the queue has one entry for each record, the empty slots are listed once,
and the records are counted. So nothing that is taken off the queue is without a record, a record
that is removed has its entry, and the queue can be exchanged behind the back of all handles. -/
theorem queue_perm_arena_after (kind : QueueKind) (buckets : Nat) (ops : List (Op α)) :
    let s := (empty kind buckets : Scheduler α).after ops
    (s.queue.entries ~ s.arena.entries ∧ s.queue.entries.Nodup ∧
      ∀ e, e ∈ s.queue.entries ↔ ∃ ev, s.arena.at? e.slot = some ev ∧ ev.key = e.key) ∧
    (s.arena.free.Nodup ∧
      ∀ i, i ∈ s.arena.free ↔ i < s.arena.slots.size ∧ s.arena.at? i = none) ∧
    s.size = s.arena.slots.toList.countP Option.isSome ∧
    (s.queue.pop? = none → s.removeNext = (none, s)) ∧
    (∀ e q, s.queue.pop? = some (e, q) → ∃ ev, s.arena.at? e.slot = some ev ∧
      s.removeNext = (some (.ofEntry e, ev), ⟨s.arena.release e.slot, q, s.buckets⟩)) ∧
    (∀ slot sequence ev, s.get? (.queued slot sequence) = some ev →
      ∃ q, s.queue.remove ⟨ev.key, slot⟩ = some q ∧
        s.remove (.queued slot sequence) = (some ev, ⟨s.arena.release slot, q, s.buckets⟩)) ∧
    s.least? = s.removeNext.1.map (·.2) ∧
    (s.isEmpty = true ↔ s.size = 0) ∧
    ∀ k, (s.setKind k).kind = k ∧ (s.setKind k).arena = s.arena ∧
      ∀ id, (s.setKind k).get? id = s.get? id ∧ (s.setKind k).isPending id = s.isPending id := by
  intro s
  have h : s.Consistent := (consistent_empty kind buckets).after ops
  refine ⟨⟨h.perm, h.nodup, ?_⟩, ⟨h.tidy.nodup_free, h.tidy.mem_free_iff⟩, ?_,
    removeNext_of_pop?_eq_none, ?_, ?_, h.least?_eq,
    h.isEmpty_iff.trans h.size_eq_zero_iff.symm, ?_⟩
  · intro e
    rw [h.perm.mem_iff, Arena.mem_entries_iff]
  · exact h.tidy.live_eq.trans s.arena.length_entries
  · intro e q hp
    obtain ⟨ev, hev, -, hnext⟩ := h.removeNext_of_pop? hp
    exact ⟨ev, hev, hnext⟩
  · intro slot sequence ev hget
    obtain ⟨q, hq, -, -, hr⟩ := h.remove_of_get? hget
    exact ⟨q, hq, hr⟩
  · intro k
    refine ⟨(h.moveInto_empty k).2.2, rfl, ?_⟩
    intro id
    have hget : (s.setKind k).get? id = s.get? id := by cases id <;> rfl
    constructor
    · exact hget
    · rw [isPending, isPending, hget]

end EventKernel.Scheduler
