import EventKernel.Proofs.Queue.Exchange
import EventKernel.Proofs.Scheduler.History

/-!
# The queue of a scheduler

Whatever is done to a scheduler, its queue goes through a history of its own that never puts in an
entry the queue holds, and setting the kind is a move to a fresh queue. So queues of all kinds agree
with the sorted list, and the kind can be set at any point.
-/

namespace EventKernel.Scheduler

open scoped List

variable {α : Type} {s : Scheduler α} {es : List Entry}

/-! ### What operations do to the queue -/

/-- Dropping all events takes out one entry after the other. -/
lemma exists_steps_drained {q : Queue} (h : q.Lists es) :
    ∃ steps, (Queue.list es).PutsInNew (QueueStep.ops steps) ∧ q.drained = q.run steps := by
  induction es generalizing q with
  | nil =>
    have hp := h.valid.pop?_eq_none_iff.mpr (List.perm_nil.mp h.perm)
    refine ⟨[], trivial, ?_⟩
    rw [Queue.drained]
    split
    · rfl
    · rename_i hs
      rw [hp] at hs
      cases hs
  | cons x xs ih =>
    rcases h.pop? with ⟨-, hnil⟩ | ⟨e, r, ys, hp, hes, hr⟩
    · cases hnil
    · cases hes
      obtain ⟨steps, hnew, hsteps⟩ := ih hr
      refine ⟨.op .pop :: steps, ⟨trivial, hnew⟩, ?_⟩
      rw [Queue.drained]
      split
      · rename_i hs
        rw [hp] at hs
        cases hs
      · rename_i hs
        rw [hp] at hs
        cases hs
        have hpop : q.through (.op .pop) = r := by
          simp only [Queue.through, Queue.apply, hp]
        rw [Queue.run, List.foldl_cons, hpop]
        exact hsteps

/-- One operation on a scheduler is a few steps of its queue, none of which puts in an entry that
the queue holds. -/
lemma Consistent.exists_steps (h : s.Consistent) (hl : s.queue.Lists es) (op : Op α) :
    ∃ steps, (Queue.list es).PutsInNew (QueueStep.ops steps) ∧
      (s.apply op).queue = s.queue.run steps := by
  cases op with
  | insert ev =>
    refine ⟨[.op (.insert ⟨ev.key, (s.arena.insert ev).1⟩)], ⟨?_, trivial⟩, rfl⟩
    exact fun he => h.entry_notMem ev (hl.perm.mem_iff.mpr he)
  | least => exact ⟨[], trivial, rfl⟩
  | removeNext =>
    rcases h.removeNext_cases with ⟨-, hnext⟩ | ⟨e, ev, q, -, hp, -, -, hnext⟩
    · refine ⟨[], trivial, ?_⟩
      rw [Scheduler.apply, hnext]
      rfl
    · refine ⟨[.op .pop], ⟨trivial, trivial⟩, ?_⟩
      have hpop : s.queue.run [.op .pop] = q := by
        simp only [Queue.run, List.foldl_cons, List.foldl_nil, Queue.through, Queue.apply, hp]
      rw [Scheduler.apply, hnext, hpop]
  | remove id =>
    cases id with
    | destroy n => exact ⟨[], trivial, rfl⟩
    | queued slot sequence =>
      cases hget : s.arena.get? slot sequence with
      | none =>
        refine ⟨[], trivial, ?_⟩
        rw [Scheduler.apply, remove_of_get?_eq_none hget]
        rfl
      | some ev =>
        obtain ⟨q, hq, -, -, hr⟩ := h.remove_of_get? hget
        refine ⟨[.op (.remove ⟨ev.key, slot⟩)], ⟨trivial, trivial⟩, ?_⟩
        have hremove : s.queue.run [.op (.remove ⟨ev.key, slot⟩)] = q := by
          simp only [Queue.run, List.foldl_cons, List.foldl_nil, Queue.through, Queue.apply, hq]
        rw [Scheduler.apply, hr, hremove]
  | cancel id =>
    refine ⟨[], trivial, ?_⟩
    rcases cancel_cases id s with hc | ⟨slot, ev, -, hc⟩ <;>
    · rw [Scheduler.apply, hc]
      rfl
  | setKind kind => exact ⟨[.exchange s.buckets kind], trivial, rfl⟩
  | clear => exact exists_steps_drained hl

/-- A whole history of a scheduler is a history of its queue. -/
lemma Consistent.exists_steps_after (h : s.Consistent) (hl : s.queue.Lists es) (hn : es.Nodup)
    (ops : List (Op α)) :
    ∃ steps, (Queue.list es).PutsInNew (QueueStep.ops steps) ∧
      (s.after ops).queue = s.queue.run steps := by
  induction ops generalizing s es with
  | nil => exact ⟨[], trivial, rfl⟩
  | cons op ops ih =>
    obtain ⟨first, hfirst, hqueue⟩ := h.exists_steps hl op
    obtain ⟨-, xs, hxs, hlists, hnodup⟩ := hl.run hn hfirst
    rw [← hqueue] at hlists
    obtain ⟨rest, hrest, hafter⟩ := ih (h.apply op) hlists hnodup
    refine ⟨first ++ rest, ?_, ?_⟩
    · rw [Queue.ops_append, Queue.putsInNew_append, hxs]
      exact ⟨hfirst, hrest⟩
    · rw [Queue.run_append, ← hqueue]
      exact hafter

/-! ### All kinds of queues agree -/

/-- Queues of all kinds answer like a sorted list, as long as no entry is put in that is held, and
the entries can be moved to a fresh queue of any kind at any point: nobody notices it, no entry is
lost, doubled or given back in another order. A scheduler only ever puts in new entries, and setting
its kind is such a move. -/
theorem observed_eq_sortedList_of_putsInNew (α : Type) (buckets : Nat) (kind : QueueKind) :
    (∀ ops, (Queue.list []).PutsInNew ops →
      (Queue.empty buckets kind).seen ops = (Queue.list []).seen ops) ∧
    (∀ steps, (Queue.list []).PutsInNew (QueueStep.ops steps) →
      (Queue.empty buckets kind).observed steps = (Queue.list []).seen (QueueStep.ops steps) ∧
      ∃ es, (Queue.list []).after (QueueStep.ops steps) = .list es ∧ es.Pairwise (· ≤ ·) ∧
        es.Nodup ∧
        let q := (Queue.empty buckets kind).run steps
        q.entries ~ es ∧ q.unloaded = es ∧
        ∀ m k, (q.moveInto (.empty m k)).kind = k ∧ (q.moveInto (.empty m k)).entries ~ q.entries ∧
          (q.moveInto (.empty m k)).unloaded = q.unloaded) ∧
    ∀ ops : List (Op α), let s := (empty kind buckets : Scheduler α).after ops
      (∃ steps, (Queue.list []).PutsInNew (QueueStep.ops steps) ∧
        s.queue = (Queue.empty buckets kind).run steps) ∧
      (∀ ev : Event α, (⟨ev.key, (s.arena.insert ev).1⟩ : Entry) ∉ s.queue.entries ∧
        (s.insert ev).2.queue = s.queue.insert ⟨ev.key, (s.arena.insert ev).1⟩) ∧
      ∀ k, (s.setKind k).queue = s.queue.moveInto (.empty s.buckets k) := by
  have hempty := Queue.lists_empty buckets kind
  refine ⟨?_, ?_, ?_⟩
  · intro ops hnew
    have hrun := (hempty.run List.nodup_nil (by rw [Queue.ops_map_op]; exact hnew)).1
    rwa [Queue.observed_map_op, Queue.ops_map_op] at hrun
  · intro steps hnew
    obtain ⟨hseen, es, hafter, hlists, hn⟩ := hempty.run List.nodup_nil hnew
    refine ⟨hseen, es, hafter, hlists.pairwise, hn, hlists.perm, hlists.unloaded_eq, ?_⟩
    intro m k
    obtain ⟨hmoved, hk⟩ := hlists.exchange hn m k
    exact ⟨hk, hmoved.perm.trans hlists.perm.symm,
      hmoved.unloaded_eq.trans hlists.unloaded_eq.symm⟩
  · intro ops s
    have h : s.Consistent := (consistent_empty kind buckets).after ops
    refine ⟨(consistent_empty kind buckets).exists_steps_after hempty List.nodup_nil ops, ?_, ?_⟩
    · exact fun ev => ⟨h.entry_notMem ev, rfl⟩
    · exact fun k => rfl

/-- Three moves between the operations: an entry that was taken out is put in again, and one is
removed from a calendar. -/
theorem observed_through_all_kinds :
    let e (n : Nat) : Entry := ⟨⟨.zero, n⟩, n⟩
    let steps : List QueueStep :=
      [.op (.insert (e 3)), .op (.insert (e 1)), .exchange 5 .map, .op (.insert (e 2)), .op .pop,
        .exchange 1 .calendar, .op (.insert (e 1)), .op (.remove (e 3)), .op (.remove (e 3)),
        .exchange 0 .list, .op .least, .op .isEmpty]
    (Queue.list []).PutsInNew (QueueStep.ops steps) ∧
      (Queue.empty 2 .heap).observed steps =
        [(.nothing, 1), (.nothing, 2), (.nothing, 3), (.entry (some (e 1)), 2), (.nothing, 3),
          (.flag true, 2), (.flag false, 2), (.entry (some (e 1)), 2), (.flag false, 2)] ∧
      ((Queue.empty 2 .heap).run steps).unloaded = [e 1, e 2] := by
  intro e steps
  have hnew : (Queue.list []).PutsInNew (QueueStep.ops steps) := by decide
  obtain ⟨hseen, es, hafter, -, -, -, hes, -⟩ :=
    (observed_eq_sortedList_of_putsInNew Unit 2 .heap).2.1 steps hnew
  have hlist : (Queue.list []).after (QueueStep.ops steps) = .list [e 1, e 2] := rfl
  rw [hlist] at hafter
  cases hafter
  exact ⟨hnew, hseen.trans (by decide), hes⟩

end EventKernel.Scheduler
