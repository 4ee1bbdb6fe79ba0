import EventKernel.Proofs.Machine.Turn
import EventKernel.Proofs.Scheduler.Consistent

/-!
# The clock and the order of events

No stored event lies before the clock, and the clock never runs backwards. Events are taken off the
queue in the order of their keys, throughout all runs of the loop: a new event is due no earlier
than the one taken last, and its sequence number is larger than all numbers given out before. So
events that are due at the same time are taken in the order in which they were scheduled.
-/

namespace EventKernel

open scoped List
open Simulator (Change Course EventChange)

variable {K U : Type} {s t u : Simulator K} {keys : List EventKey}

lemma Time.le_add {now delay : Time} (h : delay.isNegative = false) : now ≤ now + delay := by
  have hnow := now.ticks_lt
  have hlow := now.le_ticks
  rw [Time.isNegative, decide_eq_false_iff_not] at h
  rw [Time.le_iff, Time.ticks_add, Time.ticks_clamp]
  omega

namespace Simulator

/-- Nothing that is stored or waits lies in the past, and what was taken off the queue lies before
what is stored or can still be scheduled. -/
structure Timely (keys : List EventKey) (s : Simulator K) : Prop where
  consistent : s.scheduler.Consistent
  now_nonneg : 0 ≤ s.now.ticks
  delay_nonneg : ∀ ev ∈ s.inbox.events, ev.delay.isNegative = false
  now_le : ∀ e ∈ s.scheduler.arena.entries, s.now ≤ e.key.time
  lt_next : ∀ e ∈ s.scheduler.arena.entries, e.key.sequence < s.sequences.next
  sequence_inj : ∀ e ∈ s.scheduler.arena.entries, ∀ f ∈ s.scheduler.arena.entries,
    e.key.sequence = f.key.sequence → e = f
  pairwise : keys.Pairwise (· < ·)
  taken_le : ∀ k ∈ keys, k.time ≤ s.now ∧ k.sequence < s.sequences.next
  taken_lt : ∀ k ∈ keys, ∀ e ∈ s.scheduler.arena.entries, k < e.key

/-- A later state of a simulator: the clock has not run backwards, and the events that came in
between have new sequence numbers. -/
structure Later (s t : Simulator K) : Prop where
  now_le : s.now ≤ t.now
  next_le : s.sequences.next ≤ t.sequences.next
  fresh : ∀ e ∈ t.scheduler.arena.entries,
    e ∈ s.scheduler.arena.entries ∨ s.sequences.next ≤ e.key.sequence

lemma Later.refl (s : Simulator K) : Later s s where
  now_le := Int.le_refl s.now.ticks
  next_le := Nat.le_refl _
  fresh _ he := Or.inl he

lemma Later.trans (hst : Later s t) (htu : Later t u) : Later s u where
  now_le := Int.le_trans hst.now_le htu.now_le
  next_le := Nat.le_trans hst.next_le htu.next_le
  fresh e he := by
    rcases htu.fresh e he with he | he
    · exact hst.fresh e he
    · exact Or.inr (Nat.le_trans hst.next_le he)

lemma timely_create (identity : Nat) (kind : QueueKind) (buckets : Nat) (sync : SyncMode) :
    Timely [] (create identity kind buckets sync : Simulator K) where
  consistent := Scheduler.consistent_empty kind buckets
  now_nonneg := Int.le_refl 0
  delay_nonneg ev hev := by simp [create] at hev
  now_le e he := by simp [create, Scheduler.empty] at he
  lt_next e he := by simp [create, Scheduler.empty] at he
  sequence_inj e he := by simp [create, Scheduler.empty] at he
  pairwise := List.Pairwise.nil
  taken_le k hk := by simp at hk
  taken_lt k hk := by simp at hk

/-! ### Elementary changes -/

/-- A change that stores no new event. -/
lemma Timely.of_subset (h : s.Timely keys) (hc : t.scheduler.Consistent) (hnow : t.now = s.now)
    (hnext : s.sequences.next ≤ t.sequences.next)
    (hsub : ∀ e ∈ t.scheduler.arena.entries, e ∈ s.scheduler.arena.entries)
    (hinbox : ∀ ev ∈ t.inbox.events, ev ∈ s.inbox.events ∨ ev.delay.isNegative = false) :
    t.Timely keys where
  consistent := hc
  now_nonneg := by
    rw [hnow]
    exact h.now_nonneg
  delay_nonneg := by
    intro ev hev
    rcases hinbox ev hev with hev | hev
    · exact h.delay_nonneg ev hev
    · exact hev
  now_le := by
    intro e he
    rw [hnow]
    exact h.now_le e (hsub e he)
  lt_next e he := Nat.lt_of_lt_of_le (h.lt_next e (hsub e he)) hnext
  sequence_inj e he f hf := h.sequence_inj e (hsub e he) f (hsub f hf)
  pairwise := h.pairwise
  taken_le := by
    intro k hk
    rw [hnow]
    exact ⟨(h.taken_le k hk).1, Nat.lt_of_lt_of_le (h.taken_le k hk).2 hnext⟩
  taken_lt k hk e he := h.taken_lt k hk e (hsub e he)

lemma Later.of_subset (hnow : t.now = s.now) (hnext : s.sequences.next ≤ t.sequences.next)
    (hsub : ∀ e ∈ t.scheduler.arena.entries, e ∈ s.scheduler.arena.entries) : Later s t where
  now_le := by
    rw [hnow]
    exact Int.le_refl s.now.ticks
  next_le := hnext
  fresh e he := Or.inl (hsub e he)

/-- The entry of a new event is the only one that was not there before. -/
lemma eq_or_mem_of_insert (h : s.scheduler.Consistent) (context : ContextId) (delay : Time)
    (task : Task K) :
    ∃ slot, ∀ e ∈ (s.insert context delay task).2.scheduler.arena.entries,
      e = ⟨⟨s.now + delay, s.sequences.next⟩, slot⟩ ∨ e ∈ s.scheduler.arena.entries := by
  obtain ⟨slot, hperm⟩ := h.entries_insert
    { key := ⟨s.now + delay, s.sequences.next⟩, context, task }
  exact ⟨slot, fun e he => List.mem_cons.mp (hperm.mem_iff.mp he)⟩

lemma Timely.insert (h : s.Timely keys) (context : ContextId) {delay : Time} (task : Task K)
    (hdelay : delay.isNegative = false) : (s.insert context delay task).2.Timely keys := by
  have hle : s.now ≤ s.now + delay := Time.le_add hdelay
  obtain ⟨slot, hmem⟩ := eq_or_mem_of_insert h.consistent context delay task
  refine { h with
    consistent := h.consistent.insert _, now_le := ?_, lt_next := ?_, sequence_inj := ?_,
    taken_le := ?_, taken_lt := ?_ }
  · intro e he
    rcases hmem e he with rfl | he
    · exact hle
    · exact h.now_le e he
  · intro e he
    rcases hmem e he with rfl | he
    · exact Nat.lt_succ_self _
    · exact Nat.lt_succ_of_lt (h.lt_next e he)
  · intro e he f hf hef
    rcases hmem e he with rfl | he <;> rcases hmem f hf with rfl | hf
    · rfl
    · exact absurd hef.symm (Nat.ne_of_lt (h.lt_next f hf))
    · exact absurd hef (Nat.ne_of_lt (h.lt_next e he))
    · exact h.sequence_inj e he f hf hef
  · intro k hk
    exact ⟨(h.taken_le k hk).1, Nat.lt_succ_of_lt (h.taken_le k hk).2⟩
  · intro k hk e he
    rcases hmem e he with rfl | he
    · obtain ⟨htime, hseq⟩ := h.taken_le k hk
      rw [EventKey.lt_iff]
      rw [Time.le_iff] at htime hle
      by_cases heq : k.time.ticks = (s.now + delay).ticks
      · exact Or.inr ⟨heq, hseq⟩
      · left
        show k.time.ticks < (s.now + delay).ticks
        omega
    · exact h.taken_lt k hk e he

lemma later_insert (h : s.scheduler.Consistent) (context : ContextId) (delay : Time)
    (task : Task K) : Later s (s.insert context delay task).2 where
  now_le := Int.le_refl s.now.ticks
  next_le := Nat.le_succ _
  fresh := by
    intro e he
    obtain ⟨slot, hmem⟩ := eq_or_mem_of_insert h context delay task
    rcases hmem e he with rfl | he
    · exact Or.inr (Nat.le_refl _)
    · exact Or.inl he

lemma Timely.eventChange {turns : List (Turn K)} (h : s.Timely keys)
    (hchange : EventChange s turns t) :
    t.Timely keys ∧ Later s t := by
  have hold : ∀ ev ∈ s.inbox.events, ev ∈ s.inbox.events ∨ ev.delay.isNegative = false :=
    fun ev hev => Or.inl hev
  have hsame : ∀ e ∈ s.scheduler.arena.entries, e ∈ s.scheduler.arena.entries := fun e he => he
  have hkeep : ∀ {t : Simulator K}, t.scheduler = s.scheduler → t.now = s.now →
      t.inbox = s.inbox → s.sequences.next ≤ t.sequences.next → t.Timely keys ∧ Later s t := by
    intro t hscheduler hnow hinbox hnext
    have hsub : ∀ e ∈ t.scheduler.arena.entries, e ∈ s.scheduler.arena.entries := by
      rw [hscheduler]
      exact hsame
    refine ⟨h.of_subset ?_ hnow hnext hsub ?_, .of_subset hnow hnext hsub⟩
    · rw [hscheduler]
      exact h.consistent
    · rw [hinbox]
      exact hold
  cases hchange with
  | insert context task hdelay =>
    exact ⟨h.insert context task hdelay, later_insert h.consistent context _ task⟩
  | register k halive =>
    rw [scheduleDestroy, if_neg halive]
    exact hkeep rfl rfl rfl (Nat.le_succ _)
  | cancel id =>
    simp only [Simulator.cancel]
    split
    · exact ⟨h, .refl s⟩
    · split
      · exact hkeep rfl rfl rfl (Nat.le_refl _)
      · next slot n _ =>
        have hc := h.consistent.cancel (.queued slot n)
        have hsub : ∀ e ∈ (s.scheduler.cancel (.queued slot n)).2.arena.entries,
            e ∈ s.scheduler.arena.entries := by
          intro e he
          rwa [Scheduler.entries_cancel] at he
        exact ⟨h.of_subset hc rfl (Nat.le_refl _) hsub hold, .of_subset rfl (Nat.le_refl _) hsub⟩
  | remove id =>
    simp only [Simulator.remove]
    split
    · exact ⟨h, .refl s⟩
    · split
      · exact hkeep rfl rfl rfl (Nat.le_refl _)
      · next slot n _ =>
        have hc := h.consistent.remove (.queued slot n)
        have hsub : ∀ e ∈ (s.scheduler.remove (.queued slot n)).2.arena.entries,
            e ∈ s.scheduler.arena.entries :=
          fun e he => h.consistent.mem_entries_of_remove he
        exact ⟨h.of_subset hc rfl (Nat.le_refl _) hsub hold, .of_subset rfl (Nat.le_refl _) hsub⟩
  | setKind kind =>
    have hc := h.consistent.setKind kind
    exact ⟨h.of_subset hc rfl (Nat.le_refl _) hsame hold, .of_subset rfl (Nat.le_refl _) hsame⟩
  | clear =>
    have hsub : ∀ e ∈ s.scheduler.clear.arena.entries, e ∈ s.scheduler.arena.entries := by
      intro e he
      simp [Scheduler.clear] at he
    have hc := h.consistent.clear
    exact ⟨h.of_subset hc rfl (Nat.le_refl _) hsub hold, .of_subset rfl (Nat.le_refl _) hsub⟩
  | popLive => exact hkeep rfl rfl rfl (Nat.le_refl _)

lemma Timely.change {turns : List (Turn K)} (h : s.Timely keys) (hchange : Change s turns t) :
    t.Timely keys ∧ Later s t := by
  have hsame : ∀ e ∈ s.scheduler.arena.entries, e ∈ s.scheduler.arena.entries := fun e he => he
  cases hchange with
  | events hchange => exact h.eventChange hchange
  | inbox b hb =>
    have hc := h.consistent
    exact ⟨h.of_subset hc rfl (Nat.le_refl _) hsame fun ev hev => (hb ev hev).imp_right And.left,
      .of_subset rfl (Nat.le_refl _) hsame⟩
  | other =>
    have hc := h.consistent
    exact ⟨h.of_subset hc rfl (Nat.le_refl _) hsame fun ev hev => Or.inl hev,
      .of_subset rfl (Nat.le_refl _) hsame⟩

lemma Timely.course {turns : List (Turn K)} (h : s.Timely keys) (hcourse : Course s turns t) :
    t.Timely keys ∧ Later s t := by
  induction hcourse with
  | refl => exact ⟨h, Later.refl _⟩
  | tail _ hchange ih =>
    obtain ⟨ht, hst⟩ := ih
    obtain ⟨hu, htu⟩ := ht.change hchange
    exact ⟨hu, hst.trans htu⟩

/-! ### Taking an event -/

/-- The event taken off the queue was stored, and its key is less than those that stay: no other
event has its sequence number. -/
lemma Timely.of_removeNext {id : EventId} {ev : Event (Task K)} {scheduler : Scheduler (Task K)}
    (h : s.Timely keys) (hnext : s.scheduler.removeNext = (some (id, ev), scheduler)) :
    ∃ e ∈ s.scheduler.arena.entries, ev.key = e.key ∧ scheduler.Consistent ∧
      ∀ x ∈ scheduler.arena.entries, x ∈ s.scheduler.arena.entries ∧ e.key < x.key := by
  have hc := h.consistent.removeNext
  rcases h.consistent.removeNext_cases with ⟨-, hn⟩ | ⟨e, ev', q, ⟨hmem, hle⟩, -, hev, hkey, hn⟩
  · rw [hnext] at hn
    cases hn
  · rw [hnext] at hn hc
    cases hn
    refine ⟨e, hmem, hkey, hc, ?_⟩
    intro x hx
    have hperm := Arena.perm_release hev
    have hnodup := hperm.nodup_iff.mp s.scheduler.arena.nodup_entries
    rw [hkey] at hperm hnodup
    have hold : x ∈ s.scheduler.arena.entries := hperm.mem_iff.mpr (List.mem_cons_of_mem e hx)
    refine ⟨hold, lt_of_le_of_ne (Entry.key_le (hle x hold)) ?_⟩
    intro heq
    have hex : e = x := h.sequence_inj e hmem x hold (by rw [heq])
    exact (List.nodup_cons.mp hnodup).1 (hex ▸ hx)

/-- The event taken off the queue does not lie before the clock, and the clock advances to it. -/
lemma Timely.take {id : EventId} {ev : Event (Task K)} {scheduler : Scheduler (Task K)}
    (h : s.Timely keys) (hnext : s.scheduler.removeNext = (some (id, ev), scheduler)) :
    s.now ≤ ev.key.time ∧
      { s with scheduler := scheduler, now := ev.key.time }.Timely (keys ++ [ev.key]) ∧
      Later s { s with scheduler := scheduler, now := ev.key.time } := by
  obtain ⟨e, hmem, hkey, hc, hrest⟩ := h.of_removeNext hnext
  rw [hkey]
  have hnow := h.now_le e hmem
  refine ⟨hnow, { h with
    consistent := hc, now_nonneg := ?_, now_le := ?_, lt_next := ?_, sequence_inj := ?_,
    pairwise := ?_, taken_le := ?_, taken_lt := ?_ }, hnow, Nat.le_refl _, ?_⟩
  · exact Int.le_trans h.now_nonneg hnow
  · intro x hx
    exact EventKey.ticks_le (le_of_lt (hrest x hx).2)
  · intro x hx
    exact h.lt_next x (hrest x hx).1
  · intro x hx y hy
    exact h.sequence_inj x (hrest x hx).1 y (hrest y hy).1
  · refine List.pairwise_append.mpr ⟨h.pairwise, List.pairwise_singleton _ _, ?_⟩
    intro k hk l hl
    rw [List.mem_singleton.mp hl]
    exact h.taken_lt k hk e hmem
  · intro k hk
    rcases List.mem_append.mp hk with hk | hk
    · exact ⟨Int.le_trans (h.taken_le k hk).1 hnow, (h.taken_le k hk).2⟩
    · rw [List.mem_singleton.mp hk]
      exact ⟨Int.le_refl e.key.time.ticks, h.lt_next e hmem⟩
  · intro k hk x hx
    rcases List.mem_append.mp hk with hk | hk
    · exact h.taken_lt k hk x (hrest x hx).1
    · rw [List.mem_singleton.mp hk]
      exact (hrest x hx).2
  · intro x hx
    exact Or.inl (hrest x hx).1

/-! ### Emptying the inbox -/

/-- Events handed in from outside are numbered in the order in which they were accepted. -/
lemma mem_entries_insertAll (evs : List (RemoteEvent (Task K))) (h : s.scheduler.Consistent) :
    (∀ e ∈ s.scheduler.arena.entries, e ∈ (insertAll evs s).scheduler.arena.entries) ∧
      ∀ i ev, evs[i]? = some ev → ∃ slot, ⟨⟨s.now + ev.delay, s.sequences.next + i⟩, slot⟩ ∈
        (insertAll evs s).scheduler.arena.entries := by
  induction evs generalizing s with
  | nil => exact ⟨fun _ he => he, fun i ev hi => by simp at hi⟩
  | cons x evs ih =>
    obtain ⟨slot, hperm⟩ := h.entries_insert
      { key := ⟨s.now + x.delay, s.sequences.next⟩, context := x.context, task := x.task }
    obtain ⟨hkeep, hnew⟩ := ih (s := (s.insert x.context x.delay x.task).2) (h.insert _)
    refine ⟨fun e he => hkeep e (hperm.mem_iff.mpr (List.mem_cons_of_mem _ he)), ?_⟩
    rintro (_ | i) ev hi
    · obtain rfl : x = ev := Option.some.inj hi
      exact ⟨slot, hkeep _ (hperm.mem_iff.mpr List.mem_cons_self)⟩
    · obtain ⟨slot, hmem⟩ := hnew i ev hi
      refine ⟨slot, ?_⟩
      rwa [show (s.insert x.context x.delay x.task).2.sequences.next + i =
        s.sequences.next + (i + 1) from by rw [Nat.add_comm i 1, ← Nat.add_assoc]; rfl] at hmem

lemma mem_entries_drainInbox (h : s.scheduler.Consistent) {i : Nat} {ev : RemoteEvent (Task K)}
    (hi : s.inbox.events[i]? = some ev) :
    ∃ slot, ⟨⟨s.now + ev.delay, s.sequences.next + i⟩, slot⟩ ∈
      s.drainInbox.scheduler.arena.entries := by
  rw [drainInbox_eq]
  refine (mem_entries_insertAll _ (s := { s with inbox := s.inbox.clear }) h).2 i ev ?_
  rw [Array.getElem?_toList, hi]

end Simulator

/-! ### Moves and runs -/

namespace Machine

open Simulator (Timely Later)

/-- The keys of events, in the same order. -/
def keysOf (events : List (EventId × Event (Task K))) : List EventKey :=
  events.map fun p => p.2.key

lemma append_keysOf_none (keys : List EventKey) :
    keys ++ keysOf (none : Option (EventId × Event (Task K))).toList = keys :=
  List.append_nil keys

/-- A move is a course of elementary changes, or it ends a round of the loop. -/
inductive MoveCase (code : Code K U) (a : Machine K U) (mv : Move K U) : Prop where
  | course (hnext : ∀ rest, mv = .step → a.stack ≠ .next :: rest) (hnone : a.takenBy? mv = none)
      (hbroken : (move code a mv).broken = false)
      (hcourse : Course a.sim (a.turns mv) (move code a mv).sim)
  | round {rest : List (Frame K U)} (hstep : mv = .step) (hstack : a.stack = .next :: rest)
      (htaken : a.takenBy? mv = a.sim.upcoming?)
      (hturns : a.turns mv = a.sim.upcoming?.toList.flatMap fun p => a.sim.takeTurn p.1)
      (hround : Round code a.sim a.memory rest (move code a mv))

lemma moveCase (code : Code K U) (mv : Move K U) {a : Machine K U} (h : a.sim.Timely keys)
    (hb : a.broken = false) : MoveCase code a mv := by
  cases mv with
  | step =>
    obtain ⟨s, m, stack, broken⟩ := a
    cases stack with
    | nil => exact .course (fun rest _ hnil => by cases hnil) rfl hb (.refl s)
    | cons f rest =>
      have hturns := turns_step f s m rest broken
      by_cases hf : f = .next
      · subst hf
        exact .round rfl rfl rfl hturns (round_takeNext code m rest h.consistent h.now_le)
      · have hnone : taken? ⟨s, m, f :: rest, broken⟩ = none := by
          cases f <;> first | rfl | exact absurd rfl hf
        obtain ⟨hbroken, hcourse⟩ := course_stepFrame code f s m rest hf h.delay_nonneg
        refine .course (fun rest' _ hcons => hf (List.cons.inj hcons).1) hnone hbroken ?_
        rw [hturns]
        exact hcourse
  | remote r => exact .course (fun rest hstep => by cases hstep) rfl hb (r.course_apply a.sim)
  | enter f p =>
    have hsame : (move code a (.enter f p)).broken = false ∧
        (move code a (.enter f p)).sim = a.sim := by
      rw [move]
      split
      · exact ⟨hb, rfl⟩
      · exact ⟨hb, rfl⟩
    refine .course (fun rest hstep => by cases hstep) rfl hsame.1 ?_
    rw [hsame.2]
    exact .refl a.sim

lemma timely_move (code : Code K U) (mv : Move K U) {a : Machine K U} (h : a.sim.Timely keys)
    (hb : a.broken = false) :
    (move code a mv).broken = false ∧
      (move code a mv).sim.Timely (keys ++ keysOf (a.takenBy? mv).toList) ∧
      Later a.sim (move code a mv).sim := by
  cases moveCase code mv h hb with
  | course hnext hnone hbroken hcourse =>
    rw [hnone, append_keysOf_none]
    exact ⟨hbroken, h.course hcourse⟩
  | @round rest hstep hstack htaken hturns hround =>
    rw [htaken]
    generalize move code a mv = b at hround ⊢
    cases hround with
    | finish hnone hempty =>
      rw [hnone, append_keysOf_none]
      exact ⟨rfl, h.course (course_finishRun a.sim)⟩
    | pass hsome hnext hcancelled =>
      rw [hsome]
      exact ⟨rfl, (h.take hnext).2⟩
    | @start id ev q hsome hnext hlive =>
      obtain ⟨-, htimely, hlater⟩ := h.take hnext
      obtain ⟨t, hcourse, ht⟩ :=
        course_launch code id ev { a.sim with scheduler := q, now := ev.key.time } a.memory rest
      obtain ⟨htimely, hl⟩ := htimely.course hcourse
      rw [hsome, ht]
      exact ⟨rfl, { htimely with }, { hlater.trans hl with }⟩

lemma timely_play (code : Code K U) (moves : List (Move K U)) {a : Machine K U}
    (h : a.sim.Timely keys) (hb : a.broken = false) :
    (play code moves a).broken = false ∧
      (play code moves a).sim.Timely (keys ++ keysOf (taken code moves a)) ∧
      Later a.sim (play code moves a).sim := by
  induction moves generalizing a keys with
  | nil =>
    rw [taken, keysOf, List.map_nil, List.append_nil]
    exact ⟨hb, h, Later.refl a.sim⟩
  | cons mv moves ih =>
    obtain ⟨hb', h', hlater⟩ := timely_move code mv h hb
    obtain ⟨hbroken, htimely, hlater'⟩ := ih h' hb'
    refine ⟨hbroken, ?_, hlater.trans hlater'⟩
    rw [taken, keysOf, List.map_append, ← List.append_assoc]
    exact htimely

/-- Throughout the life of a simulator no stored event lies before the clock, the clock does not run
backwards, and events are taken off the queue in the order of their keys. An event that is
scheduled later has a larger sequence number than all that were there before, so that it is not
taken before one of them that is due at the same time. -/
theorem taken_in_order (code : Code K U) (identity : Nat) (kind : QueueKind) (buckets : Nat)
    (sync : SyncMode) (m : Memory K U) (moves : List (Move K U)) :
    let a := play code moves (idle identity kind buckets sync m)
    let keys := keysOf (taken code moves (idle identity kind buckets sync m))
    0 ≤ a.sim.now.ticks ∧
    (∀ slot ev, a.sim.scheduler.arena.at? slot = some ev → a.sim.now ≤ ev.key.time) ∧
    a.broken = false ∧
    keys.Pairwise (· < ·) ∧
    (∀ more, a.sim.now ≤ (play code more a).sim.now ∧
      ∀ e ∈ (play code more a).sim.scheduler.arena.entries, e ∉ a.sim.scheduler.arena.entries →
        (∀ k ∈ keys, k.sequence < e.key.sequence) ∧
        ∀ f ∈ a.sim.scheduler.arena.entries, f.key.sequence < e.key.sequence ∧
          (f.key.time = e.key.time →
            ∀ later, ¬[e.key, f.key] <+ keysOf (taken code (more ++ later) a))) ∧
    ∀ i ev, a.sim.inbox.events[i]? = some ev →
      ∃ slot, ⟨⟨a.sim.now + ev.delay, a.sim.sequences.next + i⟩, slot⟩ ∈
        a.sim.drainInbox.scheduler.arena.entries := by
  intro a keys
  obtain ⟨hbroken, h, -⟩ := timely_play code moves
    (a := idle identity kind buckets sync m) (Simulator.timely_create ..) rfl
  rw [List.nil_append] at h
  refine ⟨h.now_nonneg, ?_, hbroken, h.pairwise, ?_, ?_⟩
  · intro slot ev hev
    exact h.now_le ⟨ev.key, slot⟩ (Arena.mem_entries_iff.mpr ⟨ev, hev, rfl⟩)
  · intro more
    obtain ⟨-, -, hlater⟩ := timely_play code more h hbroken
    refine ⟨hlater.now_le, ?_⟩
    intro e he hnew
    have hnext : a.sim.sequences.next ≤ e.key.sequence := (hlater.fresh e he).resolve_left hnew
    constructor
    · intro k hk
      exact Nat.lt_of_lt_of_le (h.taken_le k hk).2 hnext
    · intro f hf
      have hseq : f.key.sequence < e.key.sequence := Nat.lt_of_lt_of_le (h.lt_next f hf) hnext
      refine ⟨hseq, ?_⟩
      intro htime later hsub
      have hall := (timely_play code (more ++ later) h hbroken).2.1.pairwise
      have hlt : e.key < f.key :=
        List.pairwise_pair.mp ((List.pairwise_append.mp hall).2.1.sublist hsub)
      rw [EventKey.lt_iff, htime] at hlt
      omega
  · intro i ev hi
    exact Simulator.mem_entries_drainInbox h.consistent hi

end Machine

end EventKernel
