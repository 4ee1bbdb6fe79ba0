import EventKernel.Proofs.Machine.Arrival
import EventKernel.Proofs.Relay.Session

/-!
# The flow of chunks through a relay

A chunk that was handed in waits in the inbox, then in the queue, until it is printed; and those
printed, those in the queue and those in the inbox are always, in this order, all that were handed
in. All chunks get the same delay, the clock does not run backwards, and events are numbered as they
are stored, so the queue gives the chunks out as they came. The only other event that can be stored
is the stop a simulator was built with.
-/

namespace EventKernel

/-- The context and the task of an event. -/
def Event.content {α : Type} (ev : Event α) : ContextId × α := (ev.context, ev.task)

/-- The context and the task of an event that was handed in. -/
def RemoteEvent.content {α : Type} (ev : RemoteEvent α) : ContextId × α := (ev.context, ev.task)

lemma Scheduler.queued_of_get? {α : Type} {q : Scheduler α} {id : EventId} {ev : Event α}
    (h : q.get? id = some ev) : ∃ slot n, id = .queued slot n := by
  cases id with
  | queued slot n => exact ⟨slot, n, rfl⟩
  | destroy n => cases h

namespace Simulator

variable {K : Type} {s : Simulator K} {id : EventId} {ev : Event (Task K)} {keys : List EventKey}

lemma find?_of_get? (h : s.scheduler.get? id = some ev) : s.find? id = some ev := by
  obtain ⟨slot, n, rfl⟩ := Scheduler.queued_of_get? h
  exact h

lemma mem_entries_of_get? (h : s.scheduler.get? id = some ev) :
    ∃ e ∈ s.scheduler.arena.entries, e.key = ev.key := by
  obtain ⟨slot, n, rfl⟩ := Scheduler.queued_of_get? h
  exact ⟨_, Arena.mem_entries_of_get? h, rfl⟩

/-- Behind the emptying of the inbox an event is stored if it was so before or is a new one. -/
lemma Sound.get?_drainInbox (hs : s.Sound)
    (hdelay : ∀ ev ∈ s.inbox.events, ev.delay.isNegative = false) :
    s.drainInbox.scheduler.get? id = some ev ↔
      s.scheduler.get? id = some ev ∨
        ∃ x ∈ s.drainInsertions, x.id = id ∧ x.stored = ev := by
  have hp := hs.passage (course_drainInbox hdelay)
  rw [hs.drainTurns_eq hdelay] at hp
  have hkept : ∀ {old}, s.find? id = some old → s.drainInbox.find? id = some old := by
    intro old hold
    rw [hp.find?_eq (hs.lt_next id old hold).2, hold]
    intro y hy _
    obtain ⟨x, -, rfl⟩ := List.mem_map.mp hy
    rfl
  constructor
  · intro hget
    rcases hp.held id ev (find?_of_get? hget) with ⟨old, hold, -⟩ | ⟨-, y, hy, hid, -, -⟩
    · left
      obtain ⟨slot, n, rfl⟩ := Scheduler.queued_of_get? hget
      exact hold.trans ((hkept hold).symm.trans hget)
    · right
      obtain ⟨x, hx, rfl⟩ := List.mem_map.mp hy
      have hnew := (hs.find?_drainInsertions hdelay hx).2
      rw [show x.id = id from hid, find?_of_get? hget] at hnew
      exact ⟨x, hx, hid, (Option.some.inj hnew).symm⟩
  · rintro (hold | ⟨x, hx, rfl, rfl⟩)
    · have hold' := hkept (find?_of_get? hold)
      obtain ⟨slot, n, rfl⟩ := Scheduler.queued_of_get? hold
      exact hold'
    · have hnew := (hs.find?_drainInsertions hdelay hx).2
      obtain ⟨slot, n, hid⟩ := queued_of_mem_drainInsertions hx
      rw [hid] at hnew ⊢
      exact hnew

end Simulator

namespace Relay

variable {latency : Time} {context : ContextId} {chunks : List (List UInt8)}
  {taken : List (EventId × Event (Task RelayCode))} {queue : List (Event (Task RelayCode))}
  {s t : Simulator RelayCode} {id : EventId} {ev : Event (Task RelayCode)} {keys : List EventKey}

/-- The events that print a chunk, among those that were taken off the queue and not cancelled. -/
def printed (taken : List (EventId × Event (Task RelayCode))) : List (Event (Task RelayCode)) :=
  (taken.map (·.2)).filter fun ev => !ev.cancelled && isPrinting ev.task

lemma printed_concat (hlive : ev.cancelled = false) :
    printed (taken ++ [(id, ev)]) = printed taken ++ if isPrinting ev.task then [ev] else [] := by
  rw [printed, printed, List.map_append, List.filter_append]
  cases hprint : isPrinting ev.task <;> simp [hlive, hprint]

/-- What was handed in was printed, is in the queue or waits in the inbox, in this order. -/
structure Flow (latency : Time) (context : ContextId) (chunks : List (List UInt8))
    (taken : List (EventId × Event (Task RelayCode))) (queue : List (Event (Task RelayCode)))
    (s : Simulator RelayCode) : Prop where
  account : chunks.map (fun chunk => (context, printing chunk)) =
    (printed taken).map (·.content) ++ queue.map (·.content) ++
      s.inbox.events.toList.map (·.content)
  mem_iff : ∀ ev, ev ∈ queue ↔ ∃ id, s.scheduler.get? id = some ev ∧ ev.task ≠ .stop
  sorted : queue.Pairwise (·.key < ·.key)
  due : ∀ ev ∈ queue, ev.key.time ≤ s.now + latency
  live : ∀ id ev, s.scheduler.get? id = some ev → ev.cancelled = false
  delay : ∀ ev ∈ s.inbox.events, ev.delay = latency
  /-- There is at most one stop. -/
  single : ∃ id, ∀ id' ev, s.scheduler.get? id' = some ev → ev.task = .stop → id' = id

/-- No stop is in the queue. -/
def Unstopped (s : Simulator RelayCode) : Prop :=
  ∀ id ev, s.scheduler.get? id = some ev → ev.task ≠ .stop

/-- What lies before all others in a sorted queue stands at its front. -/
lemma exists_cons_of_pairwise (hsorted : queue.Pairwise (·.key < ·.key)) (hev : ev ∈ queue)
    (hfirst : ∀ ev' ∈ queue, ev' = ev ∨ ev.key < ev'.key) : ∃ rest, queue = ev :: rest := by
  cases queue with
  | nil => cases hev
  | cons first rest =>
    rcases hfirst first List.mem_cons_self with rfl | hlt
    · exact ⟨rest, rfl⟩
    · rcases List.mem_cons.mp hev with rfl | hev
      · exact absurd hlt (lt_irrefl _)
      · exact absurd hlt (lt_asymm ((List.pairwise_cons.mp hsorted).1 ev hev))

namespace Flow

lemma congr (h : Flow latency context chunks taken queue s) (hscheduler : t.scheduler = s.scheduler)
    (hnow : t.now = s.now) (hinbox : t.inbox.events = s.inbox.events) :
    Flow latency context chunks taken queue t where
  account := by rw [hinbox]; exact h.account
  mem_iff := by rw [hscheduler]; exact h.mem_iff
  sorted := h.sorted
  due := by rw [hnow]; exact h.due
  live := by rw [hscheduler]; exact h.live
  delay := by rw [hinbox]; exact h.delay
  single := by rw [hscheduler]; exact h.single

/-- What is stored besides the stop prints a chunk in the context of the relay. -/
lemma content_of_mem (h : Flow latency context chunks taken queue s) (hev : ev ∈ queue) :
    ∃ chunk, ev.content = (context, printing chunk) := by
  have hmem : ev.content ∈ chunks.map fun chunk => (context, printing chunk) := by
    rw [h.account]
    exact List.mem_append_left _ (List.mem_append_right _ (List.mem_map_of_mem hev))
  obtain ⟨chunk, -, hchunk⟩ := List.mem_map.mp hmem
  exact ⟨chunk, hchunk.symm⟩

lemma printing_of_mem (h : Flow latency context chunks taken queue s) (hev : ev ∈ queue) :
    ∃ chunk, ev.task = printing chunk :=
  (h.content_of_mem hev).imp fun _ hchunk => (Prod.mk.inj hchunk).2

lemma printing_of_waits (h : Flow latency context chunks taken queue s)
    {ev : RemoteEvent (Task RelayCode)} (hev : ev ∈ s.inbox.events) :
    ∃ chunk, ev.task = printing chunk := by
  have hmem : ev.content ∈ chunks.map fun chunk => (context, printing chunk) := by
    rw [h.account]
    exact List.mem_append_right _ (List.mem_map_of_mem (Array.mem_toList_iff.mpr hev))
  obtain ⟨chunk, -, hchunk⟩ := List.mem_map.mp hmem
  exact ⟨chunk, (Prod.mk.inj hchunk).2.symm⟩

/-- What is stored out of the inbox prints a chunk. -/
lemma task_of_insertion (h : Flow latency context chunks taken queue s) {x : Insertion RelayCode}
    (hx : x ∈ s.drainInsertions) : x.event ∈ s.inbox.events ∧ x.stored.task ≠ .stop := by
  have hmem : x.event ∈ s.drainInsertions.map (·.event) := List.mem_map_of_mem hx
  rw [s.map_event_drainInsertions, Array.mem_toList_iff] at hmem
  obtain ⟨chunk, hchunk⟩ := h.printing_of_waits hmem
  exact ⟨hmem, fun hstop => by cases hchunk.symm.trans hstop⟩

lemma time_of_insertion (h : Flow latency context chunks taken queue s) {x : Insertion RelayCode}
    (hx : x ∈ s.drainInsertions) : x.stored.key.time = s.now + latency := by
  show x.now + x.event.delay = _
  rw [Simulator.now_of_mem_drainInsertions hx, h.delay _ (h.task_of_insertion hx).1]

/-- All delays are the same, so what is stored out of the inbox comes behind the queue. -/
lemma sorted_insertions (h : Flow latency context chunks taken queue s) (hs : s.Sound)
    (ht : s.Timely keys) :
    (queue ++ s.drainInsertions.map (·.stored)).Pairwise (·.key < ·.key) := by
  refine List.pairwise_append.mpr ⟨h.sorted, ?_, ?_⟩
  · refine List.pairwise_map.mpr ((hs.pairwise_drainInsertions ht.delay_nonneg).imp_of_mem ?_)
    rintro x y hx hy ⟨hxy, hsequence⟩
    refine Concurrent.key_lt hxy hsequence ?_
    rw [h.delay _ (h.task_of_insertion hx).1, h.delay _ (h.task_of_insertion hy).1]
    exact Int.le_refl _
  · -- A new event is due no earlier, and it has a larger number.
    intro ev hev y hy
    obtain ⟨x, hx, rfl⟩ := List.mem_map.mp hy
    obtain ⟨id, hid, -⟩ := (h.mem_iff ev).mp hev
    obtain ⟨e, he, hkey⟩ := Simulator.mem_entries_of_get? hid
    have hold : ev.key.sequence < s.sequences.next := hkey ▸ ht.lt_next e he
    have hnew := hs.le_sequence_drainInsertions ht.delay_nonneg hx
    refine EventKey.lt_of_time_le ?_ (Nat.lt_of_lt_of_le hold hnew)
    rw [h.time_of_insertion hx]
    exact h.due ev hev

/-- A chunk is handed in. -/
lemma push (h : Flow latency context chunks taken queue s) (hlatency : latency.isNegative = false)
    (hopen : s.inbox.closed = false) (chunk : List UInt8) :
    Flow latency context (chunks ++ [chunk]) taken queue
      { s with inbox := (s.inbox.push ⟨context, latency, printing chunk⟩).2 } := by
  have hpush : (s.inbox.push ⟨context, latency, printing chunk⟩).2.events =
      s.inbox.events.push ⟨context, latency, printing chunk⟩ := by
    simp [Inbox.push, hlatency, hopen]
  refine { h with account := ?_, delay := ?_ }
  · show _ = _ ++ (s.inbox.push ⟨context, latency, printing chunk⟩).2.events.toList.map _
    rw [hpush, Array.toList_push, List.map_append, List.map_append, h.account, ← List.append_assoc]
    rfl
  · intro ev hev
    rw [show ev ∈ _ ↔ _ from hpush ▸ Array.mem_push] at hev
    rcases hev with hev | rfl
    · exact h.delay ev hev
    · rfl

/-- The inbox is emptied. -/
lemma drain (h : Flow latency context chunks taken queue s) (hs : s.Sound) (ht : s.Timely keys) :
    ∃ queue, Flow latency context chunks taken queue s.drainInbox ∧
      s.drainInbox.inbox.events = #[] := by
  let new := s.drainInsertions
  have hget : ∀ {id ev}, s.drainInbox.scheduler.get? id = some ev ↔ s.scheduler.get? id = some ev ∨
      ∃ x ∈ new, x.id = id ∧ x.stored = ev := hs.get?_drainInbox ht.delay_nonneg
  have hstop : ∀ {x}, x ∈ new → x.stored.task ≠ .stop := fun hx => (h.task_of_insertion hx).2
  have hnow : s.drainInbox.now = s.now := by
    rw [Simulator.drainInbox_eq, Simulator.insertAll_unchanged]
  have hempty : s.drainInbox.inbox.events = #[] := by
    rw [(Simulator.inbox_drainInbox s).1]
    rfl
  refine ⟨queue ++ new.map (·.stored), ⟨?_, ?_, h.sorted_insertions hs ht, ?_, ?_, ?_, ?_⟩, hempty⟩
  · have hcontent : (new.map (·.stored)).map (·.content) =
        s.inbox.events.toList.map (·.content) := by
      rw [← s.map_event_drainInsertions, List.map_map, List.map_map]
      rfl
    rw [h.account, hempty, List.map_append, hcontent]
    simp
  · intro ev
    rw [List.mem_append, h.mem_iff, List.mem_map]
    constructor
    · rintro (⟨id, hev, htask⟩ | ⟨x, hx, rfl⟩)
      · exact ⟨id, hget.mpr (Or.inl hev), htask⟩
      · exact ⟨x.id, hget.mpr (Or.inr ⟨x, hx, rfl, rfl⟩), hstop hx⟩
    · rintro ⟨id, hev, htask⟩
      rcases hget.mp hev with hev | ⟨x, hx, -, rfl⟩
      · exact Or.inl ⟨id, hev, htask⟩
      · exact Or.inr ⟨x, hx, rfl⟩
  · intro ev hev
    rw [hnow]
    rcases List.mem_append.mp hev with hev | hev
    · exact h.due ev hev
    · obtain ⟨x, hx, rfl⟩ := List.mem_map.mp hev
      have htime := h.time_of_insertion hx
      exact Int.le_of_eq (congrArg Time.ticks htime)
  · intro id ev hev
    rcases hget.mp hev with hev | ⟨x, -, -, rfl⟩
    · exact h.live id ev hev
    · rfl
  · rw [hempty]
    simp
  · obtain ⟨id, hid⟩ := h.single
    refine ⟨id, fun id' ev hev htask => ?_⟩
    rcases hget.mp hev with hev | ⟨x, hx, -, rfl⟩
    · exact hid id' ev hev htask
    · exact absurd htask (hstop hx)

/-- The flow behind an event that is taken off, given the queue that is left. -/
lemma leave (h : Flow latency context chunks taken queue s)
    (hev : s.scheduler.get? id = some ev) (hnow : s.now ≤ ev.key.time)
    {q : Scheduler (Task RelayCode)}
    (hget : ∀ {id' ev'}, q.get? id' = some ev' → s.scheduler.get? id' = some ev')
    (rest : List (Event (Task RelayCode)))
    (hqueue : queue = (if isPrinting ev.task then [ev] else []) ++ rest)
    (hmem : ∀ ev', ev' ∈ rest ↔ ∃ id', q.get? id' = some ev' ∧ ev'.task ≠ .stop) :
    Flow latency context chunks (taken ++ [(id, ev)]) rest
      { s with scheduler := q, now := ev.key.time } := by
  have hsub : rest.Sublist queue := hqueue ▸ List.sublist_append_right _ rest
  obtain ⟨stop, hstop⟩ := h.single
  refine ⟨?_, hmem, h.sorted.sublist hsub, fun ev' hev' => ?_, fun id' ev' hev' => ?_, h.delay,
    stop, fun id' ev' hev' => hstop id' ev' (hget hev')⟩
  · rw [h.account, hqueue, printed_concat (h.live id ev hev), List.map_append, List.map_append]
    simp only [List.append_assoc]
  · exact Int.le_trans (h.due ev' (hsub.subset hev')) (Time.add_le_add hnow (Int.le_refl _))
  · exact h.live id' ev' (hget hev')

/-- The event at the front of the queue is taken off. -/
lemma take (h : Flow latency context chunks taken queue s) (ht : s.Timely keys)
    {q : Scheduler (Task RelayCode)} (hnext : s.scheduler.removeNext = (some (id, ev), q)) :
    (ev.task = .stop → Unstopped { s with scheduler := q, now := ev.key.time }) ∧
      ∃ queue, Flow latency context chunks (taken ++ [(id, ev)]) queue
        { s with scheduler := q, now := ev.key.time } := by
  obtain ⟨hev, hq⟩ := ht.consistent.get?_removeNext hnext
  obtain ⟨hnow, htimely, -⟩ := ht.take hnext
  have hget : ∀ {id' ev'}, q.get? id' = some ev' ↔ id' ≠ id ∧ s.scheduler.get? id' = some ev' := by
    intro id' ev'
    rw [hq]
    split
    · next hid => simp [hid]
    · next hid => simp [hid]
  have hleave := h.leave hev hnow (q := q) fun {_ _} hev' => (hget.mp hev').2
  by_cases htask : ev.task = .stop
  · obtain ⟨stop, hstop⟩ := h.single
    refine ⟨fun _ id' ev' hev' htask' => ?_, queue, hleave queue ?_ fun ev' => ?_⟩
    · obtain ⟨hne, hev'⟩ := hget.mp hev'
      exact hne ((hstop id' ev' hev' htask').trans (hstop id ev hev htask).symm)
    · rw [htask]
      rfl
    · rw [h.mem_iff]
      refine exists_congr fun id' => and_congr_left fun htask' => ?_
      rw [hget, and_iff_right_of_imp]
      rintro hev' rfl
      rw [hev, Option.some.injEq] at hev'
      exact htask' (hev' ▸ htask)
  · have hbehind : ∀ {id' ev'}, q.get? id' = some ev' → ev.key < ev'.key := by
      intro id' ev' hev'
      obtain ⟨e, he, hkey⟩ := Simulator.mem_entries_of_get?
        (s := { s with scheduler := q, now := ev.key.time }) hev'
      rw [← hkey]
      exact htimely.taken_lt ev.key (by simp) e he
    have hmem : ev ∈ queue := (h.mem_iff ev).mpr ⟨id, hev, htask⟩
    have hfirst : ∀ ev' ∈ queue, ev' = ev ∨ ∃ id', q.get? id' = some ev' ∧ ev'.task ≠ .stop := by
      intro ev' hev'
      obtain ⟨id', hid', htask'⟩ := (h.mem_iff ev').mp hev'
      by_cases hid : id' = id
      · rw [hid, hev, Option.some.injEq] at hid'
        exact Or.inl hid'.symm
      · exact Or.inr ⟨id', hget.mpr ⟨hid, hid'⟩, htask'⟩
    obtain ⟨rest, rfl⟩ := exists_cons_of_pairwise h.sorted hmem fun ev' hev' =>
      (hfirst ev' hev').imp_right fun ⟨_, hid', _⟩ => hbehind hid'
    obtain ⟨chunk, hchunk⟩ := h.printing_of_mem hmem
    refine ⟨fun hstop => absurd hstop htask, rest,
      hleave rest ?_ fun ev' => ⟨fun hev' => ?_, ?_⟩⟩
    · rw [hchunk]
      rfl
    · have hlt := (List.pairwise_cons.mp h.sorted).1 ev' hev'
      refine (hfirst ev' (List.mem_cons_of_mem ev hev')).resolve_left ?_
      rintro rfl
      exact lt_irrefl _ hlt
    · rintro ⟨id', hid', htask'⟩
      have hev' := (h.mem_iff ev').mpr ⟨id', (hget.mp hid').2, htask'⟩
      rcases List.mem_cons.mp hev' with rfl | hev'
      · exact absurd (hbehind hid') (lt_irrefl _)
      · exact hev'

end Flow

end Relay

end EventKernel
