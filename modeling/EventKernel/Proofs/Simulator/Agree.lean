import EventKernel.Proofs.Event.Matching
import EventKernel.Proofs.Simulator.Owner

/-!
# Simulators that agree up to cancelled events

Two simulators agree if they hold the same live events, in slots that correspond, and differ in
nothing else but in what names of code say about slots. What they hold of cancelled events does not
count. So it does not matter whether an event is cancelled or taken away, as long as nobody tries to
take an event away that was cancelled before. The handles that programs know are therefore told from
those that only timers know: timers cancel their events, programs take theirs away.
-/

namespace EventKernel

open Simulator (Sound)

variable {K : Type} {C : Correspondence K} {w w' v v' : Matching} {id id' : EventId}

/-! ### Tasks and what waits -/

/-- Two tasks that are the same but for slots. -/
inductive Task.Matched (C : Correspondence K) (w : Matching) : Task K → Task K → Prop where
  | user {k l : K} (h : C.rel w k l) : Matched C w (.user k) (.user l)
  | stop : Matched C w .stop .stop
  | watchdog (n : Nat) : Matched C w (.watchdog n) (.watchdog n)
  | trickleInterval (n : Nat) : Matched C w (.trickleInterval n) (.trickleInterval n)
  | trickleFire (n : Nat) : Matched C w (.trickleFire n) (.trickleFire n)

lemma Task.Matched.mono {task task' : Task K} (h : task.Matched C w task') (hle : w ≤ w') :
    task.Matched C w' task' := by
  cases h with
  | user h => exact .user (C.mono h hle)
  | stop => exact .stop
  | watchdog n => exact .watchdog n
  | trickleInterval n => exact .trickleInterval n
  | trickleFire n => exact .trickleFire n

lemma Task.Matched.isPlain_iff {task task' : Task K} (h : task.Matched C w task') :
    task'.IsPlain ↔ task.IsPlain := by
  cases h <;> exact Iff.rfl

/-- Two stored events that are the same but for slots. -/
structure Event.Matched (C : Correspondence K) (w : Matching) (ev ev' : Event (Task K)) :
    Prop where
  key_eq : ev'.key = ev.key
  context_eq : ev'.context = ev.context
  task : ev.task.Matched C w ev'.task

lemma Event.Matched.mono {ev ev' : Event (Task K)} (h : ev.Matched C w ev') (hle : w ≤ w') :
    ev.Matched C w' ev' :=
  { h with task := h.task.mono hle }

/-- Two events from outside that are the same but for slots. -/
structure RemoteEvent.Matched (C : Correspondence K) (w : Matching)
    (ev ev' : RemoteEvent (Task K)) : Prop where
  context_eq : ev'.context = ev.context
  delay_eq : ev'.delay = ev.delay
  task : ev.task.Matched C w ev'.task

/-- Two inboxes that are the same but for slots. -/
structure Inbox.Matched (C : Correspondence K) (w : Matching) (b b' : Inbox (Task K)) :
    Prop where
  events : List.Forall₂ (RemoteEvent.Matched C w) b.events.toList b'.events.toList
  closed_eq : b'.closed = b.closed
  stop_eq : b'.stop = b.stop

namespace Inbox

variable {b b' : Inbox (Task K)}

lemma matched_shut : (shut : Inbox (Task K)).Matched C w shut := ⟨.nil, rfl, rfl⟩

lemma Matched.mono (h : b.Matched C w b') (hle : w ≤ w') : b.Matched C w' b' :=
  { h with events := h.events.imp fun _ _ hev => { hev with task := hev.task.mono hle } }

lemma Matched.isEmpty_iff (h : b.Matched C w b') : b'.events = #[] ↔ b.events = #[] := by
  have hlen := h.events.length_eq
  rw [Array.length_toList, Array.length_toList] at hlen
  rw [← Array.size_eq_zero_iff, ← Array.size_eq_zero_iff, hlen]

lemma Matched.describeRemote_eq (h : b.Matched C w b') :
    b'.describeRemote = b.describeRemote := by
  have hclosed := h.closed_eq
  unfold describeRemote
  simp only [hclosed]

lemma Matched.push (h : b.Matched C w b') {ev ev' : RemoteEvent (Task K)}
    (hev : ev.Matched C w ev') :
    (b'.push ev').1 = (b.push ev).1 ∧ (b.push ev).2.Matched C w (b'.push ev').2 := by
  rw [Inbox.push, Inbox.push, hev.delay_eq]
  split
  · exact ⟨rfl, h⟩
  · have hclosed : b'.closed = true ↔ b.closed = true := by rw [h.closed_eq]
    by_cases hc : b.closed = true
    · rw [if_pos hc, if_pos (hclosed.mpr hc)]
      exact ⟨rfl, h⟩
    · rw [if_neg hc, if_neg (hc ∘ hclosed.mp)]
      refine ⟨rfl, { h with events := ?_ }⟩
      simp only [Array.toList_push]
      exact List.rel_append h.events (.cons hev .nil)

end Inbox

/-! ### Live events -/

/-- An event, unless it was cancelled. -/
def liveOf {α : Type} (ev : Option (Event α)) : Option (Event α) := ev.filter (!·.cancelled)

section

variable {α : Type} {ev : Event α} {o : Option (Event α)}

lemma liveOf_eq_some_iff : liveOf o = some ev ↔ o = some ev ∧ ev.cancelled = false := by
  simp [liveOf, Option.filter_eq_some_iff]

lemma liveOf_some (h : ev.cancelled = false) : liveOf (some ev) = some ev :=
  liveOf_eq_some_iff.mpr ⟨rfl, h⟩

@[simp] lemma liveOf_mark (o : Option (Event α)) :
    liveOf (o.map fun ev => { ev with cancelled := true }) = none := by
  cases o <;> rfl

lemma isSome_liveOf (o : Option (Event α)) : (liveOf o).isSome = o.any (!·.cancelled) := by
  cases o with
  | none => rfl
  | some ev => cases h : ev.cancelled <;> simp [liveOf, h]

end

/-- What two simulators hold, told by their handles: the same live events. Programs know those
handles that are matched in `w`, all handles are matched in `v`. -/
structure SameLive (C : Correspondence K) (w v : Matching)
    (f g : EventId → Option (Event (Task K))) : Prop where
  le : w ≤ v
  live : ∀ {id id' : EventId}, id.Matched v id' →
    Option.Rel (Event.Matched C w) (liveOf (f id)) (liveOf (g id'))
  left_total : ∀ {id : EventId} {ev}, liveOf (f id) = some ev → ∃ id', id.Matched v id'
  right_total : ∀ {id' : EventId} {ev}, liveOf (g id') = some ev → ∃ id : EventId, id.Matched v id'
  /-- Programs know no events of timers. -/
  left_plain : ∀ {id id' : EventId} {ev}, id.Matched w id' → f id = some ev → ev.task.IsPlain
  right_plain : ∀ {id id' : EventId} {ev}, id.Matched w id' → g id' = some ev → ev.task.IsPlain
  /-- On the right only timers cancel events. -/
  marked : ∀ {id ev}, g id = some ev → ev.cancelled = true → ¬ev.task.IsPlain

namespace SameLive

variable {f g f' g' : EventId → Option (Event (Task K))}

/-- Cancelled events can be lost on both sides. -/
lemma congr (h : SameLive C w v f g) (hf : ∀ id, liveOf (f' id) = liveOf (f id))
    (hg : ∀ id, liveOf (g' id) = liveOf (g id)) (hsub : ∀ id ev, f' id = some ev → f id = some ev)
    (hsub' : ∀ id ev, g' id = some ev → g id = some ev) : SameLive C w v f' g' where
  le := h.le
  live hid := by
    rw [hf, hg]
    exact h.live hid
  left_total hev := h.left_total (hf _ ▸ hev)
  right_total hev := h.right_total (hg _ ▸ hev)
  left_plain hid hev := h.left_plain hid (hsub _ _ hev)
  right_plain hid hev := h.right_plain hid (hsub' _ _ hev)
  marked hev hc := h.marked (hsub' _ _ hev) hc

/-- A change of what two handles that are matched name. -/
lemma update (h : SameLive C w v f g) (hid : id.Matched v id')
    {x y : Option (Event (Task K))} (hf : ∀ j, f' j = if j = id then x else f j)
    (hg : ∀ j, g' j = if j = id' then y else g j)
    (hlive : Option.Rel (Event.Matched C w) (liveOf x) (liveOf y))
    (hx : ∀ ev, id.Matched w id' → x = some ev → ev.task.IsPlain)
    (hy : ∀ ev, id.Matched w id' → y = some ev → ev.task.IsPlain)
    (hmarked : ∀ ev, y = some ev → ev.cancelled = true → ¬ev.task.IsPlain) :
    SameLive C w v f' g' where
  le := h.le
  live {i i'} hi := by
    rw [hf, hg]
    by_cases heq : i = id
    · rw [if_pos heq, if_pos ((hid.eq_iff hi).mp heq)]
      exact hlive
    · rw [if_neg heq, if_neg fun hi' => heq ((hid.eq_iff hi).mpr hi')]
      exact h.live hi
  left_total {i ev} hev := by
    rw [hf] at hev
    split at hev
    · next heq => exact ⟨id', heq ▸ hid⟩
    · exact h.left_total hev
  right_total {i ev} hev := by
    rw [hg] at hev
    split at hev
    · next heq => exact ⟨id, heq ▸ hid⟩
    · exact h.right_total hev
  left_plain {i i' ev} hi hev := by
    rw [hf] at hev
    split at hev
    · next heq =>
      subst heq
      obtain rfl := (hi.mono h.le).right_unique hid
      exact hx ev hi hev
    · exact h.left_plain hi hev
  right_plain {i i' ev} hi hev := by
    rw [hg] at hev
    split at hev
    · next heq =>
      subst heq
      obtain rfl := (hi.mono h.le).left_unique hid
      exact hy ev hi hev
    · exact h.right_plain hi hev
  marked {i ev} hev hc := by
    rw [hg] at hev
    split at hev
    · exact hmarked ev hev hc
    · exact h.marked hev hc

/-- A new pair of handles is matched that name nothing yet. -/
lemma extend (h : SameLive C w v f g) (hle : v ≤ v')
    (hnew : ∀ i i', i.Matched v' i' → i.Matched v i' ∨ f i = none ∧ g i' = none) :
    SameLive C w v' f g where
  le := le_trans h.le hle
  live {i i'} hi := by
    rcases hnew i i' hi with hi | ⟨hf, hg⟩
    · exact h.live hi
    · rw [hf, hg]
      exact .none
  left_total hev := (h.left_total hev).imp fun _ hi => hi.mono hle
  right_total hev := (h.right_total hev).imp fun _ hi => hi.mono hle
  left_plain := h.left_plain
  right_plain := h.right_plain
  marked := h.marked

/-- Programs come to know a pair of handles that name no events of timers. -/
lemma reveal (h : SameLive C w v f g) (hle : w ≤ w') (hle' : w' ≤ v)
    (hnew : ∀ i i', i.Matched w' i' → i.Matched w i' ∨ (∀ ev, f i = some ev → ev.task.IsPlain) ∧
      ∀ ev, g i' = some ev → ev.task.IsPlain) : SameLive C w' v f g where
  le := hle'
  live hi := rel_option_mono (fun _ _ hev => hev.mono hle) (h.live hi)
  left_total := h.left_total
  right_total := h.right_total
  left_plain {i i' ev} hi hev := by
    rcases hnew i i' hi with hi | ⟨hf, -⟩
    · exact h.left_plain hi hev
    · exact hf ev hev
  right_plain {i i' ev} hi hev := by
    rcases hnew i i' hi with hi | ⟨-, hg⟩
    · exact h.right_plain hi hev
    · exact hg ev hev
  marked := h.marked

/-- What programs know of is live on the right if it is there at all. -/
lemma liveOf_right (h : SameLive C w v f g) (hid : id.Matched w id') :
    liveOf (g id') = g id' := by
  cases hev : g id' with
  | none => rfl
  | some ev =>
    refine liveOf_some ?_
    by_contra hc
    exact h.marked hev (Bool.not_eq_false _ ▸ hc) (h.right_plain hid hev)

/-- A timer finds an event of a timer under its handle on both sides, or none. -/
lemma not_isPlain_right (h : SameLive C w v f g) (hid : id.Matched v id')
    (hown : ∀ ev, f id = some ev → ¬ev.task.IsPlain) {ev : Event (Task K)}
    (hev : g id' = some ev) : ¬ev.task.IsPlain := by
  cases hc : ev.cancelled with
  | true => exact h.marked hev hc
  | false =>
    have hlive := h.live hid
    rw [liveOf_eq_some_iff.mpr ⟨hev, hc⟩] at hlive
    cases hleft : liveOf (f id) with
    | none =>
      rw [hleft] at hlive
      cases hlive
    | some old =>
      rw [hleft] at hlive
      cases hlive with
      | some hsame =>
        rw [hsame.task.isPlain_iff]
        exact hown old (liveOf_eq_some_iff.mp hleft).1

end SameLive

/-! ### Simulators -/

namespace Simulator

variable {s t : Simulator K}

/-- Two simulators that hold the same live events and differ in nothing but cancelled events and
slots. -/
structure Agree (C : Correspondence K) (w v : Matching) (s t : Simulator K) : Prop where
  left : s.Sound
  right : t.Sound
  events : SameLive C w v s.find? t.find?
  lt_next : ∀ {n i j : Nat}, v.slots n i j → n < s.sequences.next
  sequences_eq : t.sequences = s.sequences
  kind_eq : t.scheduler.kind = s.scheduler.kind
  identity_eq : t.identity = s.identity
  now_eq : t.now = s.now
  context_eq : t.context = s.context
  phase_eq : t.phase = s.phase
  stop_eq : t.stopRequested = s.stopRequested
  sync_eq : t.sync = s.sync
  count_eq : t.eventCount = s.eventCount
  observer : C.option.rel w s.observer t.observer
  inbox : s.inbox.Matched C w t.inbox

/-- Two answers to a call that issues a handle, unless it is refused. -/
inductive Handed (w : Matching) : Except SimError EventId → Except SimError EventId → Prop where
  | ok {id id' : EventId} (h : id.Matched w id') : Handed w (.ok id) (.ok id')
  | error (e : SimError) : Handed w (.error e) (.error e)

lemma Sound.insert (h : s.Sound) (context : ContextId) (delay : Time) (task : Task K) :
    (s.insert context delay task).2.Sound := by
  obtain ⟨hseq, hnone, hfind⟩ := h.find?_insert context delay task
  exact (h.advance_issue (t := (s.insert context delay task).2) (h.consistent.insert _) h.nodup rfl
    rfl hseq hnone hfind).sound

lemma Sound.task_of_scheduleWith (h : s.Sound) {context : ContextId} {delay : Time} {task : Task K}
    (hs : s.scheduleWith context delay task = (.ok id, t)) {ev : Event (Task K)}
    (hev : t.find? id = some ev) : ev.task = task := by
  rcases h.scheduleWith_cases context delay task with ⟨e, he, -⟩ | ⟨j, r, hr, -, -, -, hfind, -⟩
  · cases hs.symm.trans he
  · cases hs.symm.trans hr
    cases hfind.symm.trans hev
    rfl

@[simp] lemma kind_cancel (id : EventId) (s : Simulator K) :
    (s.cancel id).2.scheduler.kind = s.scheduler.kind := by
  simp only [Simulator.cancel]
  split
  · rfl
  · split
    · rfl
    · exact Scheduler.kind_cancel ..

lemma Sound.kind_remove (h : s.Sound) (id : EventId) :
    (s.remove id).2.scheduler.kind = s.scheduler.kind := by
  simp only [Simulator.remove]
  split
  · rfl
  · split
    · rfl
    · exact h.consistent.kind_remove _

namespace Agree

variable {s' t' : Simulator K} {turns turns' : List (Turn K)}

/-- Programs come to know a pair of handles that name no events of timers. -/
lemma reveal (h : Agree C w v s t) (hid : id.Matched v id')
    (hplain : ∀ ev, s.find? id = some ev → ev.task.IsPlain)
    (hplain' : ∀ ev, t.find? id' = some ev → ev.task.IsPlain) :
    ∃ u, w ≤ u ∧ id.Matched u id' ∧ Agree C u v s t := by
  obtain ⟨u, hle, hle', hu, hnew⟩ := hid.exists_insert h.events.le
  refine ⟨u, hle, hu, { h with events := h.events.reveal hle hle' ?_, observer := ?_, inbox := ?_ }⟩
  · intro i i' hi
    rcases hnew i i' hi with hi | ⟨rfl, rfl⟩
    · exact Or.inl hi
    · exact Or.inr ⟨hplain, hplain'⟩
  · exact C.option.mono h.observer hle
  · exact h.inbox.mono hle

/-! #### Scheduling -/

/-- The new events of both sides are matched from now on. -/
lemma insert (h : Agree C w v s t) (context : ContextId) (delay : Time) {task task' : Task K}
    (htask : task.Matched C w task') :
    ∃ u, v ≤ u ∧
      (s.insert context delay task).1.Matched u (t.insert context delay task').1 ∧
      Agree C w u (s.insert context delay task).2 (t.insert context delay task').2 := by
  obtain ⟨-, hnone, hfind⟩ := h.left.find?_insert context delay task
  obtain ⟨-, hnone', hfind'⟩ := h.right.find?_insert context delay task'
  obtain ⟨i, hi⟩ : ∃ i, (s.insert context delay task).1 = .queued i s.sequences.next := ⟨_, rfl⟩
  obtain ⟨j, hj⟩ : ∃ j, (t.insert context delay task').1 = .queued j s.sequences.next :=
    ⟨_, by rw [← h.sequences_eq]; rfl⟩
  have hfresh : ∀ k l, ¬v.slots s.sequences.next k l := fun k l hkl =>
    Nat.lt_irrefl _ (h.lt_next hkl)
  have hleft : ∀ k, v.slots s.sequences.next k j → k = i := fun k hk => absurd hk (hfresh k j)
  have hright : ∀ k, v.slots s.sequences.next i k → k = j := fun k hk => absurd hk (hfresh i k)
  have hle := Matching.le_insert hleft hright
  have hids := (EventId.matched_insert_iff hleft hright).mpr (Or.inr ⟨rfl, rfl⟩)
  have hknown : ∀ u, (s.insert context delay task).1.Matched w u → False := by
    intro u hu
    rw [hi] at hu
    cases hu with
    | queued hu => exact hfresh _ _ (h.events.le _ _ _ hu)
  rw [← hi, ← hj] at hids
  refine ⟨_, hle, hids, { h with
    left := h.left.insert .., right := h.right.insert .., events := ?_,
    lt_next := ?_, sequences_eq := ?_, kind_eq := ?_ }⟩
  · refine (h.events.extend hle ?_).update hids hfind hfind' ?_ ?_ ?_ ?_
    · intro k l hkl
      rcases (EventId.matched_insert_iff hleft hright).mp hkl with hkl | ⟨rfl, rfl⟩
      · exact Or.inl hkl
      · exact Or.inr ⟨hi ▸ hnone, hj ▸ hnone'⟩
    · rw [liveOf_some rfl, liveOf_some rfl]
      refine .some ⟨?_, rfl, htask⟩
      rw [h.now_eq, h.sequences_eq]
    · intro ev hknows
      exact absurd hknows (hknown _)
    · intro ev hknows
      exact absurd hknows (hknown _)
    · intro ev hev hc
      cases hev
      cases hc
  · rintro n k l (hkl | ⟨rfl, -, -⟩)
    · exact Nat.lt_succ_of_lt (h.lt_next hkl)
    · exact Nat.lt_succ_self _
  · exact congrArg (fun c : SequenceSource => (⟨c.next + 1⟩ : SequenceSource)) h.sequences_eq
  · exact (Scheduler.kind_insert ..).trans (h.kind_eq.trans (Scheduler.kind_insert ..).symm)

lemma scheduleWith (h : Agree C w v s t) (context : ContextId) (delay : Time) {task task' : Task K}
    (htask : task.Matched C w task') :
    ∃ a b s' t' u, s.scheduleWith context delay task = (a, s') ∧
      t.scheduleWith context delay task' = (b, t') ∧ v ≤ u ∧ Handed u a b ∧ Agree C w u s' t' := by
  rw [Simulator.scheduleWith, Simulator.scheduleWith, h.phase_eq]
  split
  · exact ⟨_, _, _, _, v, rfl, rfl, le_refl v, .error _, h⟩
  · split
    · exact ⟨_, _, _, _, v, rfl, rfl, le_refl v, .error _, h⟩
    · obtain ⟨u, hle, hids, h'⟩ := h.insert context delay htask
      exact ⟨_, _, _, _, u, rfl, rfl, hle, .ok hids, h'⟩

lemma schedule (h : Agree C w v s t) (delay : Time) {task task' : Task K}
    (htask : task.Matched C w task') :
    ∃ a b s' t' u, s.schedule delay task = (a, s') ∧ t.schedule delay task' = (b, t') ∧
      v ≤ u ∧ Handed u a b ∧ Agree C w u s' t' := by
  rw [Simulator.schedule, Simulator.schedule, h.context_eq]
  exact h.scheduleWith s.context delay htask

/-- A program that schedules an event learns its handle. -/
lemma scheduleKnown (h : Agree C w v s t) (context : ContextId) (delay : Time)
    {task task' : Task K} (htask : task.Matched C w task') (hplain : task.IsPlain) :
    ∃ a b s' t' w' v', s.scheduleWith context delay task = (a, s') ∧
      t.scheduleWith context delay task' = (b, t') ∧ w ≤ w' ∧ v ≤ v' ∧ Handed w' a b ∧
      Agree C w' v' s' t' := by
  obtain ⟨a, b, s', t', u, hs, ht, hle, hab, h'⟩ := h.scheduleWith context delay htask
  cases hab with
  | error e => exact ⟨_, _, s', t', w, u, hs, ht, le_refl w, hle, .error e, h'⟩
  | @ok id id' hids =>
    obtain ⟨w', hle', hids', h''⟩ := h'.reveal hids
      (fun ev hev => by rwa [h.left.task_of_scheduleWith hs hev])
      (fun ev hev => by rwa [h.right.task_of_scheduleWith ht hev, htask.isPlain_iff])
    exact ⟨_, _, s', t', w', u, hs, ht, hle', hle, .ok hids', h''⟩

/-- A change of what is held on both sides. -/
lemma change (h : Agree C w v s t) (hs : EventChange s turns s') (ht : EventChange t turns' t')
    (hevents : SameLive C w v s'.find? t'.find?) (hseq : t'.sequences = s'.sequences)
    (hkind : t'.scheduler.kind = s'.scheduler.kind) : Agree C w v s' t' := by
  have hleft := h.left.eventChange hs
  have hright := h.right.eventChange ht
  obtain ⟨q, n, l, rfl⟩ : ∃ q n l, s' = { s with scheduler := q, sequences := n, teardown := l } :=
    ⟨_, _, _, hs.unchanged⟩
  obtain ⟨q', n', l', rfl⟩ :
      ∃ q n l, t' = { t with scheduler := q, sequences := n, teardown := l } :=
    ⟨_, _, _, ht.unchanged⟩
  exact { h with
    left := hleft.sound, right := hright.sound, events := hevents, sequences_eq := hseq,
    kind_eq := hkind, lt_next := fun hij => Nat.lt_of_lt_of_le (h.lt_next hij) hleft.next_le }

/-- Teardown events have no slots. -/
lemma scheduleDestroy (h : Agree C w v s t) {k l : K} (hk : C.rel w k l) :
    ∃ a s' t', s.scheduleDestroy (.user k) = (a, s') ∧ t.scheduleDestroy (.user l) = (a, t') ∧
      Handed w a a ∧ Agree C w v s' t' := by
  by_cases hphase : s.phase = .destroyed
  · rw [Simulator.scheduleDestroy, Simulator.scheduleDestroy, h.phase_eq, if_pos hphase,
      if_pos hphase]
    exact ⟨_, _, _, rfl, rfl, .error _, h⟩
  · have hphase' : t.phase ≠ .destroyed := by rwa [h.phase_eq]
    obtain ⟨hok, hfind⟩ := h.left.find?_register (.user k) hphase
    obtain ⟨hok', hfind'⟩ := h.right.find?_register (.user l) hphase'
    rw [h.sequences_eq] at hok' hfind'
    refine ⟨_, _, _, Prod.ext hok rfl, Prod.ext hok' rfl, .ok (.destroy _),
      h.change (.register s k hphase) (.register t l hphase') ?_ ?_ ?_⟩
    · refine h.events.update (.destroy s.sequences.next) hfind hfind' ?_ ?_ ?_ ?_
      · exact .some ⟨rfl, rfl, .user hk⟩
      · rintro ev - ⟨⟩
        trivial
      · rintro ev - ⟨⟩
        trivial
      · rintro ev ⟨⟩ hc
        cases hc
    · rw [Simulator.scheduleDestroy, Simulator.scheduleDestroy, if_neg hphase, if_neg hphase']
      exact congrArg (fun c : SequenceSource => (⟨c.next + 1⟩ : SequenceSource)) h.sequences_eq
    · rw [Simulator.scheduleDestroy, Simulator.scheduleDestroy, if_neg hphase, if_neg hphase']
      exact h.kind_eq

/-! #### Handles -/

lemma isExpired_eq (h : Agree C w v s t) (hid : id.Matched v id') :
    t.isExpired id' = s.isExpired id := by
  rw [h.right.isExpired_eq, h.left.isExpired_eq, ← isSome_liveOf, ← isSome_liveOf]
  have hlive := h.events.live hid
  generalize liveOf (s.find? id) = x at hlive
  generalize liveOf (t.find? id') = y at hlive
  cases hlive <;> rfl

lemma delayLeft_eq (h : Agree C w v s t) (hid : id.Matched v id') :
    t.delayLeft id' = s.delayLeft id := by
  have hexpired := h.isExpired_eq hid
  cases hpending : s.isExpired id with
  | true => simp only [delayLeft, hexpired, hpending, if_true]
  | false =>
    obtain ⟨ev, hev, hlive, hleft⟩ := h.left.delayLeft_of_pending hpending
    obtain ⟨ev', hev', hlive', hright⟩ := h.right.delayLeft_of_pending (hexpired.trans hpending)
    have hsame := h.events.live hid
    rw [liveOf_eq_some_iff.mpr ⟨hev, hlive⟩, liveOf_eq_some_iff.mpr ⟨hev', hlive'⟩] at hsame
    cases hsame with
    | some hsame => rw [hleft, hright, hsame.key_eq, h.now_eq]

/-- A timer cancels an event of its own on both sides. -/
lemma cancel (h : Agree C w v s t) (hid : id.Matched v id')
    (hown : ∀ ev, s.find? id = some ev → ¬ev.task.IsPlain) :
    (t.cancel id').1 = (s.cancel id).1 ∧ Agree C w v (s.cancel id).2 (t.cancel id').2 := by
  obtain ⟨hs, -, hfind⟩ := h.left.find?_cancel id
  obtain ⟨ht, -, hfind'⟩ := h.right.find?_cancel id'
  obtain ⟨-, -, hseq⟩ := h.left.cancel_parts id
  obtain ⟨-, -, hseq'⟩ := h.right.cancel_parts id'
  have hexpired := h.isExpired_eq hid
  rw [h.right.isExpired_eq, h.left.isExpired_eq] at hexpired
  refine ⟨?_, h.change (.cancel s id) (.cancel t id') ?_ ?_ ?_⟩
  · rw [hs, ht]
    exact Bool.not_inj hexpired
  · refine h.events.update hid hfind hfind' ?_ ?_ ?_ ?_
    · rw [liveOf_mark, liveOf_mark]
      exact .none
    · rintro ev hknown hev
      obtain ⟨old, hold, rfl⟩ := Option.map_eq_some_iff.mp hev
      have hplain := h.events.left_plain hknown hold
      exact hplain
    · rintro ev hknown hev
      obtain ⟨old, hold, rfl⟩ := Option.map_eq_some_iff.mp hev
      have hplain := h.events.right_plain hknown hold
      exact hplain
    · rintro ev hev -
      obtain ⟨old, hold, rfl⟩ := Option.map_eq_some_iff.mp hev
      have hplain := h.events.not_isPlain_right hid hown hold
      exact hplain
  · rw [hseq, hseq', h.sequences_eq]
  · rw [kind_cancel, kind_cancel, h.kind_eq]

/-- A program cancels an event on the left and takes it away on the right. -/
lemma withdraw (h : Agree C w v s t) (hid : id.Matched w id') :
    (t.remove id').1 = (s.cancel id).1 ∧ Agree C w v (s.cancel id).2 (t.remove id').2 := by
  have hv := hid.mono h.events.le
  obtain ⟨hs, -, hfind⟩ := h.left.find?_cancel id
  obtain ⟨ht, -, hfind'⟩ := h.right.find?_remove id'
  obtain ⟨-, -, hseq⟩ := h.left.cancel_parts id
  obtain ⟨-, -, hseq'⟩ := h.right.remove_parts id'
  refine ⟨?_, h.change (.cancel s id) (.remove t id') ?_ ?_ ?_⟩
  · have hlive := h.events.live hv
    rw [h.events.liveOf_right hid] at hlive
    rw [hs, ht, ← isSome_liveOf]
    generalize liveOf (s.find? id) = x at hlive
    generalize t.find? id' = y at hlive
    cases hlive <;> rfl
  · refine h.events.update hv hfind hfind' ?_ ?_ ?_ ?_
    · rw [liveOf_mark]
      exact .none
    · rintro ev - hev
      obtain ⟨old, hold, rfl⟩ := Option.map_eq_some_iff.mp hev
      have hplain := h.events.left_plain hid hold
      exact hplain
    · rintro ev - ⟨⟩
    · rintro ev ⟨⟩
  · rw [hseq, hseq', h.sequences_eq]
  · rw [kind_cancel, h.right.kind_remove, h.kind_eq]

lemma setScheduler (h : Agree C w v s t) (kind : QueueKind) :
    Agree C w v (s.setScheduler kind) (t.setScheduler kind) := by
  have hfind : ∀ r : Simulator K, (r.setScheduler kind).find? = r.find? := by
    intro r
    funext id
    cases id with
    | queued slot n => exact Scheduler.get?_setKind kind r.scheduler (.queued slot n)
    | destroy n => rfl
  refine h.change (.setKind s kind) (.setKind t kind) ?_ h.sequences_eq ?_
  · exact (congrArg₂ (SameLive C w v) (hfind s) (hfind t)).mpr h.events
  · exact (h.right.consistent.moveInto_empty kind).2.2.trans
      (h.left.consistent.moveInto_empty kind).2.2.symm

/-! #### Settings -/

lemma setObserver (h : Agree C w v s t) {k l : Option K} (hk : C.option.rel w k l) :
    Agree C w v { s with observer := k } { t with observer := l } :=
  { h with left := { h.left with }, right := { h.right with }, observer := hk }

lemma setSync (h : Agree C w v s t) {a b : SyncMode} (hab : b = a) :
    Agree C w v { s with sync := a } { t with sync := b } :=
  { h with left := { h.left with }, right := { h.right with }, sync_eq := hab }

lemma setContext (h : Agree C w v s t) (context : ContextId) :
    Agree C w v { s with context := context } { t with context := context } :=
  { h with left := { h.left with }, right := { h.right with }, context_eq := rfl }

lemma stop (h : Agree C w v s t) : Agree C w v s.stop t.stop :=
  { h with left := { h.left with }, right := { h.right with }, stop_eq := rfl }

/-! #### The inbox and the loop -/

lemma insertAll (h : Agree C w v s t) {evs evs' : List (RemoteEvent (Task K))}
    (hevs : List.Forall₂ (RemoteEvent.Matched C w) evs evs') :
    ∃ u, v ≤ u ∧ Agree C w u (insertAll evs s) (Simulator.insertAll evs' t) := by
  induction hevs generalizing s t v with
  | nil => exact ⟨v, le_refl v, h⟩
  | @cons ev ev' evs evs' hev _ ih =>
    obtain ⟨u, hle, -, h'⟩ := h.insert ev.context ev.delay hev.task
    obtain ⟨u', hle', h''⟩ := ih h'
    refine ⟨u', le_trans hle hle', ?_⟩
    simp only [Simulator.insertAll, List.foldl_cons, hev.context_eq, hev.delay_eq]
    exact h''

lemma setInbox (h : Agree C w v s t) {b b' : Inbox (Task K)} (hb : b.Matched C w b') :
    Agree C w v { s with inbox := b } { t with inbox := b' } :=
  { h with left := { h.left with }, right := { h.right with }, inbox := hb }

lemma drainInbox (h : Agree C w v s t) : ∃ u, v ≤ u ∧ Agree C w u s.drainInbox t.drainInbox := by
  rw [drainInbox_eq, drainInbox_eq]
  have hclear : s.inbox.clear.Matched C w t.inbox.clear := { h.inbox with events := .nil }
  exact (h.setInbox hclear).insertAll h.inbox.events

/-- Events that are matched are taken off both queues. -/
lemma take (h : Agree C w v s t) {ev ev' : Event (Task K)} {q q' : Scheduler (Task K)}
    (hs : s.scheduler.removeNext = (some (id, ev), q))
    (ht : t.scheduler.removeNext = (some (id', ev'), q')) (hid : id.Matched v id') (now : Time) :
    Agree C w v { s with scheduler := q, now := now } { t with scheduler := q', now := now } := by
  have hkind := h.left.consistent.kind_removeNext
  have hkind' := h.right.consistent.kind_removeNext
  rw [hs] at hkind
  rw [ht] at hkind'
  refine { h with
    left := (h.left.advance_take hs now).sound, right := (h.right.advance_take ht now).sound,
    events := ?_, now_eq := rfl, kind_eq := hkind'.trans (h.kind_eq.trans hkind.symm) }
  refine h.events.update hid (h.left.find?_take hs now).2 (h.right.find?_take ht now).2 .none ?_
    ?_ ?_
  · rintro _ - ⟨⟩
  · rintro _ - ⟨⟩
  · rintro _ ⟨⟩

end Agree

/-! ### A simulator and itself -/

/-- The handles that were given out. -/
def issued (s : Simulator K) : Matching := .same fun id => id.sequence < s.sequences.next

/-- The handles that were given out and name no events of timers. -/
def known (s : Simulator K) : Matching :=
  .same fun id => id.sequence < s.sequences.next ∧ ∀ ev, s.find? id = some ev → ev.task.IsPlain

lemma Sound.isPlain_of_known (h : s.Sound)
    (hteardown : ∀ n ev, s.find? (.destroy n) = some ev → ev.task.IsPlain) {ev : Event (Task K)}
    (hid : id.Matched s.known id') (hev : s.find? id = some ev) : ev.task.IsPlain := by
  cases hid with
  | queued hij =>
    rcases hij.2 with rfl | hknown
    · exact absurd (h.lt_next _ ev hev).1 (Nat.lt_irrefl 0)
    · exact hknown.2 ev hev
  | destroy n => exact hteardown n ev hev

/-- Without cancelled events a simulator agrees with itself. -/
lemma Sound.agree_self (h : s.Sound) (hlive : ∀ id ev, s.find? id = some ev → ev.cancelled = false)
    (hteardown : ∀ n ev, s.find? (.destroy n) = some ev → ev.task.IsPlain)
    (htask : ∀ id ev, s.find? id = some ev → ev.task.Matched C s.known ev.task)
    (hobserver : C.option.rel s.known s.observer s.observer)
    (hinbox : s.inbox.Matched C s.known s.inbox) : Agree C s.known s.issued s s where
  left := h
  right := h
  events :=
    { le := Matching.same_le_same fun _ => And.left
      live := by
        intro id id' hid
        obtain rfl := hid.eq_of_same
        cases hev : liveOf (s.find? id') with
        | none => exact .none
        | some ev => exact .some ⟨rfl, rfl, htask id' ev (liveOf_eq_some_iff.mp hev).1⟩
      left_total := fun hev =>
        ⟨_, EventId.matched_same (Or.inr (h.lt_next _ _ (liveOf_eq_some_iff.mp hev).1).2)⟩
      right_total := fun hev =>
        ⟨_, EventId.matched_same (Or.inr (h.lt_next _ _ (liveOf_eq_some_iff.mp hev).1).2)⟩
      left_plain := h.isPlain_of_known hteardown
      right_plain := fun hid hev => h.isPlain_of_known hteardown hid (hid.eq_of_same ▸ hev)
      marked := by
        intro id ev hev hc
        cases (hlive id ev hev).symm.trans hc }
  lt_next hij := by
    rcases hij.2 with rfl | hlt
    · exact h.next_pos
    · exact hlt
  sequences_eq := rfl
  kind_eq := rfl
  identity_eq := rfl
  now_eq := rfl
  context_eq := rfl
  phase_eq := rfl
  stop_eq := rfl
  sync_eq := rfl
  count_eq := rfl
  observer := hobserver
  inbox := hinbox

end Simulator

end EventKernel
