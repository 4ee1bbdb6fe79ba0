import EventKernel.Proofs.Machine.Issue
import EventKernel.Proofs.Machine.Stop

/-!
# Accounting for events

Every event that was put in the queue is still there or has left it in exactly one way, and its
callback is invoked at most once. What the loop invokes is what it counts and what it tells its
observer, in the same order; and unless a stop is pending, a run ends with nothing left.
-/

namespace EventKernel

open Simulator (Course Told Timely)

variable {K U : Type} {id : EventId} {keys : List EventKey}

/-! ### Lives in numbers -/

section

variable {own : List (Turn K)} {v : Option (Event (Task K))}

lemma Life.count (h : Life id own v) (hown : own ≠ []) :
    v.toList.length + own.countP (·.fate = .started) + own.countP (·.fate = .skipped) +
      own.countP (·.fate = .removed) + own.countP (·.fate = .dropped) = 1 := by
  cases h with
  | unborn => exact absurd rfl hown
  | pending | cancelled => simp
  | gone hev hfate => rcases hfate with rfl | rfl | rfl <;> simp
  | cancelledGone hev hfate => rcases hfate with rfl | rfl | rfl <;> simp

/-- All turns of a life are about the event that was issued. -/
lemma Life.issued_of_mem (h : Life id own v) {x : Turn K} (hx : x ∈ own) :
    ⟨id, .issued, x.event⟩ ∈ own := by
  cases h with
  | unborn => cases hx
  | pending hev =>
    rw [List.mem_singleton.mp hx]
    exact List.mem_cons_self
  | cancelled hev | gone hev hfate =>
    simp only [List.mem_cons, List.not_mem_nil, or_false] at hx
    rcases hx with rfl | rfl <;> exact List.mem_cons_self
  | cancelledGone hev hfate =>
    simp only [List.mem_cons, List.not_mem_nil, or_false] at hx
    rcases hx with rfl | rfl | rfl <;> exact List.mem_cons_self

/-- What is cancelled or removed does not start. -/
lemma Life.not_started (h : Life id own v) {x y : Turn K} (hx : x ∈ own) (hy : y ∈ own)
    (hfate : x.fate = .cancelled ∨ x.fate = .removed) : y.fate ≠ .started := by
  cases h with
  | unborn => cases hx
  | pending hev =>
    rw [List.mem_singleton.mp hx] at hfate
    simp at hfate
  | cancelled hev =>
    simp only [List.mem_cons, List.not_mem_nil, or_false] at hy
    rcases hy with rfl | rfl <;> simp
  | gone hev hover =>
    simp only [List.mem_cons, List.not_mem_nil, or_false] at hx hy
    rcases hx with rfl | rfl
    · simp at hfate
    · rcases hy with rfl | rfl
      · simp
      · intro hstarted
        rw [hstarted] at hfate
        simp at hfate
  | cancelledGone hev hover =>
    simp only [List.mem_cons, List.not_mem_nil, or_false] at hy
    rcases hover with rfl | rfl | rfl <;> rcases hy with rfl | rfl | rfl <;> simp

end

lemma Simulator.Sound.find?_of_upcoming? {s : Simulator K} (h : s.Sound) {ev : Event (Task K)}
    (hup : s.upcoming? = some (id, ev)) :
    s.find? id = some ev ∧ ∃ slot n, id = .queued slot n := by
  obtain ⟨-, q, hnext⟩ := upcoming?_eq_some_iff.mp hup
  refine ⟨(h.find?_take hnext s.now).1, ?_⟩
  have hget := (h.consistent.get?_removeNext hnext).1
  cases id with
  | queued slot n => exact ⟨slot, n, rfl⟩
  | destroy n => cases hget

namespace Machine

/-! ### What the loop takes off the queue -/

/-- The turn of a move that takes an event off the queue. -/
lemma turns_of_takenBy? (code : Code K U) (mv : Move K U) {a : Machine K U}
    (h : a.sim.Timely keys) (hb : a.broken = false) (hs : a.sim.Sound) {ev : Event (Task K)}
    (htaken : a.takenBy? mv = some (id, ev)) :
    a.turns mv = [⟨id, if ev.cancelled then .skipped else .started, ev.unmarked⟩] ∧
      ∃ slot n, id = .queued slot n := by
  cases moveCase code mv h hb with
  | course hnext hnone hbroken hcourse =>
    rw [htaken] at hnone
    cases hnone
  | @round rest hstep hstack hup hturns hround =>
    rw [htaken] at hup
    obtain ⟨hfind, hid⟩ := hs.find?_of_upcoming? hup.symm
    refine ⟨?_, hid⟩
    rw [hturns, ← hup, Option.toList_some, List.flatMap_singleton, Simulator.takeTurn, hfind]
    rfl

/-- The turns of a move that takes no event off the queue start and skip none. -/
lemma fate_of_not_taken (code : Code K U) (mv : Move K U) {a : Machine K U}
    (h : a.sim.Timely keys) (hb : a.broken = false) (hnone : a.takenBy? mv = none) {x : Turn K}
    (hx : x ∈ a.turns mv) (hfate : x.fate = .started ∨ x.fate = .skipped) :
    ∃ n, x.id = .destroy n := by
  cases moveCase code mv h hb with
  | course hnext hnone hbroken hcourse => exact hcourse.id_of_taken hx hfate
  | @round rest hstep hstack hup hturns hround =>
    rw [hturns, ← hup, hnone] at hx
    cases hx

lemma count_takenBy (code : Code K U) (mv : Move K U) {a : Machine K U} (h : a.sim.Timely keys)
    (hb : a.broken = false) (hs : a.sim.Sound) (cancelled : Bool) (slot n : Nat) :
    (((a.takenBy? mv).toList.filter (·.2.cancelled == cancelled)).map (·.1)).count
        (.queued slot n) =
      (turnsOf (.queued slot n) (a.turns mv)).countP
        (·.fate = if cancelled then .skipped else .started) := by
  cases htaken : a.takenBy? mv with
  | none =>
    rw [Option.toList_none, List.filter_nil, List.map_nil, List.count_nil, eq_comm,
      List.countP_eq_zero]
    intro x hx hfate
    obtain ⟨hx, hid⟩ := mem_turnsOf.mp hx
    have hfate : x.fate = .started ∨ x.fate = .skipped := by
      cases cancelled
      · exact Or.inl (by simpa using hfate)
      · exact Or.inr (by simpa using hfate)
    obtain ⟨k, hk⟩ := fate_of_not_taken code mv h hb htaken hx hfate
    rw [hid] at hk
    cases hk
  | some p =>
    obtain ⟨id, ev⟩ := p
    rw [(turns_of_takenBy? code mv h hb hs htaken).1, Option.toList_some, turnsOf,
      List.filter_singleton, List.filter_singleton]
    by_cases hid : id = .queued slot n
    · subst hid
      cases cancelled <;> cases ev.cancelled <;> simp
    · cases cancelled <;> cases ev.cancelled <;> simp [hid]

lemma count_takenWith (code : Code K U) (moves : List (Move K U)) {a : Machine K U}
    {turns : List (Turn K)} (h : a.sim.Timely keys) (hb : a.broken = false)
    (ht : a.sim.Told turns) (cancelled : Bool) (slot n : Nat) :
    ((takenWith cancelled code moves a).map (·.1)).count (.queued slot n) =
      (turnsOf (.queued slot n) (chronicle code moves a)).countP
        (·.fate = if cancelled then .skipped else .started) := by
  induction moves generalizing a keys turns with
  | nil => rfl
  | cons mv moves ih =>
    obtain ⟨hb', h', -⟩ := timely_move code mv h hb
    rw [takenWith_cons, List.map_append, List.count_append, chronicle, turnsOf_append,
      List.countP_append, count_takenBy code mv h hb ht.sound,
      ih h' hb' (told_move code mv h hb ht)]

/-- What is taken off the queue has a turn that says so. -/
lemma mem_chronicle_of_taken (code : Code K U) (moves : List (Move K U)) {a : Machine K U}
    {turns : List (Turn K)} (h : a.sim.Timely keys) (hb : a.broken = false)
    (ht : a.sim.Told turns) {p : EventId × Event (Task K)} (hp : p ∈ taken code moves a) :
    ⟨p.1, if p.2.cancelled then .skipped else .started, p.2.unmarked⟩ ∈ chronicle code moves a ∧
      ∃ slot n, p.1 = .queued slot n := by
  induction moves generalizing a keys turns with
  | nil => cases hp
  | cons mv moves ih =>
    obtain ⟨hb', h', -⟩ := timely_move code mv h hb
    rw [taken, List.mem_append] at hp
    rw [chronicle, List.mem_append]
    rcases hp with hp | hp
    · obtain ⟨id, ev⟩ := p
      obtain ⟨hturns, hid⟩ := turns_of_takenBy? code mv h hb ht.sound (Option.mem_toList.mp hp)
      rw [hturns]
      exact ⟨Or.inl List.mem_cons_self, hid⟩
    · obtain ⟨hmem, hid⟩ := ih h' hb' (told_move code mv h hb ht) hp
      exact ⟨Or.inr hmem, hid⟩

/-! ### The end of a run -/

/-- The loop looks for the next event only right after it has emptied the inbox. -/
structure Drained (a : Machine K U) : Prop where
  tail : ∀ f ∈ a.stack.tail, f ≠ .next
  head : a.stack.head? = some .next → a.sim.inbox.events = #[]

lemma Leaves.not_next {s : Simulator K} {f : Frame K U} {phase : Phase} {top : List (Frame K U)}
    (h : Leaves s f phase top) : (∀ g ∈ top, g ≠ .next) ∨ f = .loop ∧ top = [.next] := by
  cases h with
  | drained => exact Or.inr ⟨rfl, rfl⟩
  | _ => exact Or.inl (by simp)

lemma Drained.move (code : Code K U) {mv : Move K U} {a : Machine K U} (hd : a.Drained)
    (h : a.sim.Timely keys) (hmv : ∀ r, mv ≠ .remote r) : (move code a mv).Drained := by
  cases mv with
  | remote r => exact absurd rfl (hmv r)
  | enter f p =>
    rw [Machine.move]
    split
    · exact ⟨by simp, by simp⟩
    · exact hd
  | step =>
    obtain ⟨s, m, stack, broken⟩ := a
    cases stack with
    | nil => exact hd
    | cons f rest =>
      obtain ⟨top, hleaves, hstack⟩ := leaves_stepFrame code f h m rest
      have hrest : ∀ g ∈ rest, g ≠ .next := hd.tail
      show (stepFrame code f s m rest).Drained
      rcases hleaves.not_next with htop | ⟨rfl, rfl⟩
      · have hall : ∀ g ∈ (stepFrame code f s m rest).stack, g ≠ .next := by
          rw [hstack]
          intro g hg
          rcases List.mem_append.mp hg with hg | hg
          · exact htop g hg
          · exact hrest g hg
        refine ⟨fun g hg => hall g (List.mem_of_mem_tail hg), ?_⟩
        intro hhead
        exact absurd rfl (hall .next (List.mem_of_mem_head? hhead))
      · refine ⟨hrest, fun _ => ?_⟩
        show s.drainInbox.inbox.events = #[]
        rw [s.inbox_drainInbox.1]
        rfl

lemma drained_play (code : Code K U) (moves : List (Move K U)) {a : Machine K U} (hd : a.Drained)
    (h : a.sim.Timely keys) (hb : a.broken = false) (hmoves : ∀ r, .remote r ∉ moves) :
    (play code moves a).Drained := by
  induction moves generalizing a keys with
  | nil => exact hd
  | cons mv moves ih =>
    obtain ⟨hb', h', -⟩ := timely_move code mv h hb
    refine ih (hd.move code h ?_) h' hb' fun r hr => hmoves r (List.mem_cons_of_mem mv hr)
    rintro r rfl
    exact hmoves r List.mem_cons_self

/-- If the loop is left while no stop is pending, nothing is left to do. -/
lemma empty_of_return (code : Code K U) {a : Machine K U} (hd : a.Drained)
    (h : a.sim.Timely keys) {rest : List (Frame K U)} (hstack : a.stack = .next :: rest)
    (hstop : a.sim.stopPending = false) (hreturn : (step code a).stack = rest) :
    (step code a).sim.pendingEvents = 0 ∧ (step code a).sim.scheduler.isEmpty = true ∧
      (step code a).sim.inbox.isEmpty = true := by
  have hinbox := hd.head (by rw [hstack]; rfl)
  obtain ⟨hnil, hfinish⟩ := finish_of_return code h hstack hstop hreturn
  rw [hfinish]
  refine ⟨h.consistent.size_eq_zero_iff.mpr hnil, h.consistent.isEmpty_iff.mpr hnil, ?_⟩
  show a.sim.inbox.events.isEmpty = true
  rw [hinbox]
  rfl

/-! ### Conservation -/

/-- Every event that is put in the queue, by a call or out of the inbox, is issued; and it is stored,
or its callback was invoked once, or it was cancelled and passed over, or it was removed, or it was
dropped at teardown, and only one of these. No callback of a cancelled or removed event is invoked.
To invoke a callback is to put its task on top of the stack, which the next step starts. The count of
events is the number of callbacks invoked, the observer is told about each of them right before and
about nothing else, and a run that ends while no stop is pending leaves nothing behind. -/
theorem conservation (code : Code K U) (identity : Nat) (kind : QueueKind) (buckets : Nat)
    (sync : SyncMode) (m : Memory K U) (moves : List (Move K U)) :
    let a₀ := idle identity kind buckets sync m
    let a := play code moves a₀
    let turns := chronicle code moves a₀
    a.Issues code ∧
    (∀ slot n, Met turns (.queued slot n) .issued →
      (a.sim.scheduler.get? (.queued slot n)).toList.length +
        ((invoked code moves a₀).map (·.1)).count (.queued slot n) +
        ((passedOver code moves a₀).map (·.1)).count (.queued slot n) +
        (turnsOf (.queued slot n) turns).countP (·.fate = .removed) +
        (turnsOf (.queued slot n) turns).countP (·.fate = .dropped) = 1) ∧
    (∀ p ∈ taken code moves a₀, ⟨p.1, .issued, p.2.unmarked⟩ ∈ turns) ∧
    (∀ id, Met turns id .cancelled ∨ Met turns id .removed →
      id ∉ (invoked code moves a₀).map (·.1)) ∧
    a.sim.eventCount = (invoked code moves a₀).length ∧
    (∀ id ev, a.taken? = some (id, ev) → ev.cancelled = false →
      (∃ context rest, a.stack = .next :: rest ∧
        (step code a).stack = .task ev.task :: .restore context :: .loop :: rest ∧
        step code (step code a) = start code ev.task (step code a).sim (step code a).memory
          (.restore context :: .loop :: rest) ∧
        ∀ k, ev.task = .user k → (step code (step code a)).stack =
          .exec (code.routine k) :: .restore context :: .loop :: rest) ∧
      (step code a).sim.context = ev.context ∧ (step code a).sim.now = ev.key.time ∧
      (step code a).sim.eventCount = a.sim.eventCount + 1 ∧
      (step code a).memory.user = observed code a.sim (infoOf (id, ev)) a.memory.user) ∧
    (∀ mv, (∀ p ∈ a.takenBy? mv, p.2.cancelled = true) →
      (move code a mv).memory.user = a.withoutObserver mv) ∧
    (∀ more k (record : U → List EventInfo),
      (∀ n info u, record (code.observe k n info u).1 = record u ++ [info]) →
      Along code (fun b mv =>
        b.sim.observer = some k ∧ record (b.withoutObserver mv) = record b.memory.user) more a →
      record (play code more a).memory.user =
        record a.memory.user ++ (invoked code more a).map infoOf) ∧
    (∀ more, a.sim.stopPending = false → Along code (fun b mv => ¬b.AsksStop code mv) more a →
      (play code more a).sim.stopPending = false) ∧
    ((∀ r, .remote r ∉ moves) → ∀ rest, a.stack = .next :: rest → a.sim.stopPending = false →
      (step code a).stack = rest →
      (step code a).sim.pendingEvents = 0 ∧ (step code a).sim.scheduler.isEmpty = true ∧
        (step code a).sim.inbox.isEmpty = true) := by
  intro a₀ a turns
  have hstart : Simulator.Timely [] a₀.sim := Simulator.timely_create ..
  have htold : a₀.sim.Told [] := Simulator.told_create ..
  obtain ⟨hbroken, h, -⟩ := timely_play code moves hstart rfl
  have ht : a.sim.Told turns := told_play code moves hstart rfl htold
  refine ⟨issues code h hbroken ht, ?_, ?_, ?_, ?_, ?_, ?_, ?_, ?_, ?_⟩
  · intro slot n hissued
    have hown : turnsOf (.queued slot n) turns ≠ [] := by
      obtain ⟨x, hx, -⟩ := met_iff.mp hissued
      exact List.ne_nil_of_mem hx
    rw [count_takenWith code moves hstart rfl htold, count_takenWith code moves hstart rfl htold]
    exact (ht.life (.queued slot n)).count hown
  · intro p hp
    obtain ⟨hmem, -⟩ := mem_chronicle_of_taken code moves hstart rfl htold hp
    have hissued := (ht.life p.1).issued_of_mem (mem_turnsOf.mpr ⟨hmem, rfl⟩)
    exact (mem_turnsOf.mp hissued).1
  · rintro id hgone hmem
    obtain ⟨p, hp, rfl⟩ := List.mem_map.mp hmem
    obtain ⟨hp, hlive⟩ := List.mem_filter.mp hp
    obtain ⟨hstarted, -⟩ := mem_chronicle_of_taken code moves hstart rfl htold hp
    rw [beq_iff_eq.mp hlive, if_neg Bool.false_ne_true] at hstarted
    simp only [met_iff] at hgone
    rcases hgone with ⟨x, hx, hfate⟩ | ⟨x, hx, hfate⟩
    · exact (ht.life p.1).not_started hx (mem_turnsOf.mpr ⟨hstarted, rfl⟩) (Or.inl hfate) rfl
    · exact (ht.life p.1).not_started hx (mem_turnsOf.mpr ⟨hstarted, rfl⟩) (Or.inr hfate) rfl
  · rw [eventCount_play code moves hstart rfl]
    exact Nat.zero_add _
  · intro id ev htaken hlive
    obtain ⟨⟨context, rest, hstack, htask⟩, hstarted⟩ := step_of_taken? code h hbroken htaken hlive
    have hstart := step_of_stack code htask
    refine ⟨⟨context, rest, hstack, htask, hstart, fun k hk => ?_⟩, hstarted⟩
    rw [hstart, hk]
    rfl
  · exact fun mv hmv => user_of_not_live code mv h hbroken hmv
  · intro more k record hrecord halong
    exact record_play code hrecord more h hbroken halong
  · intro more hstop halong
    exact stopPending_play code more h hbroken hstop halong
  · intro hmoves rest hstack hstop hreturn
    have hdrained : a₀.Drained := ⟨by simp [a₀, idle], by simp [a₀, idle]⟩
    exact empty_of_return code (drained_play code moves hdrained hstart rfl hmoves) h hstack hstop
      hreturn

end Machine

end EventKernel
