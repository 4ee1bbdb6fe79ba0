import Mathlib.Data.List.TakeWhile
import EventKernel.Proofs.Machine.Account
import EventKernel.Proofs.Machine.Fate

/-!
# The order of teardown

Teardown events run in the order in which they were registered, each at most once, also if the
callbacks register, cancel or remove further ones, run the loop, or tear the simulator down
themselves. The list is its own witness: what is registered goes to its end with a new sequence
number, and what runs is taken from its front.

The inbox is closed only when the list is empty, and from then on nothing is registered. So
whatever was registered until then was cancelled or removed in the meantime, or it has run.
-/

namespace EventKernel

open Simulator (Course EventChange EventCourse Told Timely issueTurns)

variable {K U : Type} {s t : Simulator K} {turns more : List (Turn K)}

/-! ### What is torn down -/

/-- The sequence numbers of the teardown events that start in some turns, in order. -/
def tornDown (turns : List (Turn K)) : List Nat :=
  turns.filterMap fun x =>
    match x.id, x.fate with
    | .destroy n, .started => some n
    | _, _ => none

lemma tornDown_append (turns more : List (Turn K)) :
    tornDown (turns ++ more) = tornDown turns ++ tornDown more :=
  List.filterMap_append ..

lemma mem_tornDown {n : Nat} : n ∈ tornDown turns ↔ Met turns (.destroy n) .started := by
  rw [tornDown, List.mem_filterMap]
  constructor
  · rintro ⟨⟨id, fate, ev⟩, hx, hn⟩
    cases id with
    | queued slot m => cases hn
    | destroy m =>
      cases fate with
      | started => exact ⟨_, hx, congrArg EventId.destroy (Option.some.inj hn), rfl⟩
      | issued | cancelled | removed | skipped | dropped => cases hn
  · rintro ⟨⟨id, fate, ev⟩, hx, rfl, rfl⟩
    exact ⟨_, hx, rfl⟩

lemma tornDown_eq_nil (h : ∀ x ∈ turns, ∀ n, x.id = .destroy n → x.fate ≠ .started) :
    tornDown turns = [] := by
  rw [List.eq_nil_iff_forall_not_mem]
  intro n hn
  obtain ⟨x, hx, hid, hfate⟩ := mem_tornDown.mp hn
  exact h x hx n hid hfate

lemma Asked.tornDown_eq (h : Asked turns) : tornDown turns = [] := by
  refine tornDown_eq_nil fun x hx n _ hfate => ?_
  have hasked := h x hx
  rw [hfate] at hasked
  exact hasked

namespace TeardownList

variable {α : Type}

lemma get?_eq_of_mem {l : TeardownList α} (hl : l.sequences.Nodup) {ev : TeardownEvent α}
    (hev : ev ∈ l) : l.get? ev.sequence = some ev := by
  induction l with
  | nil => cases hev
  | cons x l ih =>
    obtain ⟨hx, hl⟩ := List.nodup_cons.mp hl
    rw [get?_cons]
    rcases List.mem_cons.mp hev with rfl | hev
    · exact if_pos rfl
    · rw [if_neg, ih hl hev]
      intro heq
      have hmem : x.sequence ∈ sequences l := by
        rw [heq]
        exact List.mem_map_of_mem hev
      exact hx hmem

lemma popLive_eq_none {l : TeardownList α} (h : l.popLive.1 = none) : l.popLive.2 = [] := by
  induction l with
  | nil => rfl
  | cons ev l ih =>
    rw [popLive] at h ⊢
    split at h
    · next hev =>
      rw [if_pos hev]
      exact ih h
    · cases h

end TeardownList

/-- The turn of a teardown event. -/
def TeardownEvent.turn (fate : Fate) (ev : TeardownEvent (Task K)) : Turn K :=
  ⟨.destroy ev.sequence, fate, ev.toEvent.unmarked⟩

namespace Simulator

lemma Sound.takeTurn_eq (h : s.Sound) {ev : TeardownEvent (Task K)} (hev : ev ∈ s.teardown) :
    s.takeTurn (.destroy ev.sequence) =
      [ev.turn (if ev.cancelled then .skipped else .started)] := by
  rw [takeTurn, find?, TeardownList.get?_eq_of_mem h.nodup hev]
  rfl

/-- The cancelled events in front are skipped, and then one starts. -/
lemma Sound.teardownTurns_eq (h : s.Sound) :
    s.teardownTurns = (s.teardown.takeWhile (·.cancelled)).map (·.turn .skipped) ++
      s.teardown.popLive.1.toList.map (·.turn .started) := by
  obtain ⟨rest, hl, -, hlive⟩ := s.teardown.popLive_eq
  have hmem : ∀ ev ∈ s.teardown.takeWhile (·.cancelled) ++ s.teardown.popLive.1.toList,
      ev ∈ s.teardown := by
    intro ev hev
    rw [hl]
    exact List.mem_append_left rest hev
  have hturns : ∀ {l : TeardownList (Task K)} {fate : Fate}, (∀ ev ∈ l, ev ∈ s.teardown) →
      (∀ ev ∈ l, (if ev.cancelled then Fate.skipped else .started) = fate) →
      (l.map fun ev => EventId.destroy ev.sequence).flatMap s.takeTurn = l.map (·.turn fate) := by
    intro l fate hl hfate
    rw [List.flatMap_map, ← List.flatMap_pure_eq_map]
    refine List.flatMap_congr fun ev hev => ?_
    rw [h.takeTurn_eq (hl ev hev), hfate ev hev]
    rfl
  rw [teardownTurns, reached, List.map_append, List.flatMap_append]
  rw [hturns (fun ev hev => hmem ev (List.mem_append_left _ hev)),
    hturns (fun ev hev => hmem ev (List.mem_append_right _ hev))]
  · intro ev hev
    rw [hlive ev (Option.mem_toList.mp hev)]
    rfl
  · intro ev hev
    rw [if_pos]
    exact List.mem_takeWhile_imp hev

/-- What starts when teardown goes on is the first event that is not cancelled. -/
lemma Sound.tornDown_teardownTurns (h : s.Sound) :
    tornDown s.teardownTurns = s.teardown.popLive.1.toList.map (·.sequence) := by
  have hskipped : tornDown ((s.teardown.takeWhile (·.cancelled)).map (·.turn .skipped)) = [] := by
    refine tornDown_eq_nil fun x hx _ _ => ?_
    obtain ⟨ev, -, rfl⟩ := List.mem_map.mp hx
    exact Fate.noConfusion
  rw [h.teardownTurns_eq, tornDown_append, hskipped, List.nil_append]
  cases s.teardown.popLive.1 <;> rfl

/-! ### The order of the list -/

/-- The events that started so far and those that wait stand in the order of their numbers. -/
structure Lined (turns : List (Turn K)) (s : Simulator K) : Prop where
  started : (tornDown turns).Pairwise (· < ·)
  waiting : s.teardown.sequences.Pairwise (· < ·)
  started_lt : ∀ n ∈ tornDown turns, ∀ k ∈ s.teardown.sequences, n < k

lemma lined_create (identity : Nat) (kind : QueueKind) (buckets : Nat) (sync : SyncMode) :
    Lined [] (create identity kind buckets sync : Simulator K) where
  started := .nil
  waiting := .nil
  started_lt _ hn := by cases hn

/-- Nothing starts, and nothing new waits. -/
lemma Lined.of_sublist (h : Lined turns s)
    (hsub : t.teardown.sequences.Sublist s.teardown.sequences) (hmore : tornDown more = []) :
    Lined (turns ++ more) t := by
  have hstarted : tornDown (turns ++ more) = tornDown turns := by
    rw [tornDown_append, hmore, List.append_nil]
  refine ⟨?_, h.waiting.sublist hsub, ?_⟩
  · rw [hstarted]
    exact h.started
  · rw [hstarted]
    exact fun n hn k hk => h.started_lt n hn k (hsub.subset hk)

lemma Lined.of_eq (h : Lined turns s) (hteardown : t.teardown = s.teardown)
    (hmore : tornDown more = []) : Lined (turns ++ more) t := by
  refine h.of_sublist ?_ hmore
  rw [hteardown]

/-- The numbers that are in use for teardown were given out. -/
lemma Sound.sequence_lt (h : s.Sound) {n : Nat} (hn : n ∈ s.teardown.sequences) :
    n < s.sequences.next := by
  cases hev : s.find? (.destroy n) with
  | none => exact absurd hn (find?_destroy_eq_none_iff.mp hev)
  | some ev => exact (h.lt_next _ ev hev).2

/-- What is registered goes to the end of the list. -/
lemma Lined.register (h : Lined turns s) (ht : s.Told turns) (k : K)
    (halive : s.phase ≠ .destroyed) :
    Lined (turns ++ issueTurns (s.scheduleDestroy (.user k))) (s.scheduleDestroy (.user k)).2 := by
  have hstarted :
      tornDown (turns ++ issueTurns (s.scheduleDestroy (.user k))) = tornDown turns := by
    rw [tornDown_append, (asked_issueTurns _).tornDown_eq, List.append_nil]
  have hwaiting : (s.scheduleDestroy (.user k)).2.teardown.sequences =
      s.teardown.sequences ++ [s.sequences.next] := by
    rw [scheduleDestroy, if_neg halive]
    exact TeardownList.sequences_push ..
  refine ⟨?_, ?_, ?_⟩
  · rw [hstarted]
    exact h.started
  · rw [hwaiting]
    refine List.pairwise_append.mpr ⟨h.waiting, List.pairwise_singleton _ _, ?_⟩
    intro n hn m hm
    rw [List.mem_singleton.mp hm]
    exact ht.sound.sequence_lt hn
  · rw [hstarted, hwaiting]
    intro n hn m hm
    rcases List.mem_append.mp hm with hm | hm
    · exact h.started_lt n hn m hm
    · obtain ⟨x, hx, hid, -⟩ := mem_tornDown.mp hn
      have hlt := (ht.sequence_lt x hx).2
      rw [hid] at hlt
      rw [List.mem_singleton.mp hm]
      exact hlt

/-- What starts is taken from the front of the list. -/
lemma Lined.popLive (h : Lined turns s) (hs : s.Sound) :
    Lined (turns ++ s.teardownTurns) { s with teardown := s.teardown.popLive.2 } := by
  obtain ⟨rest, hl, hrest, -⟩ := s.teardown.popLive_eq
  have hsplit : s.teardown.sequences = (s.teardown.takeWhile (·.cancelled)).map (·.sequence) ++
      s.teardown.popLive.1.toList.map (·.sequence) ++ rest.map (·.sequence) := by
    rw [TeardownList.sequences, ← List.map_append, ← List.map_append, ← hl]
  have hpopped : ∀ n ∈ s.teardown.popLive.1.toList.map (·.sequence), n ∈ s.teardown.sequences := by
    intro n hn
    rw [hsplit]
    exact List.mem_append_left _ (List.mem_append_right _ hn)
  have hleft : ∀ n ∈ rest.map (·.sequence), n ∈ s.teardown.sequences := by
    intro n hn
    rw [hsplit]
    exact List.mem_append_right _ hn
  have hwaiting := h.waiting
  rw [hsplit, List.append_assoc, List.pairwise_append, List.pairwise_append] at hwaiting
  obtain ⟨-, ⟨hone, hmany, hlt⟩, -⟩ := hwaiting
  refine ⟨?_, ?_, ?_⟩
  · rw [tornDown_append, hs.tornDown_teardownTurns]
    exact List.pairwise_append.mpr
      ⟨h.started, hone, fun n hn m hm => h.started_lt n hn m (hpopped m hm)⟩
  · rw [hrest]
    exact hmany
  · rw [tornDown_append, hs.tornDown_teardownTurns, hrest]
    intro n hn m hm
    rcases List.mem_append.mp hn with hn | hn
    · exact h.started_lt n hn m (hleft m hm)
    · exact hlt n hn m hm

lemma tornDown_dropTurns (s : Simulator K) : tornDown s.dropTurns = [] := by
  refine tornDown_eq_nil fun x hx _ _ => ?_
  obtain ⟨id, -, hx⟩ := List.mem_flatMap.mp hx
  rw [(of_mem_turn hx).2]
  exact Fate.noConfusion

lemma Lined.eventChange (h : Lined turns s) (ht : s.Told turns) (hchange : EventChange s more t) :
    Lined (turns ++ more) t := by
  cases hchange with
  | insert context task hdelay => exact h.of_eq rfl (asked_turn .issued trivial _ _).tornDown_eq
  | register k halive => exact h.register ht k halive
  | cancel id =>
    refine h.of_sublist ?_ (asked_cancelTurns id s).tornDown_eq
    simp only [Simulator.cancel]
    split
    · exact .refl _
    · split
      · rw [TeardownList.sequences_cancel]
      · exact .refl _
  | remove id =>
    refine h.of_sublist ?_ (asked_removeTurns id s).tornDown_eq
    simp only [Simulator.remove]
    split
    · exact .refl _
    · split
      · exact (TeardownList.remove_sublist _ _).map _
      · exact .refl _
  | setKind kind => exact h.of_eq rfl rfl
  | popLive => exact h.popLive ht.sound
  | clear => exact h.of_sublist (List.nil_sublist _) s.tornDown_dropTurns

lemma Lined.change (h : Lined turns s) (ht : s.Told turns) (hchange : Change s more t) :
    Lined (turns ++ more) t := by
  cases hchange with
  | events hchange => exact h.eventChange ht hchange
  | inbox | other => exact h.of_eq rfl rfl

lemma Lined.course (h : Lined turns s) (ht : s.Told turns) (hcourse : Course s more t) :
    Lined (turns ++ more) t := by
  induction hcourse with
  | refl =>
    rw [List.append_nil]
    exact h
  | tail hcourse hchange ih =>
    rw [← List.append_assoc]
    exact ih.change (ht.course hcourse) hchange

/-! ### No registration behind the end -/

lemma EventChange.teardown_eq_nil (h : EventChange s turns t) (hphase : s.phase = .destroyed)
    (hnil : s.teardown = []) : t.teardown = [] := by
  cases h with
  | register k halive => exact absurd hphase halive
  | cancel id =>
    simp only [Simulator.cancel]
    split
    · exact hnil
    · split
      · rw [hnil]
        rfl
      · exact hnil
  | remove id =>
    simp only [Simulator.remove]
    split
    · exact hnil
    · split
      · rw [hnil]
        rfl
      · exact hnil
  | insert | setKind => exact hnil
  | popLive =>
    rw [hnil]
    rfl
  | clear => rfl

lemma EventCourse.teardown_eq_nil (h : EventCourse s turns t) (hphase : s.phase = .destroyed)
    (hnil : s.teardown = []) : t.teardown = [] := by
  induction h with
  | refl => exact hnil
  | tail hcourse hchange ih =>
    exact hchange.teardown_eq_nil ((EventCourse.phase_eq hcourse).trans hphase) ih

end Simulator

lemma SimRequest.teardown_eq_nil (r : SimRequest K) (hphase : s.phase = .destroyed)
    (hnil : s.teardown = []) : (r.apply s).2.teardown = [] := by
  rcases r.effect_apply s with h | ⟨-, stop, sync, observer, -, h⟩
  · exact h.teardown_eq_nil hphase hnil
  · rw [h]
    exact hnil

lemma Request.teardown_eq_nil (r : Request K U) (m : Memory K U) (hphase : s.phase = .destroyed)
    (hnil : s.teardown = []) : (r.apply s m).2.1.teardown = [] := by
  cases r with
  | sim r => exact r.teardown_eq_nil hphase hnil
  | inbox target r =>
    rw [apply, (m.askInbox_unchanged target r s).1]
    exact hnil
  | _ => exact (eventCourse_apply _ s m (by simp) (by simp)).teardown_eq_nil hphase hnil

namespace Machine

/-! ### The end of teardown -/

/-- The inbox is closed, and what is left is dropped, on top of the stack only, and no teardown
event waits then. -/
structure Closing (a : Machine K U) : Prop where
  tail : ∀ f ∈ a.stack.tail, f ≠ .close ∧ f ≠ .clear
  close : a.stack.head? = some .close → a.sim.teardown = []
  clear : a.stack.head? = some .clear → a.sim.phase = .destroyed
  destroyed : a.sim.phase = .destroyed → a.sim.teardown = []

lemma closing_idle (identity : Nat) (kind : QueueKind) (buckets : Nat) (sync : SyncMode)
    (m : Memory K U) : (idle identity kind buckets sync m).Closing where
  tail f hf := by cases hf
  close hhead := by cases hhead
  clear hhead := by cases hhead
  destroyed hphase := by cases hphase

lemma Closing.not_dropped {a : Machine K U} (h : a.Closing) {mv : Move K U} {x : Turn K}
    (hx : x ∈ a.turns mv) {n : Nat} (hid : x.id = .destroy n) : x.fate ≠ .dropped := by
  cases mv with
  | remote | enter => cases hx
  | step =>
    obtain ⟨s, m, stack, broken⟩ := a
    cases stack with
    | nil => cases hx
    | cons f rest =>
      rw [turns_step] at hx
      have htaken : ∀ {id}, x ∈ s.takeTurn id → x.fate ≠ .dropped := by
        intro id hx
        obtain ⟨ev, -, rfl⟩ := List.mem_map.mp hx
        cases ev.cancelled <;> exact Fate.noConfusion
      by_cases hnext : f = .next
      · subst hnext
        obtain ⟨p, -, hx⟩ := List.mem_flatMap.mp hx
        exact htaken hx
      by_cases hteardown : f = .teardown
      · subst hteardown
        obtain ⟨id, -, hx⟩ := List.mem_flatMap.mp hx
        exact htaken hx
      by_cases hclear : f = .clear
      · subst hclear
        obtain ⟨id, hmem, hx⟩ := List.mem_flatMap.mp hx
        rw [← (Simulator.of_mem_turn hx).1, hid, Simulator.mem_handles_iff] at hmem
        obtain ⟨ev, hev⟩ := hmem
        have hnil : s.teardown = [] := h.destroyed (h.clear rfl)
        rw [Simulator.find?, hnil] at hev
        cases hev
      · intro hfate
        have hasked := f.asked_turns s m hnext hteardown hclear x hx
        rw [hfate] at hasked
        exact hasked

/-- A simulator that was torn down stays so. -/
lemma phase_exec_of_destroyed (p : Program K U PUnit) (m : Memory K U) (rest : List (Frame K U))
    (hphase : s.phase = .destroyed) : (exec p s m rest).sim.phase = .destroyed := by
  cases p with
  | done | perform => exact hphase
  | ask r next => exact (r.phase_apply s m).trans hphase
  | run | destroy =>
    rw [exec, hphase]
    exact hphase

lemma teardown_exec_of_destroyed (p : Program K U PUnit) (m : Memory K U)
    (rest : List (Frame K U)) (hphase : s.phase = .destroyed) (hnil : s.teardown = []) :
    (exec p s m rest).sim.teardown = [] := by
  cases p with
  | done | perform => exact hnil
  | ask r next => exact r.teardown_eq_nil m hphase hnil
  | run | destroy =>
    rw [exec, hphase]
    exact hnil

/-- What can be on the stack outside the loop leaves a simulator that was torn down as it is, and
registers nothing. -/
lemma stepFrame_of_destroyed (code : Code K U) {f : Frame K U} (m : Memory K U)
    (rest : List (Frame K U)) (hf : f.IsOuter) (hphase : s.phase = .destroyed)
    (hnil : s.teardown = []) :
    (stepFrame code f s m rest).sim.phase = .destroyed ∧
      (stepFrame code f s m rest).sim.teardown = [] := by
  cases f with
  | exec p =>
    exact ⟨phase_exec_of_destroyed p m rest hphase, teardown_exec_of_destroyed p m rest hphase hnil⟩
  | task t =>
    cases t with
    | user k => exact ⟨hphase, hnil⟩
    | stop | watchdog | trickleInterval | trickleFire => exact hf.elim
  | teardown =>
    rw [stepFrame, nextTeardown, hnil]
    exact ⟨hphase, rfl⟩
  | close => exact ⟨rfl, hnil⟩
  | clear => exact ⟨hphase, rfl⟩
  | loop | next | restore | rearmWatchdog | rearmTrickle => exact hf.elim

/-- While a simulator is torn down, its loop does not run. -/
lemma Nested.of_teardown {phase : Phase} {rest : List (Frame K U)}
    (h : Nested phase (.teardown :: rest)) : phase ≠ .running := by
  generalize hstack : Frame.teardown :: rest = stack at h
  cases h with
  | outside hnot => exact hnot
  | @inside g above below habove hg hbelow =>
    cases above with
    | nil =>
      obtain ⟨rfl, -⟩ := List.cons.inj hstack
      simp at hg
    | cons f above =>
      obtain ⟨rfl, -⟩ := List.cons.inj hstack
      exact (habove _ List.mem_cons_self).elim
  | dispatched => cases hstack

/-- The step that closes the inbox is the only one that ends the life of a simulator. -/
lemma Leaves.destroyed {f : Frame K U} {phase : Phase} {top : List (Frame K U)}
    (h : Leaves s f phase top) (hphase : phase = .destroyed) :
    s.phase = .destroyed ∨ f = .close := by
  cases h with
  | closed => exact Or.inr rfl
  | run | finishRun => cases hphase
  | _ => exact Or.inl hphase

lemma Leaves.closing {f : Frame K U} {phase : Phase} {top : List (Frame K U)}
    (h : Leaves s f phase top) :
    (∀ g ∈ top, g ≠ .close ∧ g ≠ .clear) ∨ f = .teardown ∧ top = [.close] ∨
      f = .close ∧ phase = .destroyed ∧ top = [.clear] := by
  cases h with
  | close => exact Or.inr (Or.inl ⟨rfl, rfl⟩)
  | closed => exact Or.inr (Or.inr ⟨rfl, rfl, rfl⟩)
  | _ => exact Or.inl (by simp)

lemma Leaves.of_teardown {phase : Phase} {top : List (Frame K U)}
    (h : Leaves s .teardown phase top) :
    (∃ t, top = [.task t, .teardown]) ∨ top = [.close] := by
  cases h with
  | teardown hev => exact Or.inl ⟨_, rfl⟩
  | close => exact Or.inr rfl

/-- The inbox comes to be closed when no teardown event is left. -/
lemma nextTeardown_of_close (s : Simulator K) (m : Memory K U) {rest : List (Frame K U)}
    (hstack : (nextTeardown s m rest).stack = .close :: rest) :
    (nextTeardown s m rest).sim.teardown = [] := by
  rw [nextTeardown] at hstack ⊢
  dsimp only at hstack ⊢
  split at hstack
  · cases hstack
  · next hnone => exact TeardownList.popLive_eq_none hnone

lemma Closing.step (code : Code K U) {f : Frame K U} {m : Memory K U} {rest : List (Frame K U)}
    {broken : Bool} {keys : List EventKey} (hc : Closing ⟨s, m, f :: rest, broken⟩)
    (ho : Orderly ⟨s, m, f :: rest, broken⟩) (h : s.Timely keys) :
    (stepFrame code f s m rest).Closing := by
  obtain ⟨top, hleaves, hstack⟩ := leaves_stepFrame code f h m rest
  have hrest : ∀ g ∈ rest, g ≠ .close ∧ g ≠ .clear := hc.tail
  have hdestroyed : (stepFrame code f s m rest).sim.phase = .destroyed →
      (stepFrame code f s m rest).sim.teardown = [] := by
    intro hphase
    rcases hleaves.destroyed hphase with hbefore | rfl
    · have houter := ho.nested.isOuter (by rw [hbefore]; exact Phase.noConfusion)
      exact (stepFrame_of_destroyed code m rest (houter f List.mem_cons_self) hbefore
        (hc.destroyed hbefore)).2
    · exact hc.close rfl
  rcases hleaves.closing with htop | ⟨rfl, rfl⟩ | ⟨rfl, hphase, rfl⟩
  · have hall : ∀ g ∈ (stepFrame code f s m rest).stack, g ≠ .close ∧ g ≠ .clear := by
      rw [hstack]
      intro g hg
      rcases List.mem_append.mp hg with hg | hg
      · exact htop g hg
      · exact hrest g hg
    refine ⟨fun g hg => hall g (List.mem_of_mem_tail hg), ?_, ?_, hdestroyed⟩
    · intro hhead
      exact absurd rfl (hall _ (List.mem_of_mem_head? hhead)).1
    · intro hhead
      exact absurd rfl (hall _ (List.mem_of_mem_head? hhead)).2
  · refine ⟨?_, fun _ => nextTeardown_of_close s m hstack, ?_, hdestroyed⟩
    · rw [hstack]
      exact hrest
    · rw [hstack]
      intro hhead
      cases hhead
  · refine ⟨?_, ?_, fun _ => hphase, hdestroyed⟩
    · rw [hstack]
      exact hrest
    · rw [hstack]
      intro hhead
      cases hhead

lemma Closing.move (code : Code K U) (mv : Move K U) {a : Machine K U} {keys : List EventKey}
    (hc : a.Closing) (ho : a.Orderly) (h : a.sim.Timely keys) :
    (Machine.move code a mv).Closing := by
  obtain ⟨s, m, stack, broken⟩ := a
  cases mv with
  | remote r => exact ⟨hc.tail, hc.close, hc.clear, hc.destroyed⟩
  | enter f p =>
    rw [Machine.move]
    split
    · exact ⟨by simp, by simp, by simp, hc.destroyed⟩
    · exact hc
  | step =>
    cases stack with
    | nil => exact hc
    | cons f rest => exact hc.step code ho h

/-! ### Runs -/

/-- Only the frame of teardown starts teardown events. -/
lemma tornDown_turns (hs : s.Sound) {f : Frame K U} (m : Memory K U) (hf : f ≠ .teardown) :
    tornDown (f.turns s m) = [] := by
  by_cases hnext : f = .next
  · subst hnext
    refine tornDown_eq_nil fun x hx n hid => ?_
    obtain ⟨⟨id, ev⟩, hup, hx⟩ := List.mem_flatMap.mp hx
    obtain ⟨-, slot, k, rfl⟩ := hs.find?_of_upcoming? (Option.mem_toList.mp hup)
    rw [(Simulator.of_mem_takeTurn hx).1] at hid
    cases hid
  by_cases hclear : f = .clear
  · subst hclear
    exact s.tornDown_dropTurns
  · exact (f.asked_turns s m hnext hf hclear).tornDown_eq

lemma lined_move (code : Code K U) (mv : Move K U) {a : Machine K U} {keys : List EventKey}
    (h : a.sim.Timely keys) (hb : a.broken = false) (ht : a.sim.Told turns)
    (hl : a.sim.Lined turns) : (move code a mv).sim.Lined (turns ++ a.turns mv) := by
  cases moveCase code mv h hb with
  | course hnext hnone hbroken hcourse => exact hl.course ht hcourse
  | @round rest hstep hstack htaken hturns hround =>
    have hnone : tornDown (a.turns mv) = [] := by
      rw [hturns]
      exact tornDown_turns ht.sound (f := .next) a.memory (by simp)
    generalize move code a mv = b at hround ⊢
    cases hround with
    | finish | pass => exact hl.of_eq rfl hnone
    | @start id ev q hsome hnext hlive =>
      refine hl.of_eq ?_ hnone
      rw [(launch_unchanged code id ev _ a.memory rest).1]

/-- What holds of teardown throughout the life of a simulator with the given turns. -/
structure InTurn (turns : List (Turn K)) (a : Machine K U) : Prop where
  told : a.sim.Told turns
  lined : a.sim.Lined turns
  orderly : a.Orderly
  closing : a.Closing
  not_dropped : ∀ n, ¬Met turns (.destroy n) .dropped

lemma inTurn_idle (identity : Nat) (kind : QueueKind) (buckets : Nat) (sync : SyncMode)
    (m : Memory K U) : (idle identity kind buckets sync m).InTurn [] where
  told := Simulator.told_create ..
  lined := Simulator.lined_create ..
  orderly := orderly_idle ..
  closing := closing_idle ..
  not_dropped := by
    rintro n ⟨x, hx, -⟩
    cases hx

lemma InTurn.move (code : Code K U) (mv : Move K U) {a : Machine K U} {keys : List EventKey}
    (hi : a.InTurn turns) (h : a.sim.Timely keys) (hb : a.broken = false) :
    (Machine.move code a mv).InTurn (turns ++ a.turns mv) where
  told := told_move code mv h hb hi.told
  lined := lined_move code mv h hb hi.told hi.lined
  orderly := hi.orderly.move code mv h hb
  closing := hi.closing.move code mv hi.orderly h
  not_dropped := by
    intro n hmet
    rcases met_append.mp hmet with hmet | ⟨x, hx, hid, hfate⟩
    · exact hi.not_dropped n hmet
    · exact hi.closing.not_dropped hx hid hfate

lemma InTurn.play (code : Code K U) (moves : List (Move K U)) {a : Machine K U}
    {keys : List EventKey} (hi : a.InTurn turns) (h : a.sim.Timely keys) (hb : a.broken = false) :
    (Machine.play code moves a).InTurn (turns ++ chronicle code moves a) := by
  induction moves generalizing a keys turns with
  | nil =>
    rw [chronicle, List.append_nil]
    exact hi
  | cons mv moves ih =>
    obtain ⟨hb', h', -⟩ := timely_move code mv h hb
    rw [chronicle, ← List.append_assoc]
    exact ih (hi.move code mv h hb) h' hb'

/-! ### Calls -/

/-- A call to tear the simulator down is under way. When it is over, `base` is left of the stack. -/
def UnderWay (base : List (Frame K U)) (a : Machine K U) : Prop :=
  ∃ above f, a.stack = above ++ f :: base ∧ (f = .teardown ∨ f = .close ∨ f = .clear)

/-- A call to tear the simulator down ends only by tearing it down. -/
lemma UnderWay.move (code : Code K U) (mv : Move K U) {a : Machine K U} {keys : List EventKey}
    {base : List (Frame K U)} (hu : a.UnderWay base) (hc : a.Closing) (h : a.sim.Timely keys) :
    (Machine.move code a mv).UnderWay base ∨
      (Machine.move code a mv).sim.phase = .destroyed := by
  obtain ⟨above, f, hstack, hf⟩ := hu
  obtain ⟨s, m, stack, broken⟩ := a
  obtain rfl : stack = above ++ f :: base := hstack
  cases mv with
  | remote r => exact Or.inl ⟨above, f, rfl, hf⟩
  | enter g p =>
    rw [Machine.move, isDone, if_neg (by simp)]
    exact Or.inl ⟨above, f, rfl, hf⟩
  | step =>
    cases above with
    | cons g above =>
      obtain ⟨top, -, hstack⟩ := leaves_stepFrame code g h m (above ++ f :: base)
      refine Or.inl ⟨top ++ above, f, ?_, hf⟩
      rw [List.append_assoc]
      exact hstack
    | nil =>
      obtain ⟨top, hleaves, hstack⟩ := leaves_stepFrame code f h m base
      rcases hf with rfl | rfl | rfl
      · rcases hleaves.of_teardown with ⟨t, rfl⟩ | rfl
        · exact Or.inl ⟨[.task t], .teardown, hstack, Or.inl rfl⟩
        · exact Or.inl ⟨[], .close, hstack, Or.inr (Or.inl rfl)⟩
      · exact Or.inr rfl
      · exact Or.inr (hc.clear rfl)

/-- A simulator that was torn down stays so. -/
lemma destroyed_move (code : Code K U) (mv : Move K U) {a : Machine K U} (ho : a.Orderly)
    (hc : a.Closing) (hphase : a.sim.phase = .destroyed) :
    (move code a mv).sim.phase = .destroyed := by
  obtain ⟨s, m, stack, broken⟩ := a
  cases mv with
  | remote r => exact hphase
  | enter f p =>
    rw [move]
    split <;> exact hphase
  | step =>
    cases stack with
    | nil => exact hphase
    | cons f rest =>
      have houter := ho.nested.isOuter (by rw [hphase]; exact Phase.noConfusion)
      exact (stepFrame_of_destroyed code m rest (houter f List.mem_cons_self) hphase
        (hc.destroyed hphase)).1

lemma underWay_play (code : Code K U) (moves : List (Move K U)) {a : Machine K U}
    {keys : List EventKey} {base : List (Frame K U)}
    (hu : a.UnderWay base ∨ a.sim.phase = .destroyed) (hi : a.InTurn turns)
    (h : a.sim.Timely keys) (hb : a.broken = false) :
    (play code moves a).UnderWay base ∨ (play code moves a).sim.phase = .destroyed := by
  induction moves generalizing a keys turns with
  | nil => exact hu
  | cons mv moves ih =>
    obtain ⟨hb', h', -⟩ := timely_move code mv h hb
    refine ih ?_ (hi.move code mv h hb) h' hb'
    rcases hu with hu | hphase
    · exact hu.move code mv hi.closing h
    · exact Or.inr (destroyed_move code mv hi.orderly hi.closing hphase)

lemma not_underWay_self {a : Machine K U} {base : List (Frame K U)} (hstack : a.stack = base) :
    ¬a.UnderWay base := by
  rintro ⟨above, f, hlonger, -⟩
  have hlength := congrArg List.length (hstack.symm.trans hlonger)
  simp only [List.length_append, List.length_cons] at hlength
  omega

/-- A teardown event starts from the frame of teardown, while no loop runs. -/
lemma InTurn.of_tornDown (code : Code K U) {a : Machine K U} (hi : a.InTurn turns) {mv : Move K U}
    {n : Nat} (hn : n ∈ tornDown (a.turns mv)) :
    mv = .step ∧ ∃ k rest, a.stack = .teardown :: rest ∧
      a.sim.teardown.popLive.1 = some ⟨n, .user k, false⟩ ∧
      (step code a).stack = .task (.user k) :: .teardown :: rest ∧
      (step code (step code a)).stack = .exec (code.routine k) :: .teardown :: rest ∧
      a.sim.phase ≠ .running ∧ ∀ f ∈ a.stack, f ≠ .loop ∧ f ≠ .next := by
  obtain ⟨s, m, stack, broken⟩ := a
  cases mv with
  | remote | enter => cases hn
  | step =>
    cases stack with
    | nil => cases hn
    | cons f rest =>
      rw [turns_step] at hn
      by_cases hf : f = .teardown
      · subst hf
        obtain ⟨rest', hl, -, hlive⟩ := s.teardown.popLive_eq
        have hphase : s.phase ≠ .running := hi.orderly.nested.of_teardown
        rw [Frame.turns, hi.told.sound.tornDown_teardownTurns, List.mem_map] at hn
        obtain ⟨⟨n, task, cancelled⟩, hev, rfl⟩ := hn
        rw [Option.mem_toList] at hev
        obtain rfl : cancelled = false := hlive _ hev
        have hmem : ⟨n, task, false⟩ ∈ s.teardown := by
          rw [hl, hev]
          simp
        obtain ⟨k, rfl⟩ : ∃ k, task = .user k := hi.orderly.userCode.teardown _ hmem
        have htask : (step code ⟨s, m, .teardown :: rest, broken⟩).stack =
            .task (.user k) :: .teardown :: rest := by
          rw [step, stepFrame, nextTeardown]
          dsimp only
          rw [hev]
        refine ⟨rfl, k, rest, rfl, hev, htask, ?_, hphase, ?_⟩
        · rw [step_of_stack code htask]
          rfl
        · intro g hg
          have houter := hi.orderly.nested.isOuter hphase g hg
          constructor <;> (rintro rfl; exact houter)
      · rw [tornDown_turns hi.told.sound m hf] at hn
        cases hn

/-- Once a simulator is torn down, nothing waits for teardown, and what was not withdrawn has
run. -/
lemma InTurn.of_destroyed {a : Machine K U} (hi : a.InTurn turns)
    (hphase : a.sim.phase = .destroyed) :
    a.sim.teardown = [] ∧ ∀ n, Met turns (.destroy n) .issued → ¬Met turns (.destroy n) .cancelled →
      ¬Met turns (.destroy n) .removed → (tornDown turns).count n = 1 := by
  have hnil := hi.closing.destroyed hphase
  refine ⟨hnil, fun n hissued hcancelled hremoved => ?_⟩
  have hnone : a.sim.find? (.destroy n) = none := by
    rw [Simulator.find?_destroy_eq_none_iff, hnil]
    exact List.not_mem_nil
  have hover := (hi.told.life (.destroy n)).pending_iff hissued
  rw [hnone] at hover
  have hnodup : (tornDown turns).Nodup := hi.lined.started.imp Nat.ne_of_lt
  rcases hover.mp rfl with hmet | hmet | hmet | hmet
  · exact List.count_eq_one_of_mem hnodup (mem_tornDown.mpr hmet)
  · exact absurd hmet hcancelled
  · exact absurd hmet hremoved
  · exact absurd hmet (hi.not_dropped n)

/-- What is cancelled or removed does not run at teardown. -/
lemma InTurn.withdrawn {a : Machine K U} (hi : a.InTurn turns) {n : Nat}
    (hgone : Met turns (.destroy n) .cancelled ∨ Met turns (.destroy n) .removed) :
    n ∉ tornDown turns := by
  intro hn
  obtain ⟨y, hy, hstarted⟩ := met_iff.mp (mem_tornDown.mp hn)
  simp only [met_iff] at hgone
  rcases hgone with ⟨x, hx, hfate⟩ | ⟨x, hx, hfate⟩
  · exact (hi.told.life (.destroy n)).not_started hx hy (Or.inl hfate) hstarted
  · exact (hi.told.life (.destroy n)).not_started hx hy (Or.inr hfate) hstarted

/-- A call to register a teardown event is refused, or its event goes to the end of the list and is
issued. -/
lemma Issues.of_scheduleDestroy {code : Code K U} {a : Machine K U} (h : a.Issues code) {k : K}
    {next : Except SimError EventId → Program K U PUnit} {rest : List (Frame K U)}
    (hstack : a.stack = .exec (.ask (.sim (.scheduleDestroy k)) next) :: rest) :
    (a.sim.phase = .destroyed ∧
        (step code a).stack = .exec (next (.error .destroyed)) :: rest) ∨
      ∃ n, (step code a).stack = .exec (next (.ok (.destroy n))) :: rest ∧
        (step code a).sim.teardown = a.sim.teardown ++ [⟨n, .user k, false⟩] ∧
        Met (a.turns .step) (.destroy n) .issued := by
  obtain ⟨hnext, hissued⟩ := h.answered (.scheduleDestroy k) next rest hstack
  by_cases hphase : a.sim.phase = .destroyed
  · have hanswer : (SimRequest.scheduleDestroy k).apply a.sim = (.error .destroyed, a.sim) :=
      if_pos hphase
    rw [hanswer] at hnext
    exact Or.inl ⟨hphase, hnext⟩
  · obtain ⟨n, hanswer⟩ : ∃ n, (SimRequest.scheduleDestroy k).apply a.sim = (.ok (.destroy n),
        { a.sim with
          teardown := a.sim.teardown.push n (.user k), sequences := a.sim.sequences.draw.2 }) :=
      ⟨_, if_neg hphase⟩
    refine Or.inr ⟨n, ?_, ?_, (hissued (.destroy n) (by rw [hanswer]; rfl)).1⟩
    · rw [hnext, hanswer]
    · rw [step_of_stack code hstack]
      exact congrArg (·.2.teardown) hanswer

/-- A call to tear the simulator down is refused, or it is under way. -/
lemma step_destroy (code : Code K U) {a : Machine K U}
    {next : Except SimError PUnit → Program K U PUnit} {rest : List (Frame K U)}
    (hstack : a.stack = .exec (.destroy next) :: rest) :
    (∃ e, (step code a).stack = .exec (next (.error e)) :: rest) ∨
      (step code a).stack = .teardown :: .exec (next (.ok ())) :: rest := by
  obtain ⟨s, m, stack, broken⟩ := a
  obtain rfl : stack = .exec (.destroy next) :: rest := hstack
  rw [step, stepFrame, exec]
  cases s.phase with
  | running => exact Or.inl ⟨.notStopped, rfl⟩
  | destroyed => exact Or.inl ⟨.destroyed, rfl⟩
  | notRunning | stopped => exact Or.inr rfl

/-- What goes to the end of the list is issued: a call to register a teardown event is refused, or it
is answered with the handle of an event that is issued in the same step. Teardown events run in the
order in which they were registered, each at most once, and only while no loop runs; what is
cancelled or removed does not run. When a call to tear the simulator down comes back without an
error, no teardown event waits, and every one that was registered by then and neither cancelled nor
removed has run exactly once. -/
theorem teardown_in_order (code : Code K U) (identity : Nat) (kind : QueueKind) (buckets : Nat)
    (sync : SyncMode) (m : Memory K U) (moves : List (Move K U)) :
    let a₀ := idle identity kind buckets sync m
    let a := play code moves a₀
    let turns := chronicle code moves a₀
    a.Issues code ∧
    (∀ k next rest, a.stack = .exec (.ask (.sim (.scheduleDestroy k)) next) :: rest →
      (a.sim.phase = .destroyed ∧
        (step code a).stack = .exec (next (.error .destroyed)) :: rest) ∨
      ∃ n, (step code a).stack = .exec (next (.ok (.destroy n))) :: rest ∧
        (step code a).sim.teardown = a.sim.teardown ++ [⟨n, .user k, false⟩] ∧
        Met (a.turns .step) (.destroy n) .issued) ∧
    (tornDown turns).Pairwise (· < ·) ∧
    (∀ n, Met turns (.destroy n) .cancelled ∨ Met turns (.destroy n) .removed →
      n ∉ tornDown turns) ∧
    (∀ mv, ∀ n ∈ tornDown (a.turns mv), mv = .step ∧ ∃ k rest, a.stack = .teardown :: rest ∧
      a.sim.teardown.popLive.1 = some ⟨n, .user k, false⟩ ∧
      (step code a).stack = .task (.user k) :: .teardown :: rest ∧
      (step code (step code a)).stack = .exec (code.routine k) :: .teardown :: rest ∧
      a.sim.phase ≠ .running ∧ ∀ f ∈ a.stack, f ≠ .loop ∧ f ≠ .next) ∧
    (∀ rest, a.stack = .teardown :: rest →
      tornDown (a.turns .step) = a.sim.teardown.popLive.1.toList.map (·.sequence)) ∧
    ∀ next rest, a.stack = .exec (.destroy next) :: rest →
      (∃ e, (step code a).stack = .exec (next (.error e)) :: rest) ∨
      ((step code a).stack = .teardown :: .exec (next (.ok ())) :: rest ∧
        ∀ more, (play code more (step code a)).stack = .exec (next (.ok ())) :: rest →
          (play code more (step code a)).sim.phase = .destroyed ∧
          (play code more (step code a)).sim.teardown = [] ∧
          ∀ n, let turns := turns ++ chronicle code (.step :: more) a
            Met turns (.destroy n) .issued → ¬Met turns (.destroy n) .cancelled →
            ¬Met turns (.destroy n) .removed → (tornDown turns).count n = 1) := by
  intro a₀ a turns
  obtain ⟨hb, h, -⟩ := timely_play code moves (a := a₀) (Simulator.timely_create ..) rfl
  have hi : a.InTurn turns :=
    (inTurn_idle identity kind buckets sync m).play code moves (Simulator.timely_create ..) rfl
  have hissues : a.Issues code := issues code h hb hi.told
  refine ⟨hissues, fun k next rest => hissues.of_scheduleDestroy, hi.lined.started,
    fun n => hi.withdrawn, fun mv n => hi.of_tornDown code, ?_, ?_⟩
  · intro rest hstack
    rw [turns_of_stack hstack, Frame.turns, hi.told.sound.tornDown_teardownTurns]
  · intro next rest hstack
    rcases step_destroy code hstack with hrefused | hcall
    · exact Or.inl hrefused
    · refine Or.inr ⟨hcall, fun more hreturn => ?_⟩
      obtain ⟨hb', h', -⟩ := timely_move code .step h hb
      have hu : (step code a).UnderWay (.exec (next (.ok ())) :: rest) :=
        ⟨[], .teardown, hcall, Or.inl rfl⟩
      have hphase := (underWay_play code more (Or.inl hu) (hi.move code .step h hb) h'
        hb').resolve_left (not_underWay_self hreturn)
      have hend := hi.play code (.step :: more) h hb
      exact ⟨hphase, hend.of_destroyed hphase⟩

end Machine

end EventKernel
