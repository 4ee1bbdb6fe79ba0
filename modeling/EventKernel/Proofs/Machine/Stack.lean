import EventKernel.Proofs.Machine.Clock

/-!
# The stack of a machine

What a step can leave on the stack in place of the frame on top. The rest of the stack is not
touched, so a frame is come back to in the order in which frames were put down.

While the loop runs, its frame stands once on the stack, with what callbacks left above it and what
the owner of the simulator is at below it. So a callback that the loop has just invoked finds no
other callback unfinished within the same run.
-/

namespace EventKernel

open Simulator (Course EventCourse)

variable {K U : Type} {s t : Simulator K} {turns : List (Turn K)}

/-! ### Code of the user -/

/-- Whether all that waits in the inbox or for teardown is code of the user. -/
structure Simulator.HoldsUserCode (s : Simulator K) : Prop where
  inbox : ∀ ev ∈ s.inbox.events, ∃ k, ev.task = .user k
  teardown : ∀ ev ∈ s.teardown, ∃ k, ev.task = .user k

lemma Simulator.holdsUserCode_create (identity : Nat) (kind : QueueKind) (buckets : Nat)
    (sync : SyncMode) : (create identity kind buckets sync : Simulator K).HoldsUserCode where
  inbox ev hev := by simp [create] at hev
  teardown ev hev := by simp [create] at hev

lemma Simulator.HoldsUserCode.congr (h : s.HoldsUserCode) (hinbox : t.inbox.events = s.inbox.events)
    (hteardown : t.teardown = s.teardown) : t.HoldsUserCode where
  inbox := by
    rw [hinbox]
    exact h.inbox
  teardown := by
    rw [hteardown]
    exact h.teardown

lemma Simulator.HoldsUserCode.course (h : s.HoldsUserCode) (hcourse : Course s turns t) :
    t.HoldsUserCode where
  inbox ev hev := by
    rcases hcourse.mem_inbox ev hev with hold | huser
    · exact h.inbox ev hold
    · exact huser
  teardown ev hev := by
    rcases hcourse.mem_teardown ev hev with hold | huser
    · obtain ⟨old, hold, hsame⟩ := List.mem_map.mp hold
      rw [← hsame]
      exact h.teardown old hold
    · exact huser

/-- What waits for teardown is no event of a timer. -/
lemma Simulator.HoldsUserCode.ne_destroy (h : s.HoldsUserCode) {id : EventId}
    {ev : Event (Task K)} (hev : s.find? id = some ev) (htask : ∀ k, ev.task ≠ .user k) (n : Nat) :
    id ≠ .destroy n := by
  rintro rfl
  obtain ⟨old, hold, rfl⟩ := Option.map_eq_some_iff.mp hev
  obtain ⟨k, hk⟩ := h.teardown old (TeardownList.mem_of_get? hold).1
  exact htask k hk

/-! ### Frames and phases -/

/-- Frames of the owner of a simulator and of teardown. -/
def Frame.IsOuter : Frame K U → Prop
  | .exec _ | .task (.user _) | .teardown | .close | .clear => True
  | .task _ | .loop | .next | .restore _ | .rearmWatchdog .. | .rearmTrickle .. => False

/-- Frames of the callback that the loop has invoked. -/
def Frame.IsInner : Frame K U → Prop
  | .exec _ | .task (.user _) | .restore _ | .rearmWatchdog .. | .rearmTrickle .. => True
  | .task _ | .loop | .next | .teardown | .close | .clear => False

lemma Simulator.EventCourse.phase_eq (h : EventCourse s turns t) : t.phase = s.phase := by
  rw [h.unchanged]

lemma SimRequest.phase_apply (r : SimRequest K) (s : Simulator K) :
    (r.apply s).2.phase = s.phase := by
  rcases r.effect_apply s with h | ⟨-, stop, sync, observer, -, h⟩
  · exact h.phase_eq
  · rw [h]

lemma Request.phase_apply (r : Request K U) (s : Simulator K) (m : Memory K U) :
    (r.apply s m).2.1.phase = s.phase := by
  cases r with
  | sim r => exact r.phase_apply s
  | inbox target r => rw [apply, (m.askInbox_unchanged target r s).1]
  | _ => exact (eventCourse_apply _ s m (by simp) (by simp)).phase_eq

namespace Machine

/-! ### What steps leave -/

/-- What a step may leave in place of a frame, and the phase it leaves the simulator in. -/
inductive Leaves (s : Simulator K) : Frame K U → Phase → List (Frame K U) → Prop where
  | finished (p : Program K U PUnit) : Leaves s (.exec p) s.phase []
  | next (p q : Program K U PUnit) : Leaves s (.exec p) s.phase [.exec q]
  | perform (p q : Program K U PUnit) (k : K) :
      Leaves s (.exec p) s.phase [.task (.user k), .exec q]
  | run (p q : Program K U PUnit) (hphase : s.phase ≠ .running) :
      Leaves s (.exec p) .running [.loop, .exec q]
  | destroy (p q : Program K U PUnit) (hphase : s.phase ≠ .running) :
      Leaves s (.exec p) s.phase [.teardown, .exec q]
  | done (t : Task K) : Leaves s (.task t) s.phase []
  | routine (k : K) (p : Program K U PUnit) : Leaves s (.task (.user k)) s.phase [.exec p]
  | expire (w : Nat) (k : K) (p : Program K U PUnit) :
      Leaves s (.task (.watchdog w)) s.phase [.exec p, .rearmWatchdog w k]
  | fire (t : Nat) (k : K) (p : Program K U PUnit) :
      Leaves s (.task (.trickleFire t)) s.phase [.exec p, .rearmTrickle t k]
  | drained : Leaves s .loop s.phase [.next]
  | finishRun : Leaves s .next .stopped []
  | passOver : Leaves s .next s.phase [.loop]
  | dispatch (t : Task K) (context : ContextId) :
      Leaves s .next s.phase [.task t, .restore context, .loop]
  | restored (context : ContextId) : Leaves s (.restore context) s.phase []
  | rearmedWatchdog (w : Nat) (k : K) : Leaves s (.rearmWatchdog w k) s.phase []
  | rearmedTrickle (t : Nat) (k : K) : Leaves s (.rearmTrickle t k) s.phase []
  | teardown {ev : TeardownEvent (Task K)} (hev : ev ∈ s.teardown) :
      Leaves s .teardown s.phase [.task ev.task, .teardown]
  | close : Leaves s .teardown s.phase [.close]
  | closed : Leaves s .close .destroyed [.clear]
  | cleared : Leaves s .clear s.phase []

lemma leaves_exec (p : Program K U PUnit) (s : Simulator K) (m : Memory K U)
    (rest : List (Frame K U)) :
    ∃ top, Leaves s (.exec p) (exec p s m rest).sim.phase top ∧
      (exec p s m rest).stack = top ++ rest := by
  cases p with
  | done a => exact ⟨_, .finished _, rfl⟩
  | ask r next =>
    refine ⟨[.exec (next (r.apply s m).1)], ?_, rfl⟩
    show Leaves s _ (r.apply s m).2.1.phase _
    rw [r.phase_apply]
    exact .next _ _
  | perform k next => exact ⟨_, .perform _ _ k, rfl⟩
  | run next =>
    rw [exec]
    split
    · exact ⟨_, .next _ _, rfl⟩
    · exact ⟨_, .next _ _, rfl⟩
    · next hphase => exact ⟨_, .run _ _ (by simp [hphase]), rfl⟩
    · next hphase => exact ⟨_, .run _ _ (by simp [hphase]), rfl⟩
  | destroy next =>
    rw [exec]
    split
    · exact ⟨_, .next _ _, rfl⟩
    · exact ⟨_, .next _ _, rfl⟩
    · next hphase => exact ⟨_, .destroy _ _ (by simp [hphase]), rfl⟩
    · next hphase => exact ⟨_, .destroy _ _ (by simp [hphase]), rfl⟩

lemma leaves_start (code : Code K U) (t : Task K) (s : Simulator K) (m : Memory K U)
    (rest : List (Frame K U)) :
    ∃ top, Leaves s (.task t) (start code t s m rest).sim.phase top ∧
      (start code t s m rest).stack = top ++ rest := by
  cases t with
  | user k => exact ⟨_, .routine k _, rfl⟩
  | stop => exact ⟨_, .done _, rfl⟩
  | watchdog w =>
    rw [start]
    split
    · exact ⟨_, .done _, rfl⟩
    · next d _ =>
      have hphase := (d.course_expire w s).phase_eq
      split
      · next hd =>
        rw [hd] at hphase
        exact ⟨[], hphase ▸ .done _, rfl⟩
      · next hd =>
        rw [hd] at hphase
        exact ⟨[_, _], hphase ▸ .expire w _ _, rfl⟩
  | trickleInterval t =>
    rw [start]
    split
    · exact ⟨_, .done _, rfl⟩
    · next d _ => exact ⟨[], (d.course_endInterval t s).phase_eq ▸ .done _, rfl⟩
  | trickleFire t =>
    rw [start]
    split
    · exact ⟨_, .done _, rfl⟩
    · split
      · exact ⟨_, .done _, rfl⟩
      · exact ⟨_, .fire t _ _, rfl⟩

lemma leaves_takeNext (code : Code K U) {s : Simulator K} {keys : List EventKey}
    (h : s.Timely keys) (m : Memory K U) (rest : List (Frame K U)) :
    ∃ top, Leaves s .next (takeNext code s m rest).sim.phase top ∧
      (takeNext code s m rest).stack = top ++ rest := by
  have hround := round_takeNext code m rest h.consistent h.now_le
  generalize takeNext code s m rest = a at hround ⊢
  cases hround with
  | finish => exact ⟨_, .finishRun, rfl⟩
  | pass => exact ⟨_, .passOver, rfl⟩
  | @start id ev q =>
    refine ⟨[_, _, _], ?_, rfl⟩
    show Leaves s _ (notify code _ _ m).1.phase _
    rw [(notify_unchanged code _ _ m).1]
    exact .dispatch _ _

lemma leaves_nextTeardown (s : Simulator K) (m : Memory K U) (rest : List (Frame K U)) :
    ∃ top, Leaves s .teardown (nextTeardown s m rest).sim.phase top ∧
      (nextTeardown s m rest).stack = top ++ rest := by
  obtain ⟨front, hl, -⟩ := s.teardown.popLive_eq
  rw [nextTeardown]
  dsimp only
  split
  · next ev hev =>
    have hmem : ev ∈ s.teardown := by
      rw [hl, hev]
      simp
    exact ⟨_, .teardown hmem, rfl⟩
  · exact ⟨_, .close, rfl⟩

lemma leaves_stepFrame (code : Code K U) (f : Frame K U) {s : Simulator K} {keys : List EventKey}
    (h : s.Timely keys) (m : Memory K U) (rest : List (Frame K U)) :
    ∃ top, Leaves s f (stepFrame code f s m rest).sim.phase top ∧
      (stepFrame code f s m rest).stack = top ++ rest := by
  cases f with
  | exec p => exact leaves_exec p s m rest
  | task t => exact leaves_start code t s m rest
  | loop =>
    refine ⟨[.next], ?_, rfl⟩
    show Leaves s _ s.drainInbox.phase _
    rw [Simulator.drainInbox_eq, Simulator.insertAll_unchanged]
    exact .drained
  | next => exact leaves_takeNext code h m rest
  | restore context => exact ⟨_, .restored context, rfl⟩
  | rearmWatchdog w k => exact ⟨_, .rearmedWatchdog w k, rfl⟩
  | rearmTrickle t k => exact ⟨_, .rearmedTrickle t k, rfl⟩
  | teardown => exact leaves_nextTeardown s m rest
  | close => exact ⟨_, .closed, rfl⟩
  | clear => exact ⟨_, .cleared, rfl⟩

/-! ### The loop on the stack -/

/-- How frames stand on the stack. -/
inductive Nested : Phase → List (Frame K U) → Prop where
  | outside {phase : Phase} {stack : List (Frame K U)} (hphase : phase ≠ .running)
      (hstack : ∀ f ∈ stack, f.IsOuter) : Nested phase stack
  | inside {f : Frame K U} (above : List (Frame K U)) {below : List (Frame K U)}
      (habove : ∀ g ∈ above, g.IsInner)
      (hf : f = .loop ∨ f = .next) (hbelow : ∀ g ∈ below, g.IsOuter) :
      Nested .running (above ++ f :: below)
  /-- A callback is about to start. -/
  | dispatched (t : Task K) (context : ContextId) {below : List (Frame K U)}
      (hbelow : ∀ g ∈ below, g.IsOuter) :
      Nested .running (.task t :: .restore context :: .loop :: below)

variable {s : Simulator K} {f : Frame K U} {phase : Phase} {top : List (Frame K U)}

/-- What a callback leaves belongs to the callback. -/
lemma Leaves.isInner (h : Leaves s f phase top) (hphase : s.phase = .running)
    (hf : f.IsInner ∨ ∃ t, f = .task t) : phase = .running ∧ ∀ g ∈ top, g.IsInner := by
  cases h with
  | run p q hnot | destroy p q hnot => exact absurd hphase hnot
  | drained | finishRun | passOver | dispatch | teardown | close | closed | cleared =>
    rcases hf with hf | ⟨t, ht⟩
    · exact hf.elim
    · cases ht
  | finished | next | perform | done | routine | expire | fire | restored | rearmedWatchdog
  | rearmedTrickle => exact ⟨hphase, by simp [Frame.IsInner]⟩

/-- What is left while no loop runs belongs to the owner, unless the loop is started. -/
lemma Leaves.isOuter (h : Leaves s f phase top) (hs : s.HoldsUserCode)
    (hphase : s.phase ≠ .running) (hf : f.IsOuter) :
    (phase ≠ .running ∧ ∀ g ∈ top, g.IsOuter) ∨
      phase = .running ∧ ∃ q, top = [.loop, .exec q] := by
  cases h with
  | run p q => exact Or.inr ⟨rfl, q, rfl⟩
  | expire | fire | drained | finishRun | passOver | dispatch | restored | rearmedWatchdog
  | rearmedTrickle => exact hf.elim
  | @teardown ev hev =>
    obtain ⟨k, hk⟩ := hs.teardown ev hev
    exact Or.inl ⟨hphase, by simp [Frame.IsOuter, hk]⟩
  | closed => exact Or.inl ⟨by simp, by simp [Frame.IsOuter]⟩
  | finished | next | perform | destroy | done | routine | close | cleared =>
    exact Or.inl ⟨hphase, by simp [Frame.IsOuter]⟩

lemma Nested.phase_ne (h : Nested phase ([] : List (Frame K U))) : phase ≠ .running := by
  generalize hstack : [] = stack at h
  cases h with
  | outside hphase => exact hphase
  | inside => simp at hstack
  | dispatched => cases hstack

lemma Nested.isOuter {stack : List (Frame K U)} (h : Nested phase stack)
    (hphase : phase ≠ .running) : ∀ f ∈ stack, f.IsOuter := by
  cases h with
  | outside hnot hall => exact hall
  | inside | dispatched => exact absurd rfl hphase

lemma Nested.leaves {rest : List (Frame K U)} (h : Nested s.phase (f :: rest))
    (hs : s.HoldsUserCode) (hleaves : Leaves s f phase top) : Nested phase (top ++ rest) := by
  generalize hstack : f :: rest = stack at h
  generalize hrunning : s.phase = before at h
  cases h with
  | outside hphase hall =>
    subst hstack hrunning
    have hrest : ∀ g ∈ rest, g.IsOuter := fun g hg => hall g (List.mem_cons_of_mem f hg)
    rcases hleaves.isOuter hs hphase (hall f List.mem_cons_self) with ⟨hnot, htop⟩ | ⟨rfl, q, rfl⟩
    · refine .outside hnot ?_
      intro g hg
      rcases List.mem_append.mp hg with hg | hg
      · exact htop g hg
      · exact hrest g hg
    · refine .inside [] (by simp) (Or.inl rfl) ?_
      intro g hg
      rcases List.mem_cons.mp hg with rfl | hg
      · trivial
      · exact hrest g hg
  | @inside g above below habove hg hbelow =>
    cases above with
    | nil =>
      obtain ⟨rfl, rfl⟩ := List.cons.inj hstack
      rcases hg with rfl | rfl
      · cases hleaves with
        | drained => exact hrunning ▸ .inside [] (by simp) (Or.inr rfl) hbelow
      · cases hleaves with
        | finishRun => exact .outside (by simp) hbelow
        | passOver => exact hrunning ▸ .inside [] (by simp) (Or.inl rfl) hbelow
        | dispatch t context => exact hrunning ▸ .dispatched t context hbelow
    | cons f' above =>
      obtain ⟨rfl, rfl⟩ := List.cons.inj hstack
      obtain ⟨rfl, htop⟩ := hleaves.isInner hrunning (Or.inl (habove f List.mem_cons_self))
      have hinside := Nested.inside (top ++ above) ?_ hg hbelow
      · rwa [List.append_assoc] at hinside
      · intro x hx
        rcases List.mem_append.mp hx with hx | hx
        · exact htop x hx
        · exact habove x (List.mem_cons_of_mem f hx)
  | dispatched t context hbelow =>
    obtain ⟨rfl, rfl⟩ := List.cons.inj hstack
    obtain ⟨rfl, htop⟩ := hleaves.isInner hrunning (Or.inr ⟨t, rfl⟩)
    have hinside := Nested.inside (f := .loop) (top ++ [.restore context]) ?_
      (Or.inl rfl) hbelow
    · rwa [List.append_assoc] at hinside
    · intro x hx
      rcases List.mem_append.mp hx with hx | hx
      · exact htop x hx
      · rw [List.mem_singleton.mp hx]
        trivial

/-- An expiry is started right after it was dispatched, so no callback of the run is unfinished. -/
lemma Nested.of_expiry {w : Nat} {rest : List (Frame K U)}
    (h : Nested phase (.task (.watchdog w) :: rest)) :
    phase = .running ∧ ∀ v k, .rearmWatchdog v k ∉ rest := by
  generalize hstack : Frame.task (.watchdog w) :: rest = stack at h
  cases h with
  | outside hphase hall =>
    subst hstack
    exact (hall _ List.mem_cons_self).elim
  | @inside g above below habove hg hbelow =>
    cases above with
    | nil =>
      obtain ⟨rfl, -⟩ := List.cons.inj hstack
      simp at hg
    | cons f' above =>
      obtain ⟨rfl, -⟩ := List.cons.inj hstack
      exact (habove _ List.mem_cons_self).elim
  | dispatched t context hbelow =>
    obtain ⟨-, rfl⟩ := List.cons.inj hstack
    refine ⟨rfl, ?_⟩
    intro v k hmem
    simp only [List.mem_cons, reduceCtorEq, false_or] at hmem
    exact hbelow _ hmem

/-- A round of the loop has no loop below it. -/
lemma Nested.loop_not_mem {rest : List (Frame K U)}
    (h : Nested phase (.next :: rest)) : .loop ∉ rest := by
  generalize hstack : Frame.next :: rest = stack at h
  intro hmem
  cases h with
  | outside hphase hall =>
    subst hstack
    exact hall .loop (List.mem_cons_of_mem _ hmem)
  | @inside f above below habove hf hbelow =>
    cases above with
    | nil =>
      obtain ⟨-, rfl⟩ := List.cons.inj hstack
      exact hbelow .loop hmem
    | cons g above =>
      obtain ⟨rfl, -⟩ := List.cons.inj hstack
      exact habove .next List.mem_cons_self
  | dispatched => cases hstack

/-- The event of a timer is started as soon as it was dispatched. -/
lemma Nested.task_not_mem (h : Nested phase (f :: top)) {task : Task K}
    (htask : ∀ k, task ≠ .user k) : .task task ∉ top := by
  have houter : ¬(Frame.task task : Frame K U).IsOuter := by
    cases task with
    | user k => exact absurd rfl (htask k)
    | _ => exact not_false
  have hinner : ¬(Frame.task task : Frame K U).IsInner := by
    cases task with
    | user k => exact absurd rfl (htask k)
    | _ => exact not_false
  generalize hstack : f :: top = stack at h
  intro hmem
  cases h with
  | outside hphase hall =>
    subst hstack
    exact houter (hall _ (List.mem_cons_of_mem f hmem))
  | @inside g above below habove hg hbelow =>
    have hmem : Frame.task task ∈ above ++ g :: below := by
      rw [← hstack]
      exact List.mem_cons_of_mem f hmem
    rcases List.mem_append.mp hmem with hmem | hmem
    · exact hinner (habove _ hmem)
    · rcases List.mem_cons.mp hmem with rfl | hmem
      · simp at hg
      · exact houter (hbelow _ hmem)
  | dispatched t context hbelow =>
    obtain ⟨-, rfl⟩ := List.cons.inj hstack
    simp only [List.mem_cons, reduceCtorEq, false_or] at hmem
    exact houter (hbelow _ hmem)

/-- The event of a timer comes to be started only by a round of the loop. -/
lemma Leaves.task_not_mem (h : Leaves s f phase top) (hs : s.HoldsUserCode) (hf : f ≠ .next)
    {task : Task K} (htask : ∀ k, task ≠ .user k) : .task task ∉ top := by
  cases h with
  | dispatch => exact absurd rfl hf
  | @teardown ev hev =>
    obtain ⟨k, hk⟩ := hs.teardown ev hev
    simp [hk, htask k]
  | perform p q k => simp [htask k]
  | finished | next | run | destroy | done | routine | expire | fire | drained | finishRun
  | passOver | restored | rearmedWatchdog | rearmedTrickle | close | closed | cleared => simp

/-! ### Runs -/

/-- What waits for the simulator is code of the user, and the frames stand in order. -/
structure Orderly (a : Machine K U) : Prop where
  userCode : a.sim.HoldsUserCode
  nested : Nested a.sim.phase a.stack

lemma orderly_idle (identity : Nat) (kind : QueueKind) (buckets : Nat) (sync : SyncMode)
    (m : Memory K U) : (idle identity kind buckets sync m).Orderly where
  userCode := Simulator.holdsUserCode_create identity kind buckets sync
  nested := .outside (by simp [idle, Simulator.create]) (by simp [idle])

lemma Orderly.move (code : Code K U) (mv : Move K U) {a : Machine K U} {keys : List EventKey}
    (ho : a.Orderly) (h : a.sim.Timely keys) (hb : a.broken = false) :
    (Machine.move code a mv).Orderly where
  userCode := by
    cases moveCase code mv h hb with
    | course hnext hnone hbroken hcourse => exact ho.userCode.course hcourse
    | @round rest hstep hstack htaken hturns hround =>
      generalize Machine.move code a mv = b at hround ⊢
      cases hround with
      | finish => exact ho.userCode.congr rfl rfl
      | pass => exact ho.userCode.congr rfl rfl
      | @start id ev q hsome hnext hlive =>
        obtain ⟨t, hcourse, ht⟩ :=
          course_launch code id ev { a.sim with scheduler := q, now := ev.key.time } a.memory rest
        have hq : ({ a.sim with scheduler := q, now := ev.key.time } : Simulator K).HoldsUserCode :=
          ho.userCode.congr rfl rfl
        rw [ht]
        exact (hq.course hcourse).congr rfl rfl
  nested := by
    obtain ⟨s, m, stack, broken⟩ := a
    cases mv with
    | remote r => exact ho.nested
    | enter f p =>
      rw [Machine.move]
      split
      · next hdone =>
        obtain rfl : stack = [] := List.isEmpty_iff.mp hdone
        exact .outside ho.nested.phase_ne (by simp [Frame.IsOuter])
      · exact ho.nested
    | step =>
      cases stack with
      | nil => exact ho.nested
      | cons f rest =>
        obtain ⟨top, hleaves, hstack⟩ := leaves_stepFrame code f h m rest
        show Nested (stepFrame code f s m rest).sim.phase (stepFrame code f s m rest).stack
        rw [hstack]
        exact ho.nested.leaves ho.userCode hleaves

end Machine

end EventKernel
