import EventKernel.Proofs.Fleet.Hook

/-!
# What teardown does to other readers

Stops that readers have registered stay on the list of a simulator when the reader goes elsewhere.
So to tear a simulator down stops each reader that was ever started there and whose stop still
waits, wherever it runs now. It does nothing to any other reader, unless callbacks of the user ask
for it: what waits for teardown was registered by a program, or by a start of the reader that it
stops, on the same simulator.
-/

namespace EventKernel

open Simulator (Passage issueTurns)

/-! ### Where teardown events come from -/

lemma TeardownList.mem_of_popLive {α : Type} {l : TeardownList α} {ev : TeardownEvent α}
    (h : l.popLive.1 = some ev) : ⟨ev.sequence, ev.task, false⟩ ∈ l := by
  obtain ⟨rest, hl, -, hlive⟩ := l.popLive_eq
  have hcancelled := hlive ev h
  rw [hl, h]
  obtain ⟨sequence, task, cancelled⟩ := ev
  obtain rfl : cancelled = false := hcancelled
  simp

section

variable {K U : Type} {s t : Simulator K} {turns : List (Turn K)} {n : Nat} {task : Task K}

/-- A teardown event that is pending was pending before, or it is new. -/
lemma Simulator.Passage.mem_teardown (h : Passage s turns t)
    (hmem : ⟨n, task, false⟩ ∈ t.teardown) : ⟨n, task, false⟩ ∈ s.teardown ∨
      ∃ x ∈ turns, x.id = .destroy n ∧ x.fate = .issued := by
  have hfind : t.find? (.destroy n) = some (TeardownEvent.toEvent ⟨n, task, false⟩) := by
    rw [find?, TeardownList.get?_eq_of_mem h.sound.nodup hmem]
    rfl
  rcases h.held _ _ hfind with ⟨old, hold, hsame, hlive⟩ | ⟨-, x, hx, hid, hissued, -⟩
  · left
    obtain ⟨⟨sequence, task', cancelled⟩, hget, rfl⟩ := Option.map_eq_some_iff.mp hold
    obtain ⟨hmem', rfl⟩ := TeardownList.mem_of_get? hget
    obtain rfl : task' = task := (Event.of_unmarked_eq hsame).2
    obtain rfl : cancelled = false := hlive rfl
    exact hmem'
  · exact Or.inr ⟨x, hx, hid, hissued⟩

lemma Simulator.mem_teardown_scheduleDestroy {task' : Task K} (halive : s.phase ≠ .destroyed)
    (hmem : ⟨n, task, false⟩ ∈ (s.scheduleDestroy task').2.teardown) :
    ⟨n, task, false⟩ ∈ s.teardown ∨ n = s.sequences.next ∧ task = task' := by
  rw [scheduleDestroy, if_neg halive] at hmem
  rcases List.mem_append.mp hmem with hold | hnew
  · exact Or.inl hold
  · obtain ⟨hn, htask, -⟩ := TeardownEvent.mk.inj (List.mem_singleton.mp hnew)
    exact Or.inr ⟨hn, htask⟩

namespace Machine

variable {a : Machine K U} {keys : List EventKey}

lemma Leaves.task_not_mem_tail {frame : Frame K U} {phase : Phase} {top : List (Frame K U)}
    (h : Leaves s frame phase top) (task : Task K) : .task task ∉ top.tail := by
  cases h <;> simp

lemma Leaves.eq_teardown {frame : Frame K U} {phase : Phase} {top frames base : List (Frame K U)}
    (h : Leaves s frame phase top) (htasks : .task task ∉ frames)
    (heq : top ++ frames = .task task :: .teardown :: base) : frame = .teardown := by
  cases h with
  | teardown | close => rfl
  | finished | done | finishRun | restored | rearmedWatchdog | rearmedTrickle | cleared =>
    rw [List.nil_append] at heq
    rw [heq] at htasks
    exact absurd List.mem_cons_self htasks
  | _ => simp at heq

/-- Only teardown puts a callback on top of itself, and that of the event that is next. -/
lemma popLive_of_step (code : Code K U) (h : a.sim.Timely keys) {frame : Frame K U}
    {frames base : List (Frame K U)} (hstack : a.stack = frame :: frames)
    (htasks : .task task ∉ frames) (hnew : (step code a).stack = .task task :: .teardown :: base) :
    frame = .teardown ∧ ∃ ev, a.sim.teardown.popLive.1 = some ev ∧ ev.task = task := by
  obtain ⟨s, m, stack, broken⟩ := a
  obtain rfl : stack = frame :: frames := hstack
  obtain ⟨top, hleaves, htop⟩ := leaves_stepFrame code frame h m frames
  obtain rfl := hleaves.eq_teardown htasks (htop.symm.trans hnew)
  refine ⟨rfl, ?_⟩
  rw [step, stepFrame, nextTeardown] at hnew
  dsimp only at hnew
  split at hnew
  · next ev hpopped =>
    refine ⟨ev, hpopped, ?_⟩
    simpa using (List.cons.inj hnew).1
  · simp at hnew

end Machine

end

variable {K E V : Type}

/-- A teardown event that a step issues is given to a program. -/
lemma Frame.mem_grants {s : Simulator (Job K E)} {m : Memory (Job K E) V}
    {frame : Frame (Job K E) V} (hs : s.Sound) (hm : m.NamesQueued) {n : Nat}
    {x : Turn (Job K E)} (hx : x ∈ frame.turns s m) (hid : x.id = .destroy n)
    (hissued : x.fate = .issued) : .destroy n ∈ frame.grants s := by
  have hconfined : ∀ {Q : EventId → Prop}, ¬Confined (fun _ => False) Q (frame.turns s m) := by
    intro Q hconfined
    rcases hconfined x hx with ⟨-, hnot⟩ | ⟨hnot, -⟩
    · exact hnot
    · exact hnot hissued
  by_cases hreaches : frame.ReachesTeardown
  · rcases hreaches.cases with
      ⟨k, next, rfl⟩ | ⟨id, next, rfl⟩ | ⟨id, next, rfl⟩ | rfl | rfl
    · have hx : x ∈ issueTurns (s.scheduleDestroy (.user k)) := hx
      show .destroy n ∈ (s.scheduleDestroy (.user k)).1.toOption.toList
      rcases h : s.scheduleDestroy (.user k) with ⟨e | id, t⟩
      · rw [h] at hx
        cases hx
      · rw [h] at hx
        rw [← hid, (Simulator.of_mem_turn hx).1]
        exact List.mem_singleton_self id
    · exact absurd (s.confined_cancelTurns id) hconfined
    · exact absurd (s.confined_removeTurns id) hconfined
    · exact absurd s.confined_teardownTurns hconfined
    · exact absurd s.confined_dropTurns hconfined
  · have hqueued := Frame.apart_turns hs hm hreaches x hx
    rw [hid] at hqueued
    exact hqueued.elim

/-! ### Callbacks that concern a reader -/

/-- Whether a deed starts or stops the reader `r`. -/
def Deed.concerns (r : Nat) : Deed K E → Bool
  | start q _ | stop q => q = r
  | look | drive .. => false

/-- Whether a task is to start or to stop the reader `r`. -/
def Task.concerns (r : Nat) : Task (Job K E) → Bool
  | user (.deed d) => d.concerns r
  | _ => false

namespace Fleet

variable {c : FleetCode K E V} {f g : Fleet K E V} {mv : Move K E V} {i r n : Nat}
  {a b : Machine (Job K E) V} {turns : List (Turn (Job K E))} {task : Task (Job K E)}

/-- Whether a callback of the user starts or stops the reader `r`: one that the teardown of the
simulator `i` is about to start, or any that has started otherwise. -/
def touches (r i : Nat) (f : Fleet K E V) : Bool :=
  match f.runs with
  | (j, .task task :: .teardown :: _) :: _ => j ≠ i && task.concerns r
  | (_, .task task :: _) :: _ => task.concerns r
  | (j, .teardown :: _) :: _ =>
    j = i && ((f.world.sim? i).bind (·.teardown.popLive.1)).any fun ev =>
      ev.task.concerns r && f.given.contains (i, .destroy ev.sequence)
  | _ => false

/-- A reader is neither started nor stopped. -/
structure Undisturbed (r : Nat) (f g : Fleet K E V) : Prop where
  state : (g.readers r).state = (f.readers r).state
  target : (g.readers r).target = (f.readers r).target
  stops : (g.readers r).stops = (f.readers r).stops
  teardown : (g.readers r).teardown = (f.readers r).teardown
  startedOn : g.startedOn r = f.startedOn r

lemma Undisturbed.refl (r : Nat) (f : Fleet K E V) : Undisturbed r f f := ⟨rfl, rfl, rfl, rfl, rfl⟩

lemma Undisturbed.trans {h : Fleet K E V} (hfg : Undisturbed r f g) (hgh : Undisturbed r g h) :
    Undisturbed r f h where
  state := hgh.state.trans hfg.state
  target := hgh.target.trans hfg.target
  stops := hgh.stops.trans hfg.stops
  teardown := hgh.teardown.trans hfg.teardown
  startedOn := hgh.startedOn.trans hfg.startedOn

/-! ### What a simulator sees of them -/

/-- A callback stands on top of what is left to do. -/
lemma Sees.tasks (h : Sees c f g i a mv turns b) (ha : a.Healthy)
    (htasks : ∀ task, .task task ∉ a.stack.tail) (task : Task (Job K E)) :
    .task task ∉ b.stack.tail := by
  cases h with
  | hears => exact htasks task
  | enters => simp
  | pops hruns hstack | registers hruns hstack =>
    intro hmem
    have hnot := htasks task
    rw [hstack] at hnot
    exact hnot (List.mem_of_mem_tail hmem)
  | @steps frame frames rest hruns hstack =>
    obtain ⟨keys, htimely⟩ := ha.timely
    obtain ⟨s, m, stack, broken⟩ := a
    obtain rfl : stack = frame :: frames := hstack
    obtain ⟨top, hleaves, htop⟩ := Machine.leaves_stepFrame c.code frame htimely m frames
    show .task task ∉ (Machine.stepFrame c.code frame s m frames).stack.tail
    rw [htop]
    cases top with
    | nil => exact fun hmem => htasks task (List.mem_of_mem_tail hmem)
    | cons x top =>
      intro hmem
      rcases List.mem_append.mp hmem with hmem | hmem
      · exact hleaves.task_not_mem_tail task hmem
      · exact htasks task hmem

/-- A teardown event that waits has waited before, or it is given to a program, or a reader has just
registered it. -/
lemma Sees.waits (h : Sees c f g i a mv turns b) (ha : a.Healthy) (hb : a.broken = false)
    (hm : a.memory.NamesQueued) (hmem : ⟨n, task, false⟩ ∈ b.sim.teardown) :
    ⟨n, task, false⟩ ∈ a.sim.teardown ∨ (i, .destroy n) ∈ g.given ∨
      ∃ r plan frames rest, f.runs = (i, .task (.user (.deed (.start r plan))) :: frames) :: rest ∧
        task = .user (.deed (.stop r)) ∧ (r, i, .destroy n) ∈ g.hooks := by
  obtain ⟨-, hpassage, -⟩ := h.follows ha hb
  cases h with
  | hears | enters | pops => exact Or.inl hmem
  | steps hruns hstack hdeed hg hgiven m =>
    refine Or.imp_right (fun hnew => Or.inl ?_) (hpassage.mem_teardown hmem)
    obtain ⟨x, hx, hid, hissued⟩ := hnew
    obtain ⟨s, m, stack, broken⟩ := a
    obtain rfl : stack = _ :: _ := hstack
    rw [Machine.turns_step] at hx
    rw [hgiven]
    exact List.mem_append_left _ (List.mem_map_of_mem (Frame.mem_grants ha.sound hm hx hid hissued))
  | registers hruns hstack halive hhook m =>
    rcases Simulator.mem_teardown_scheduleDestroy halive hmem with hold | ⟨rfl, htask⟩
    · exact Or.inl hold
    · exact Or.inr (Or.inr ⟨_, _, _, _, hruns, htask, hhook⟩)

/-! ### What holds throughout -/

/-- What has been recorded stays recorded. -/
lemma Outcome.records (ho : Outcome c f mv g) : f.given ⊆ g.given ∧ f.hooks ⊆ g.hooks := by
  cases ho with
  | idle | finish | calls | returns | look | add | remote | reader | forbid =>
    exact ⟨List.Subset.refl _, List.Subset.refl _⟩
  | drive | enter =>
    rw [drive_unchanged]
    exact ⟨List.Subset.refl _, List.Subset.refl _⟩
  | advance => exact ⟨List.subset_append_right _ _, List.Subset.refl _⟩
  | starts =>
    rw [(afterStart_cases ..).2.1, hooks_afterStart]
    exact ⟨List.Subset.refl _, List.subset_append_right _ _⟩

/-- A simulator has seen the move, or it has just come to be. -/
lemma Sane.machine?_cases (hf : f.Sane) (ho : Outcome c f mv g) (hb : g.machine? i = some b) :
    (∃ a turns, f.machine? i = some a ∧ Sees c f g i a mv turns b) ∨
      b.stack = [] ∧ b.sim.teardown = [] := by
  obtain ⟨s, hs, -⟩ := machine?_eq_some_iff.mp hb
  rcases hf.sees_or_new ho (World.of_sim? hs).1 with
    ⟨a, turns, b', ha, hb', hsees⟩ | ⟨kind, buckets, sync, hb'⟩
  · obtain rfl := Option.some.inj (hb.symm.trans hb')
    exact Or.inl ⟨a, turns, ha, hsees⟩
  · obtain rfl := Option.some.inj (hb.symm.trans hb')
    exact Or.inr ⟨rfl, rfl⟩

/-- What holds of every fleet. -/
structure Steady (f : Fleet K E V) : Prop where
  sane : f.Sane
  attends : f.Attends
  tasks : ∀ i a, f.machine? i = some a → ∀ task, .task task ∉ a.stack.tail
  /-- What waits for teardown was registered by a program, or when a reader was started. -/
  registered : ∀ i a n task, f.machine? i = some a → ⟨n, task, false⟩ ∈ a.sim.teardown →
    (i, .destroy n) ∈ f.given ∨ ∃ r, task = .user (.deed (.stop r)) ∧ (r, i, .destroy n) ∈ f.hooks

lemma steady_empty (bufferSize : Nat → Nat) (descriptors : String → Descriptor) (user : V) :
    (empty bufferSize descriptors user : Fleet K E V).Steady where
  sane := sane_empty ..
  attends := attends_empty ..
  tasks i a ha := by simp [machine?, World.sim?, empty] at ha
  registered i a n task ha := by simp [machine?, World.sim?, empty] at ha

lemma Steady.outcome (h : f.Steady) (ho : Outcome c f mv g) : g.Steady where
  sane := h.sane.outcome ho
  attends := h.attends.outcome ho
  tasks i b hb task := by
    rcases h.sane.machine?_cases ho hb with ⟨a, turns, ha, hsees⟩ | ⟨hidle, -⟩
    · exact hsees.tasks (h.sane.of_machine? ha).1 (h.tasks i a ha) task
    · simp [hidle]
  registered i b n task hb hmem := by
    obtain ⟨hgiven, hhooks⟩ := ho.records
    rcases h.sane.machine?_cases ho hb with ⟨a, turns, ha, hsees⟩ | ⟨-, hnil⟩
    · obtain ⟨hhealthy, hbroken, -, hnames, -⟩ := h.sane.of_machine? ha
      rcases hsees.waits hhealthy hbroken hnames hmem with
        hold | hnew | ⟨r, plan, frames, rest, -, htask, hhook⟩
      · rcases h.registered i a n task ha hold with hprogram | ⟨r, htask, hhook⟩
        · exact Or.inl (hgiven hprogram)
        · exact Or.inr ⟨r, htask, hhooks hhook⟩
      · exact Or.inl hnew
      · exact Or.inr ⟨r, htask, hhook⟩
    · rw [hnil] at hmem
      cases hmem

lemma Steady.move (h : f.Steady) (c : FleetCode K E V) (mv : Move K E V) : (f.move c mv).Steady :=
  h.outcome (f.outcome_move c mv)

lemma Steady.play (h : f.Steady) (c : FleetCode K E V) (moves : List (Move K E V)) :
    (f.play c moves).Steady := by
  induction moves generalizing f with
  | nil => exact h
  | cons mv moves ih => exact ih (h.move c mv)

/-! ### Readers that teardown spares -/

/-- Of what waits on the simulator `i`, only what programs have registered concerns the reader `r`,
and teardown is not just at anything that does. -/
structure Spares (r i : Nat) (f : Fleet K E V) : Prop where
  waiting : ∀ a n task, f.machine? i = some a → ⟨n, task, false⟩ ∈ a.sim.teardown →
    task.concerns r = true → (i, .destroy n) ∈ f.given
  started : ∀ a task frames, f.machine? i = some a → a.stack = .task task :: .teardown :: frames →
    task.concerns r = false

/-- No callback starts or stops the reader. -/
lemma Spares.concerns_eq_false (h : f.Spares r i) (hf : f.Sane) (hnot : f.touches r i = false)
    {j : Nat} {frames : List (Frame (Job K E) V)} {rest : List (Nat × List (Frame (Job K E) V))}
    (hruns : f.runs = (j, .task task :: frames) :: rest) : task.concerns r = false := by
  rw [touches, hruns] at hnot
  cases frames with
  | nil => exact hnot
  | cons frame frames =>
    cases frame with
    | teardown =>
      by_cases hij : j = i
      · subst hij
        obtain ⟨s, -, ha⟩ := hf.machine_of_runs hruns
        exact h.started _ _ _ ha rfl
      · simpa [hij] using hnot
    | _ => exact hnot

/-- No call of `stop` of the reader is waited for. -/
lemma Spares.call?_eq_none (h : f.Spares r i) (hf : f.Sane) (hnot : f.touches r i = false) :
    f.call? r = none := by
  rw [call?, if_neg]
  intro hstopping
  rw [stopping?] at hstopping
  split at hstopping
  · next q frames rest hruns =>
    obtain rfl := Option.some.inj hstopping
    have hconcerns := h.concerns_eq_false hf hnot hruns
    simp [Task.concerns, Deed.concerns] at hconcerns
  · cases hstopping

lemma Spares.waiting_outcome (h : f.Spares r i) (hf : f.Sane) (ho : Outcome c f mv g)
    (hnot : f.touches r i = false) (hb : g.machine? i = some b)
    (hmem : ⟨n, task, false⟩ ∈ b.sim.teardown) (hconcerns : task.concerns r = true) :
    (i, .destroy n) ∈ g.given := by
  rcases hf.machine?_cases ho hb with ⟨a, turns, ha, hsees⟩ | ⟨-, hnil⟩
  · obtain ⟨hhealthy, hbroken, -, hnames, -⟩ := hf.of_machine? ha
    rcases hsees.waits hhealthy hbroken hnames hmem with
      hold | hnew | ⟨q, plan, frames, rest, hruns, rfl, -⟩
    · exact ho.records.1 (h.waiting a n task ha hold hconcerns)
    · exact hnew
    · have hother := h.concerns_eq_false hf hnot hruns
      exact absurd (hconcerns.symm.trans hother) Bool.noConfusion
  · rw [hnil] at hmem
    cases hmem

/-- A callback that concerns the reader comes from teardown only if a program has registered it, and
then to start it touches the reader. -/
lemma Spares.started_outcome (h : f.Spares r i) (hf : f.Steady) (ho : Outcome c f mv g)
    (hnot : f.touches r i = false) {frames : List (Frame (Job K E) V)} (hb : g.machine? i = some b)
    (hstack : b.stack = .task task :: .teardown :: frames) : task.concerns r = false := by
  rcases hf.sane.machine?_cases ho hb with ⟨a, turns, ha, hsees⟩ | ⟨hidle, -⟩
  · have htasks := hf.tasks i a ha
    obtain ⟨hhealthy, -⟩ := hf.sane.of_machine? ha
    cases hsees with
    | hears => exact h.started a task frames ha hstack
    | enters => simp at hstack
    | pops hruns hstack' | registers hruns hstack' =>
      obtain rfl : _ = Frame.task task :: .teardown :: frames := hstack
      have hnever := htasks task
      rw [hstack'] at hnever
      simp at hnever
    | @steps frame frames' rest hruns hstack' =>
      obtain ⟨keys, htimely⟩ := hhealthy.timely
      have hnever := htasks task
      rw [hstack'] at hnever
      obtain ⟨rfl, ev, hpopped, rfl⟩ :=
        Machine.popLive_of_step c.code htimely hstack' hnever hstack
      obtain ⟨s, hs, rfl⟩ := machine?_eq_some_iff.mp ha
      rw [touches, hruns] at hnot
      -- an event that concerns the reader would be a program's, and then this very step touches it
      by_contra hconcerns
      rw [Bool.not_eq_false] at hconcerns
      have hgiven := h.waiting _ _ _ ha (TeardownList.mem_of_popLive hpopped) hconcerns
      have hpopped : s.teardown.popLive.1 = some ev := hpopped
      simp [hs, hpopped, hconcerns, hgiven] at hnot
  · rw [hidle] at hstack
    cases hstack

lemma Spares.undisturbed (h : f.Spares r i) (hf : f.Steady) (ho : Outcome c f mv g)
    (hnot : f.touches r i = false) : Undisturbed r f g := by
  have hother : ∀ {j q frames rest} {d : Deed K E},
      f.runs = (j, .task (.user (.deed d)) :: frames) :: rest → d.concerns q = true → r ≠ q := by
    rintro j q frames rest d hruns hq rfl
    exact absurd (hq.symm.trans (h.concerns_eq_false hf.sane hnot hruns)) Bool.noConfusion
  cases ho with
  | idle | finish | advance | add | remote | forbid | returns | look =>
    exact ⟨rfl, rfl, rfl, rfl, rfl⟩
  | drive | enter =>
    rw [drive_unchanged]
    exact ⟨rfl, rfl, rfl, rfl, rfl⟩
  | @calls j q frames rest hruns hnone =>
    have hrq : r ≠ q := hother hruns (by simp [Deed.concerns])
    constructor
    all_goals simp [setReader, hrq]
  | @starts j q plan frames rest s t answer new hruns hs hstarts =>
    have hrq : r ≠ q := hother hruns (by simp [Deed.concerns])
    obtain ⟨-, -, hcases⟩ := afterStart_cases c q j new
      { f with world := f.world.put j t f.world.memory, runs := (j, frames) :: rest } answer
    rcases hcases with ⟨e, -, hreaders, hon⟩ | ⟨-, ⟨hreaders, hon⟩ | ⟨hreaders, hon⟩⟩
    all_goals
      constructor
      all_goals simp [hreaders, hon, hrq]
  | @reader q x b hcall hx =>
    by_cases hrq : r = q
    · subst hrq
      obtain ⟨-, hteardown, -, hsame⟩ := (hf.attends.sole r).outcome rfl hcall hx
      obtain ⟨hstate, htarget, hstops⟩ := hsame (h.call?_eq_none hf.sane hnot)
      constructor
      all_goals simp [setReader, hteardown, hstate, htarget, hstops]
    · constructor
      all_goals simp [setReader, hrq]

lemma Spares.move (h : f.Spares r i) (hf : f.Steady) (c : FleetCode K E V) (mv : Move K E V)
    (hnot : f.touches r i = false) :
    (f.move c mv).Spares r i ∧ Undisturbed r f (f.move c mv) := by
  have ho := f.outcome_move c mv
  refine ⟨⟨?_, ?_⟩, h.undisturbed hf ho hnot⟩
  · exact fun b n task hb hmem => h.waiting_outcome hf.sane ho hnot hb hmem
  · exact fun b task frames hb hstack => h.started_outcome hf ho hnot hb hstack

lemma Spares.play (h : f.Spares r i) (hf : f.Steady) (c : FleetCode K E V)
    (moves : List (Move K E V)) (hnot : Along c (fun g _ => g.touches r i = false) moves f) :
    Undisturbed r f (f.play c moves) := by
  induction moves generalizing f with
  | nil => exact .refl r f
  | cons mv moves ih =>
    obtain ⟨hnow, hlater⟩ := hnot
    obtain ⟨hspares, hundisturbed⟩ := h.move hf c mv hnow
    exact hundisturbed.trans (ih hspares (hf.move c mv) hlater)

/-- A stop that a start of the reader `r` has registered waits on the simulator `i`. -/
def HookWaits (r i : Nat) (f : Fleet K E V) : Prop :=
  ∃ s n, f.world.sim? i = some s ∧ ⟨n, .user (.deed (.stop r)), false⟩ ∈ s.teardown ∧
    (i, .destroy n) ∉ f.given ∧ (r, i, .destroy n) ∈ f.hooks

/-- A call to tear the simulator `i` down, and whatever comes after it, leaves a reader alone that
callbacks of the user neither start nor stop, unless a stop waits there that an earlier start of
this very reader has registered. Where the reader runs does not matter. -/
theorem teardown_spares_readers (c : FleetCode K E V) (bufferSize : Nat → Nat)
    (descriptors : String → Descriptor) (user : V) (moves : List (Move K E V)) :
    let f := play c moves (empty bufferSize descriptors user)
    ∀ i next frames rest, f.runs = (i, .exec (.destroy next) :: frames) :: rest →
      ∀ r more, Along c (fun g _ => g.touches r i = false) more (f.step c) →
        Undisturbed r f (play c more (f.step c)) ∨ f.HookWaits r i := by
  intro f i next frames rest hruns r more hmore
  have hf : f.Steady := (steady_empty bufferSize descriptors user).play c moves
  by_cases hhooks : f.HookWaits r i
  · exact Or.inr hhooks
  · left
    have hspares : f.Spares r i := by
      constructor
      · intro a n task ha hmem hconcerns
        rcases hf.registered i a n task ha hmem with hgiven | ⟨q, rfl, hhook⟩
        · exact hgiven
        · by_contra hgiven
          obtain rfl : q = r := of_decide_eq_true hconcerns
          obtain ⟨s, hs, rfl⟩ := machine?_eq_some_iff.mp ha
          exact hhooks ⟨s, n, hs, hmem, hgiven, hhook⟩
      · intro a task base ha hstack
        have hframes := (hf.sane.of_machine? ha).2.2.2.2
        rw [hstack, framesOf_cons_self hruns] at hframes
        cases hframes
    have hnot : f.touches r i = false := by
      rw [touches, hruns]
    -- the call itself is the first of the moves
    exact hspares.play hf c (.step :: more) ⟨hnot, hmore⟩

/-- Reader 0 is started on the first simulator and reader 1 on the second. Then the first simulator
is to be torn down. -/
def neighbours : Fleet Unit Unit Unit :=
  blank.play plain <| [.add .list 1 .sequential, .add .list 1 .sequential] ++ starting 0 ++
    order 1 (.start 1 { target := "q", callback := fun _ => [] }) ++ List.replicate 3 .step ++
    [.enter 0 id (.destroy fun _ => .done ())]

/-- Teardown makes the call of `stop` with number `n`, and ends. -/
def tearing (n : Nat) : List (Move Unit Unit Unit) := .step :: awaiting n ++ List.replicate 3 .step

/-- The neighbours behind the teardown of the first simulator. -/
def bereft : Fleet Unit Unit Unit := (neighbours.step plain).play plain (tearing 0)

theorem teardown_spares_readers_neighbour :
    neighbours.runs = [(0, [.exec (.destroy fun _ => .done ())])] ∧
      Along plain (fun g _ => g.touches 1 0 = false) (tearing 0) (neighbours.step plain) ∧
      bereft.runs = [(0, [.exec (.done ())])] ∧ (bereft.readers 0).state = .idle ∧
      (neighbours.readers 1).state = .running ∧ (bereft.readers 1).state = .running := by
  have hruns : neighbours.runs = [(0, [.exec (.destroy fun _ => .done ())])] := rfl
  have hnot : Along plain (fun g _ => g.touches 1 0 = false) (tearing 0)
      (neighbours.step plain) := by
    decide +kernel
  have hhooks : neighbours.hooks = [(1, 1, .destroy 1), (0, 0, .destroy 1)] := by decide +kernel
  have hrunning : (neighbours.readers 1).state = .running := by decide +kernel
  have hends : bereft.runs = [(0, [.exec (.done ())])] := rfl
  refine ⟨hruns, hnot, hends, by decide +kernel, hrunning, ?_⟩
  have hspared : Undisturbed 1 neighbours bereft ∨ neighbours.HookWaits 1 0 := by
    rw [neighbours, blank] at hruns hnot
    rw [bereft, neighbours, blank]
    exact teardown_spares_readers plain (fun _ => 1) (fun _ => .pipe {}) () _ 0 _ _ _ hruns 1 _ hnot
  rcases hspared with hundisturbed | ⟨s, n, -, -, -, hhook⟩
  · rw [hundisturbed.state, hrunning]
  · rw [hhooks] at hhook
    simp at hhook

/-- Reader 0 is started on the first simulator, stopped, and started on the second. Then the first
simulator is to be torn down. -/
def moved : Fleet Unit Unit Unit :=
  blank.play plain <| [.add .list 1 .sequential, .add .list 1 .sequential] ++ starting 0 ++
    stoppingOn 0 0 ++ starting 1 ++ [.enter 0 id (.destroy fun _ => .done ())]

/-- The fleet behind the teardown of the first simulator. -/
def halted : Fleet Unit Unit Unit := (moved.step plain).play plain (tearing 1)

/-- The stop that the first start has registered is made, though the reader runs on the second
simulator, which goes on. -/
theorem teardown_stops_reader_elsewhere :
    moved.runs = [(0, [.exec (.destroy fun _ => .done ())])] ∧
      (moved.readers 0).state = .running ∧ moved.startedOn 0 = some 1 ∧
      Along plain (fun g _ => g.touches 0 0 = false) (tearing 1) (moved.step plain) ∧
      halted.runs = [(0, [.exec (.done ())])] ∧
      (halted.readers 0).state = .idle ∧ halted.startedOn 0 = some 1 := by
  refine ⟨rfl, by decide +kernel, by decide +kernel, by decide +kernel, rfl, ?_, ?_⟩
  all_goals decide +kernel

end Fleet

end EventKernel
