import EventKernel.Proofs.Fleet.Basic
import EventKernel.Proofs.Machine.Outside
import EventKernel.Proofs.Machine.Teardown
import EventKernel.Proofs.Machine.Withdrawal

/-!
# A fleet seen from one simulator

Seen from one simulator, a fleet is a machine: its stack is what is left to do on the simulator, and
whatever happens elsewhere reaches it through its inbox only. On top of the moves of a machine there
are deeds, which are done for a callback, and of these only a start can touch the simulator: it may
register a teardown event. So what holds of the machine of a simulator on its own holds of every
simulator of a fleet.
-/

namespace EventKernel

open Simulator (Course EventCourse Passage issueTurns)

/-! ### Simulators that are put back -/

namespace World

variable {K U : Type} {w : World K U} {i j : Nat} {s : Simulator K} {m : Memory K U}

lemma of_sim? (h : w.sim? i = some s) :
    i < w.sims.size ∧ s.inbox = w.memory.inboxes.getD i .shut := by
  obtain ⟨t, ht, rfl⟩ := Option.map_eq_some_iff.mp h
  exact ⟨(Array.getElem?_eq_some_iff.mp (Option.join_eq_some_iff.mp ht)).1, rfl⟩

lemma sim?_put (hi : i < w.sims.size) (hsize : m.inboxes.size = w.sims.size) :
    (w.put i s m).sim? i = some s := by
  have hinbox : i < m.inboxes.size := by omega
  simp [sim?, put, hi, hinbox]

lemma sim?_put_of_ne (h : j ≠ i) :
    (w.put i s m).sim? j = (w.sim? j).map fun t => { t with inbox := m.inboxes.getD j .shut } := by
  simp [sim?, put, Ne.symm h, Option.map_map, Function.comp_def]

lemma sim?_add (hj : j < w.sims.size) (hsize : w.memory.inboxes.size = w.sims.size)
    (new : Option (Simulator K)) : (w.add new).sim? j = w.sim? j := by
  have hinbox : j < w.memory.inboxes.size := by omega
  simp [sim?, add, Array.getElem?_push, Nat.ne_of_lt hj, hinbox, Nat.ne_of_lt hinbox]

lemma sim?_add_self (hsize : w.memory.inboxes.size = w.sims.size) (s : Simulator K) :
    (w.add (some s)).sim? w.sims.size = some s := by
  have hinbox : (w.memory.inboxes.push s.inbox).getD w.sims.size .shut = s.inbox := by
    rw [← hsize]
    simp
  have hsim : (w.add (some s)).sims[w.sims.size]? = some (some s) := by simp [add]
  rw [sim?, hsim]
  exact congrArg (fun b => some { s with inbox := b }) hinbox

lemma sim?_askInbox (hsize : w.memory.inboxes.size = w.sims.size) (i : Nat) (r : InboxRequest K)
    (h : w.sim? j = some s) :
    (w.askInbox i r).sim? j =
      some { s with inbox := if i = j then (r.apply s.inbox).2 else s.inbox } := by
  obtain ⟨hj, hinbox⟩ := of_sim? h
  obtain ⟨t, ht, rfl⟩ := Option.map_eq_some_iff.mp h
  have hlt : j < w.memory.inboxes.size := by omega
  obtain ⟨sims, watchdogs, trickles, inboxes, user⟩ := w
  simp only [sim?, askInbox, ht, Option.map_some, Array.getD_eq_getD_getElem?,
    Array.getElem?_modify]
  split
  · next hij =>
    subst hij
    rw [Array.getElem?_eq_getElem hlt]
    simp
  · next hij => simp

lemma sim?_modifyUser (g : U → U) : (w.modifyUser g).sim? j = w.sim? j := rfl

end World

/-! ### Machines of single simulators -/

namespace Machine

variable {K U : Type} {a : Machine K U}

/-- What holds of the machine of every simulator. -/
structure Healthy (a : Machine K U) : Prop where
  timely : ∃ keys, a.sim.Timely keys
  sound : a.sim.Sound
  orderly : a.Orderly
  closing : a.Closing

lemma healthy_idle (identity : Nat) (kind : QueueKind) (buckets : Nat) (sync : SyncMode)
    (m : Memory K U) : (idle identity kind buckets sync m).Healthy where
  timely := ⟨[], Simulator.timely_create ..⟩
  sound := (Simulator.told_create ..).sound
  orderly := orderly_idle ..
  closing := closing_idle ..

lemma Healthy.move (code : Code K U) (mv : Move K U) (h : a.Healthy) (hb : a.broken = false) :
    (Machine.move code a mv).Healthy ∧
      Passage a.sim (a.turns mv) (Machine.move code a mv).sim := by
  obtain ⟨keys, htimely⟩ := h.timely
  have hpassage := passage_move code mv htimely hb h.sound
  exact ⟨⟨⟨_, (timely_move code mv htimely hb).2.1⟩, hpassage.sound,
    h.orderly.move code mv htimely hb, h.closing.move code mv h.orderly htimely⟩, hpassage⟩

/-- The inbox changes, and what simulators share. -/
lemma Healthy.hear (h : a.Healthy) {b : Inbox (Task K)}
    (hcourse : Course a.sim [] { a.sim with inbox := b }) (m : Memory K U) (broken : Bool) :
    Healthy ⟨{ a.sim with inbox := b }, m, a.stack, broken⟩ where
  timely := by
    obtain ⟨keys, htimely⟩ := h.timely
    exact ⟨keys, (htimely.course hcourse).1⟩
  sound := (h.sound.passage hcourse).sound
  orderly := ⟨h.orderly.userCode.course hcourse, h.orderly.nested⟩
  closing := ⟨h.closing.tail, h.closing.close, h.closing.clear, h.closing.destroyed⟩

/-- A program that has nothing to do any more is given something to do. -/
lemma Healthy.enter (h : a.Healthy) (hidle : a.stack = []) (p : Program K U PUnit)
    (m : Memory K U) (broken : Bool) : Healthy ⟨a.sim, m, [.exec p], broken⟩ where
  timely := h.timely
  sound := h.sound
  orderly := ⟨h.orderly.userCode, by
    have hnested := h.orderly.nested
    rw [hidle] at hnested
    exact .outside hnested.phase_ne (by simp [Frame.IsOuter])⟩
  closing := ⟨by simp, by simp, by simp, h.closing.destroyed⟩

/-- A callback of the user is over. -/
lemma Healthy.pop (h : a.Healthy) {k : K} {rest : List (Frame K U)}
    (hstack : a.stack = .task (.user k) :: rest) (m : Memory K U) (broken : Bool) :
    Healthy ⟨a.sim, m, rest, broken⟩ where
  timely := h.timely
  sound := h.sound
  orderly := ⟨h.orderly.userCode, by
    have hnested := h.orderly.nested
    rw [hstack] at hnested
    exact hnested.leaves h.orderly.userCode (.done _)⟩
  closing := by
    have hrest : ∀ f ∈ rest, f ≠ .close ∧ f ≠ .clear := by
      have htail := h.closing.tail
      rwa [hstack] at htail
    refine ⟨fun f hf => hrest f (List.mem_of_mem_tail hf), fun hhead => ?_, fun hhead => ?_,
      h.closing.destroyed⟩
    · exact absurd rfl (hrest _ (List.mem_of_mem_head? hhead)).1
    · exact absurd rfl (hrest _ (List.mem_of_mem_head? hhead)).2

/-- A callback of the user registers a teardown event. -/
lemma Healthy.register (h : a.Healthy) {k : K} {rest : List (Frame K U)}
    (hstack : a.stack = .task (.user k) :: rest) (halive : a.sim.phase ≠ .destroyed) (k' : K) :
    Healthy { a with sim := (a.sim.scheduleDestroy (.user k')).2 } := by
  have hevents := Simulator.EventChange.register a.sim k' halive
  have hcourse : Course a.sim _ _ := .single (.events hevents)
  have hphase : (a.sim.scheduleDestroy (.user k')).2.phase = a.sim.phase := by
    rw [hevents.unchanged]
  obtain ⟨keys, htimely⟩ := h.timely
  refine ⟨⟨keys, (htimely.course hcourse).1⟩, (h.sound.passage hcourse).sound,
    ⟨h.orderly.userCode.course hcourse, ?_⟩, ⟨h.closing.tail, ?_, ?_, ?_⟩⟩
  · show Nested (a.sim.scheduleDestroy (.user k')).2.phase a.stack
    rw [hphase]
    exact h.orderly.nested
  · rw [hstack]
    intro hhead
    cases hhead
  · rw [hstack]
    intro hhead
    cases hhead
  · intro hdestroyed
    exact absurd (hphase.symm.trans hdestroyed) halive

end Machine

/-! ### The machine of a simulator -/

namespace Fleet

variable {K E V : Type} {c : FleetCode K E V} {f g : Fleet K E V} {mv : Move K E V} {i : Nat}
  {a b : Machine (Job K E) V} {turns : List (Turn (Job K E))}

/-- The simulators that are being driven. -/
def driven (f : Fleet K E V) : List Nat := f.runs.map (·.1)

/-- What is left to do on the simulator `i`. -/
def framesOf (i : Nat) (f : Fleet K E V) : List (Frame (Job K E) V) := (f.runs.lookup i).getD []

/-- The machine of the simulator `i`. -/
def machine? (i : Nat) (f : Fleet K E V) : Option (Machine (Job K E) V) :=
  (f.world.sim? i).map fun s => ⟨s, f.world.memory, f.framesOf i, false⟩

lemma machine?_eq_some_iff :
    f.machine? i = some a ↔
      ∃ s, f.world.sim? i = some s ∧ a = ⟨s, f.world.memory, f.framesOf i, false⟩ := by
  simp [machine?, eq_comm]

/-- What a move of a fleet comes to on the simulator `i`, with its turns. -/
inductive Sees (c : FleetCode K E V) (f g : Fleet K E V) (i : Nat) (a : Machine (Job K E) V) :
    Move K E V → List (Turn (Job K E)) → Machine (Job K E) V → Prop where
  /-- Something happens elsewhere. -/
  | hears (mv : Move K E V) {b : Inbox (Task (Job K E))} (m : Memory (Job K E) V)
      (hcourse : Course a.sim [] { a.sim with inbox := b }) :
      Sees c f g i a mv [] ⟨{ a.sim with inbox := b }, m, a.stack, false⟩
  | enters (mv : Move K E V) (p : Program (Job K E) V PUnit) (m : Memory (Job K E) V)
      (hidle : a.stack = []) : Sees c f g i a mv [] ⟨a.sim, m, [.exec p], false⟩
  | steps {frame : Frame (Job K E) V} {frames : List (Frame (Job K E) V)}
      {rest : List (Nat × List (Frame (Job K E) V))} (hruns : f.runs = (i, frame :: frames) :: rest)
      (hstack : a.stack = frame :: frames) (hdeed : frame.deed? = none)
      (hg : g.runs = (i, (Machine.step c.code a).stack) :: rest)
      (hgiven : g.given = (frame.grants a.sim).map (i, ·) ++ f.given) (m : Memory (Job K E) V) :
      Sees c f g i a .step (a.turns .step)
        ⟨(Machine.step c.code a).sim, m, (Machine.step c.code a).stack, false⟩
  /-- A deed is done. -/
  | pops {d : Deed K E} {frames : List (Frame (Job K E) V)}
      {rest : List (Nat × List (Frame (Job K E) V))}
      (hruns : f.runs = (i, .task (.user (.deed d)) :: frames) :: rest)
      (hstack : a.stack = .task (.user (.deed d)) :: frames) (m : Memory (Job K E) V) :
      Sees c f g i a .step [] ⟨a.sim, m, frames, false⟩
  /-- A reader is started, and its stop is registered. -/
  | registers {r : Nat} {plan : ReadPlan E} {frames : List (Frame (Job K E) V)}
      {rest : List (Nat × List (Frame (Job K E) V))}
      (hruns : f.runs = (i, .task (.user (.deed (.start r plan))) :: frames) :: rest)
      (hstack : a.stack = .task (.user (.deed (.start r plan))) :: frames)
      (halive : a.sim.phase ≠ .destroyed)
      (hhook : (r, i, .destroy a.sim.sequences.next) ∈ g.hooks) (m : Memory (Job K E) V) :
      Sees c f g i a .step (issueTurns (a.sim.scheduleDestroy (.user (.deed (.stop r)))))
        ⟨(a.sim.scheduleDestroy (.user (.deed (.stop r)))).2, m, frames, false⟩

lemma Sees.follows (h : Sees c f g i a mv turns b) (ha : a.Healthy) (hb : a.broken = false) :
    b.Healthy ∧ Passage a.sim turns b.sim ∧ b.sim.identity = a.sim.identity := by
  cases h with
  | hears mv m hcourse => exact ⟨ha.hear hcourse m false, ha.sound.passage hcourse, rfl⟩
  | enters mv p m hidle => exact ⟨ha.enter hidle p m false, ha.sound.passage_refl, rfl⟩
  | steps hruns hstack hdeed hg hgiven m =>
    obtain ⟨hhealthy, hpassage⟩ := ha.move c.code .step hb
    obtain ⟨keys, htimely⟩ := ha.timely
    exact ⟨hhealthy.hear (b := (Machine.step c.code a).sim.inbox) (.refl _) m false, hpassage,
      Machine.identity_move c.code .step htimely hb⟩
  | pops hruns hstack m => exact ⟨ha.pop hstack m false, ha.sound.passage_refl, rfl⟩
  | @registers r _ _ _ hruns hstack halive hhook m =>
    have hevents := Simulator.EventChange.register a.sim (Job.deed (.stop r)) halive
    refine ⟨(ha.register hstack halive _).pop hstack m false,
      ha.sound.passage (.single (.events hevents)), ?_⟩
    rw [hevents.unchanged]

/-- A call to tear the simulator down ends only by tearing it down, and that is for good. -/
lemma Sees.underWay (h : Sees c f g i a mv turns b) (ha : a.Healthy)
    {base : List (Frame (Job K E) V)} (hu : a.UnderWay base ∨ a.sim.phase = .destroyed) :
    b.UnderWay base ∨ b.sim.phase = .destroyed := by
  have hpop : ∀ {frame frames} {s : Simulator (Job K E)} {m}, a.stack = frame :: frames →
      frame ≠ .teardown → frame ≠ .close → frame ≠ .clear → a.UnderWay base →
      Machine.UnderWay base ⟨s, m, frames, false⟩ := by
    rintro frame frames s m hstack hteardown hclose hclear ⟨above, f, habove, hf⟩
    rw [hstack] at habove
    cases above with
    | nil =>
      obtain ⟨rfl, -⟩ := List.cons.inj habove
      simp [hteardown, hclose, hclear] at hf
    | cons x above => exact ⟨above, f, (List.cons.inj habove).2, hf⟩
  cases h with
  | hears => exact hu
  | enters mv p m hidle =>
    refine hu.imp_left ?_
    rintro ⟨above, f, habove, hf⟩
    rw [hidle] at habove
    simp at habove
  | steps hruns hstack hdeed hg hgiven m =>
    obtain ⟨keys, htimely⟩ := ha.timely
    rcases hu with hu | hphase
    · exact hu.move c.code .step ha.closing htimely
    · exact Or.inr (Machine.destroyed_move c.code .step ha.orderly ha.closing hphase)
  | pops hruns hstack m => exact hu.imp_left (hpop hstack (by simp) (by simp) (by simp))
  | @registers r _ _ _ hruns hstack halive hhook m =>
    rcases hu with hu | hphase
    · exact Or.inl (hpop hstack (by simp) (by simp) (by simp) hu)
    · exact absurd hphase halive

/-! ### What moves come to on a simulator -/

/-- What holds of a fleet. -/
structure Sane (f : Fleet K E V) : Prop where
  size : f.world.memory.inboxes.size = f.world.sims.size
  timers : f.world.memory.NamesQueued
  /-- No simulator is driven twice at a time. -/
  nodup : f.driven.Nodup
  living : ∀ i ∈ f.driven, i < f.world.sims.size
  healthy : ∀ i < f.world.sims.size,
    ∃ a, f.machine? i = some a ∧ a.sim.identity = i ∧ a.Healthy

lemma Sane.of_machine? (hf : f.Sane) (h : f.machine? i = some a) :
    a.Healthy ∧ a.broken = false ∧ a.sim.identity = i ∧ a.memory.NamesQueued ∧
      a.stack = f.framesOf i := by
  obtain ⟨s, hs, rfl⟩ := machine?_eq_some_iff.mp h
  obtain ⟨a, ha, hidentity, hhealthy⟩ := hf.healthy i (World.of_sim? hs).1
  obtain rfl := Option.some.inj (ha.symm.trans h)
  exact ⟨hhealthy, rfl, hidentity, hf.timers, rfl⟩

lemma framesOf_cons_self {frames : List (Frame (Job K E) V)}
    {rest : List (Nat × List (Frame (Job K E) V))} (hruns : f.runs = (i, frames) :: rest) :
    f.framesOf i = frames := by
  simp [framesOf, hruns]

lemma framesOf_eq_nil (h : i ∉ f.driven) : f.framesOf i = [] := by
  have hnone : f.runs.lookup i = none := by
    rw [List.lookup_eq_none_iff]
    intro run hrun
    rw [bne_iff_ne]
    rintro rfl
    exact h (List.mem_map_of_mem hrun)
  rw [framesOf, hnone, Option.getD_none]

lemma world_afterStart (r j : Nat) (new : Reader E) (answer : Except StartError PUnit)
    (f : Fleet K E V) :
    ∃ update, (f.afterStart c r j new answer).world = f.world.modifyUser update := by
  cases answer with
  | error e => exact ⟨_, rfl⟩
  | ok _ =>
    rw [afterStart]
    dsimp only
    split
    · exact ⟨_, rfl⟩
    · exact ⟨_, rfl⟩

lemma runs_afterStart (r j : Nat) (new : Reader E) (answer : Except StartError PUnit) :
    (f.afterStart c r j new answer).runs = f.runs := by
  cases answer with
  | error e => rfl
  | ok _ =>
    rw [afterStart]
    dsimp only
    split <;> rfl

lemma hooks_afterStart (r j : Nat) (new : Reader E) (answer : Except StartError PUnit)
    (f : Fleet K E V) : (f.afterStart c r j new answer).hooks =
      (if answer.isOk then new.teardown.toList.map (r, ·) else []) ++ f.hooks := by
  cases answer with
  | error e => rfl
  | ok _ =>
    rw [afterStart]
    dsimp only
    split <;> rfl

/-- What a start changes besides. -/
lemma afterStart_cases (c : FleetCode K E V) (r j : Nat) (new : Reader E) (f : Fleet K E V)
    (answer : Except StartError PUnit) :
    (f.afterStart c r j new answer).awaited = f.awaited ∧
    (f.afterStart c r j new answer).given = f.given ∧
    ((∃ e, answer = .error e ∧ (f.afterStart c r j new answer).readers = f.readers ∧
        (f.afterStart c r j new answer).startedOn = f.startedOn) ∨
      answer = .ok () ∧
        ((f.afterStart c r j new answer).readers =
            Function.update f.readers r (new.forgo (f.readers r)) ∧
          (f.afterStart c r j new answer).startedOn = f.startedOn ∨
        (f.afterStart c r j new answer).readers = Function.update f.readers r new ∧
          (f.afterStart c r j new answer).startedOn =
            Function.update f.startedOn r (some j))) := by
  cases answer with
  | error e => exact ⟨rfl, rfl, Or.inl ⟨e, rfl, rfl, rfl⟩⟩
  | ok _ =>
    rw [afterStart]
    dsimp only
    split
    · exact ⟨rfl, rfl, Or.inr ⟨rfl, Or.inl ⟨rfl, rfl⟩⟩⟩
    · exact ⟨rfl, rfl, Or.inr ⟨rfl, Or.inr ⟨rfl, rfl⟩⟩⟩

lemma drive_unchanged (j : Nat) (p : Program (Job K E) V PUnit) (f : Fleet K E V) :
    f.drive j p = { f with runs := (f.drive j p).runs } := by
  rw [drive]
  split <;> rfl

lemma drive_cases (j : Nat) (p : Program (Job K E) V PUnit) (f : Fleet K E V) :
    f.drive j p = f ∨ (f.world.sim? j).isSome = true ∧ j ∉ f.driven ∧
      f.drive j p = { f with runs := (j, [.exec p]) :: f.runs } := by
  rw [drive]
  split
  · exact Or.inl rfl
  · next h =>
    simp only [Bool.or_eq_true, Option.isNone_iff_eq_none, List.any_eq_true, decide_eq_true_iff,
      not_or, not_exists, not_and] at h
    refine Or.inr ⟨Option.isSome_iff_ne_none.mpr h.1, ?_, rfl⟩
    intro hmem
    obtain ⟨run, hrun, heq⟩ := List.mem_map.mp hmem
    exact h.2 run hrun heq

lemma world_drive (j : Nat) (p : Program (Job K E) V PUnit) (f : Fleet K E V) :
    (f.drive j p).world = f.world := by
  rw [drive]
  split <;> rfl

section

variable {j : Nat} {frames : List (Frame (Job K E) V)}
  {rest : List (Nat × List (Frame (Job K E) V))}

lemma sees_of {t : Simulator (Job K E)} (hsim : g.world.sim? i = some t)
    (h : Sees c f g i a mv turns ⟨t, g.world.memory, g.framesOf i, false⟩) :
    ∃ turns b, g.machine? i = some b ∧ Sees c f g i a mv turns b :=
  ⟨turns, _, machine?_eq_some_iff.mpr ⟨t, hsim, rfl⟩, h⟩

/-- Something happens elsewhere, after which the inbox may have changed. -/
lemma sees_of_elsewhere (ha : f.machine? i = some a) {b : Inbox (Task (Job K E))}
    (hsim : g.world.sim? i = some { a.sim with inbox := b })
    (hcourse : Course a.sim [] { a.sim with inbox := b }) (hframes : g.framesOf i = f.framesOf i) :
    ∃ turns b, g.machine? i = some b ∧ Sees c f g i a mv turns b := by
  obtain ⟨s, hs, rfl⟩ := machine?_eq_some_iff.mp ha
  apply sees_of hsim
  rw [hframes]
  exact .hears mv g.world.memory hcourse

lemma sees_of_same (ha : f.machine? i = some a) (hsim : g.world.sim? i = f.world.sim? i)
    (hframes : g.framesOf i = f.framesOf i) :
    ∃ turns b, g.machine? i = some b ∧ Sees c f g i a mv turns b := by
  obtain ⟨s, hs, rfl⟩ := machine?_eq_some_iff.mp ha
  exact sees_of_elsewhere (b := s.inbox) ha (hsim.trans hs) (.refl s) hframes

/-- A deed is done on the simulator `j`. -/
lemma sees_of_done (ha : f.machine? i = some a) {d : Deed K E}
    (hruns : f.runs = (j, .task (.user (.deed d)) :: frames) :: rest)
    (hsim : g.world.sim? i = f.world.sim? i)
    (hframes : g.framesOf i = if i = j then frames else f.framesOf i) :
    ∃ turns b, g.machine? i = some b ∧ Sees c f g i a .step turns b := by
  by_cases hij : i = j
  · subst hij
    obtain ⟨s, hs, rfl⟩ := machine?_eq_some_iff.mp ha
    apply sees_of (hsim.trans hs)
    rw [hframes, if_pos rfl]
    exact .pops hruns (framesOf_cons_self hruns) g.world.memory
  · rw [if_neg hij] at hframes
    exact sees_of_same ha hsim hframes

lemma framesOf_cons {frames' : List (Frame (Job K E) V)} (hruns : f.runs = (j, frames') :: rest)
    (hg : g.runs = (j, frames) :: rest) :
    g.framesOf i = if i = j then frames else f.framesOf i := by
  by_cases hij : i = j
  · rw [if_pos hij, hij]
    exact framesOf_cons_self hg
  · rw [if_neg hij]
    simp [framesOf, hruns, hg, beq_eq_false_iff_ne.mpr hij, List.lookup_cons]

/-- A start on the simulator `j`, which brings it to `t`. -/
lemma Sane.sees_start (hf : f.Sane) (ha : f.machine? i = some a) {r : Nat} {plan : ReadPlan E}
    (hruns : f.runs = (j, .task (.user (.deed (.start r plan))) :: frames) :: rest)
    {s t : Simulator (Job K E)} {answer : Except StartError PUnit} {new : Reader E}
    (hs : f.world.sim? j = some s)
    (hstarts : (f.readers r).StartsOn (.deed (.stop r)) plan s answer new t)
    (hworld : ∃ update, g.world = (f.world.put j t f.world.memory).modifyUser update)
    (hg : g.runs = (j, frames) :: rest)
    (hhooks : answer = .ok () → g.hooks = new.teardown.toList.map (r, ·) ++ f.hooks) :
    ∃ turns b, g.machine? i = some b ∧ Sees c f g i a .step turns b := by
  obtain ⟨update, hworld⟩ := hworld
  have hsame : g.world.sim? i = (f.world.put j t f.world.memory).sim? i := by
    rw [hworld, World.sim?_modifyUser]
  have hframes : g.framesOf i = _ := framesOf_cons hruns hg
  by_cases hij : i = j
  · subst hij
    obtain ⟨s', hs', rfl⟩ := machine?_eq_some_iff.mp ha
    obtain rfl : s' = s := Option.some.inj (hs'.symm.trans hs)
    have hsim := hsame.trans (World.sim?_put (World.of_sim? hs).1 hf.size)
    cases hstarts with
    | refused | kept => exact sees_of_done ha hruns (hsim.trans hs.symm) hframes
    | renewed hidle halive =>
      apply sees_of hsim
      have hidentity : s'.identity = i := (hf.of_machine? ha).2.2.1
      have hhook : (r, i, .destroy s'.sequences.next) ∈ g.hooks := by
        rw [hhooks rfl, ← hidentity]
        exact List.mem_append_left _ List.mem_cons_self
      rw [hframes, if_pos rfl]
      exact .registers hruns (framesOf_cons_self hruns) halive hhook g.world.memory
  · refine sees_of_done ha hruns ?_ hframes
    obtain ⟨s', hs', -⟩ := machine?_eq_some_iff.mp ha
    rw [hsame, World.sim?_put_of_ne hij, hs', Option.map_some, ← (World.of_sim? hs').2]

/-- A step of the simulator `j`. -/
lemma Sane.sees_advance (hf : f.Sane) (ha : f.machine? i = some a)
    {frame : Frame (Job K E) V} (hruns : f.runs = (j, frame :: frames) :: rest)
    (hdeed : frame.deed? = none) {s : Simulator (Job K E)} (hs : f.world.sim? j = some s)
    {b : Machine (Job K E) V}
    (hb : b = Machine.step c.code ⟨s, f.world.memory, frame :: frames, false⟩)
    (hworld : g.world = f.world.put j b.sim b.memory) (hg : g.runs = (j, b.stack) :: rest)
    (hgiven : g.given = (frame.grants s).map (j, ·) ++ f.given) :
    ∃ turns b, g.machine? i = some b ∧ Sees c f g i a .step turns b := by
  obtain ⟨hj, hinbox⟩ := World.of_sim? hs
  have hdelivers : f.world.memory.Delivers b.memory := by
    rw [hb]
    exact Machine.delivers_step c.code ⟨s, f.world.memory, frame :: frames, false⟩
  have hframes := framesOf_cons (i := i) hruns hg
  by_cases hij : i = j
  · subst hij
    obtain ⟨s', hs', rfl⟩ := machine?_eq_some_iff.mp ha
    obtain rfl : s' = s := Option.some.inj (hs'.symm.trans hs)
    have hsim : g.world.sim? i = some b.sim := by
      rw [hworld]
      exact World.sim?_put hj (hdelivers.size.trans hf.size)
    have hstack := framesOf_cons_self hruns
    apply sees_of hsim
    rw [hb, ← hstack] at hg
    rw [hframes, if_pos rfl, hb, ← hstack]
    exact .steps hruns hstack hdeed hg hgiven g.world.memory
  · obtain ⟨s', hs', rfl⟩ := machine?_eq_some_iff.mp ha
    rw [if_neg hij] at hframes
    refine sees_of_elsewhere ha ?_ (hdelivers.course (World.of_sim? hs').2) hframes
    rw [hworld, World.sim?_put_of_ne hij, hs']
    rfl

end

/-- Code is to be carried out on the simulator `j`. -/
lemma sees_of_drive (ha : f.machine? i = some a) (j : Nat) (p : Program (Job K E) V PUnit)
    (hsim : g.world.sim? i = f.world.sim? i) (hdriven : g.driven = f.driven)
    (h : (g.drive j p).framesOf i = g.framesOf i →
      ∃ turns b, (g.drive j p).machine? i = some b ∧ Sees c f (g.drive j p) i a mv turns b) :
    ∃ turns b, (g.drive j p).machine? i = some b ∧ Sees c f (g.drive j p) i a mv turns b := by
  rcases g.drive_cases j p with hsame | ⟨-, hnew, hpushed⟩
  · exact h (congrArg _ hsame)
  · by_cases hij : i = j
    · subst hij
      obtain ⟨s, hs, rfl⟩ := machine?_eq_some_iff.mp ha
      have hframes : (g.drive i p).framesOf i = [.exec p] := by
        rw [hpushed]
        exact framesOf_cons_self rfl
      have hsim' : (g.drive i p).world.sim? i = some s := by
        rw [world_drive]
        exact hsim.trans hs
      apply sees_of hsim'
      rw [hframes]
      rw [hdriven] at hnew
      exact .enters mv p _ (framesOf_eq_nil hnew)
    · refine h ?_
      rw [hpushed]
      simp [framesOf, List.lookup_cons, beq_eq_false_iff_ne.mpr hij]

/-- Each simulator sees a move of its own machine, a deed, or a change of its inbox. -/
lemma Sane.sees (hf : f.Sane) (ho : Outcome c f mv g) (ha : f.machine? i = some a) :
    ∃ turns b, g.machine? i = some b ∧ Sees c f g i a mv turns b := by
  obtain ⟨s, hs, -⟩ := machine?_eq_some_iff.mp ha
  obtain ⟨hi, hinbox⟩ := World.of_sim? hs
  cases ho with
  | idle | calls | reader | forbid => exact sees_of_same ha rfl rfl
  | @finish j rest hruns =>
    refine sees_of_same ha rfl ?_
    by_cases hij : i = j
    · have hnodup := hf.nodup
      rw [driven, hruns, List.map_cons, List.nodup_cons] at hnodup
      subst hij
      rw [framesOf_cons_self hruns]
      exact framesOf_eq_nil hnodup.1
    · simp [framesOf, hruns, List.lookup_cons, beq_eq_false_iff_ne.mpr hij]
  | advance hruns hdeed hs hb => exact hf.sees_advance ha hruns hdeed hs hb rfl rfl rfl
  | starts hruns hs hstarts =>
    refine hf.sees_start ha hruns hs hstarts (world_afterStart ..) (runs_afterStart ..) ?_
    rintro rfl
    exact hooks_afterStart ..
  | look hruns => exact sees_of_done ha hruns rfl (framesOf_cons hruns rfl)
  | returns hruns hn hreturned => exact sees_of_done ha hruns rfl (framesOf_cons hruns rfl)
  | @drive _ j k frames rest hruns =>
    refine sees_of_drive ha j _ rfl (by simp [driven, hruns]) fun hframes => ?_
    refine sees_of_done ha hruns ?_ (hframes.trans (framesOf_cons hruns rfl))
    rw [world_drive]
  | add kind buckets sync => exact sees_of_same ha (World.sim?_add hi hf.size _) rfl
  | enter j update p hruns =>
    refine sees_of_drive ha j _ rfl rfl fun hframes => sees_of_same ha ?_ hframes
    rw [world_drive]
    rfl
  | remote j r =>
    obtain ⟨s', hs', rfl⟩ := machine?_eq_some_iff.mp ha
    refine sees_of_elsewhere ha (World.sim?_askInbox hf.size j r hs') ?_ rfl
    split
    · exact r.course_apply s'
    · exact .refl s'

/-! ### What holds throughout -/

lemma sane_empty (bufferSize : Nat → Nat) (descriptors : String → Descriptor) (user : V) :
    (empty bufferSize descriptors user : Fleet K E V).Sane where
  size := rfl
  timers := by
    constructor
    · intro w d hd
      simp [empty, Memory.watchdog?] at hd
    · intro n d hd
      simp [empty, Memory.trickle?] at hd
  nodup := .nil
  living run hrun := by cases hrun
  healthy i hi := by simp [empty] at hi

lemma Outcome.driven (ho : Outcome c f mv g) :
    g.driven = f.driven ∨ (∃ i, f.driven = i :: g.driven) ∨
      ∃ i, (f.world.sim? i).isSome = true ∧ i ∉ f.driven ∧ g.driven = i :: f.driven := by
  have hdrive : ∀ {j p} {f' : Fleet K E V}, f'.driven = f.driven →
      f'.world.sim? j = f.world.sim? j → (f'.drive j p).driven = f.driven ∨
      ∃ i, (f.world.sim? i).isSome = true ∧ i ∉ f.driven ∧
        (f'.drive j p).driven = i :: f.driven := by
    intro j p f' hdriven hsim
    rcases f'.drive_cases j p with hsame | ⟨hsome, hnew, hpushed⟩
    · rw [hsame]
      exact Or.inl hdriven
    · rw [hsim] at hsome
      rw [hdriven] at hnew
      rw [hpushed, ← hdriven]
      exact Or.inr ⟨j, hsome, hdriven ▸ hnew, rfl⟩
  cases ho with
  | idle | calls | reader | forbid | add | remote => exact Or.inl rfl
  | @finish i rest hruns => exact Or.inr (Or.inl ⟨i, by simp [Fleet.driven, hruns]⟩)
  | starts hruns => exact Or.inl (by simp [Fleet.driven, runs_afterStart, hruns])
  | advance hruns | returns hruns => exact Or.inl (by simp [Fleet.driven, hruns])
  | look hruns => exact Or.inl (by simp [Fleet.driven, tell, hruns])
  | drive hruns => exact Or.imp_right Or.inr (hdrive (by simp [Fleet.driven, hruns]) rfl)
  | enter i update p hruns => exact Or.imp_right Or.inr (hdrive rfl rfl)

/-- What simulators share, and how many there are. -/
lemma Sane.world (hf : f.Sane) (ho : Outcome c f mv g) :
    g.world.memory.inboxes.size = g.world.sims.size ∧ g.world.memory.NamesQueued ∧
      (g.world.sims.size = f.world.sims.size ∨ ∃ kind buckets sync, g = { f with
        world := f.world.add (some (.create f.world.sims.size kind buckets sync)) }) := by
  have hput : ∀ {j s} {m : Memory (Job K E) V}, m.inboxes.size = f.world.sims.size →
      m.NamesQueued → (f.world.put j s m).memory.inboxes.size = (f.world.put j s m).sims.size ∧
        (f.world.put j s m).memory.NamesQueued ∧
        (f.world.put j s m).sims.size = f.world.sims.size := by
    intro j s m hsize hnames
    exact ⟨by simpa [World.put] using hsize, ⟨hnames.watchdog, hnames.trickle⟩,
      by simp [World.put]⟩
  cases ho with
  | idle | calls | finish | returns | reader | forbid => exact ⟨hf.size, hf.timers, Or.inl rfl⟩
  | look => exact ⟨hf.size, ⟨hf.timers.watchdog, hf.timers.trickle⟩, Or.inl rfl⟩
  | drive =>
    rw [world_drive]
    exact ⟨hf.size, hf.timers, Or.inl rfl⟩
  | enter =>
    rw [world_drive]
    exact ⟨hf.size, ⟨hf.timers.watchdog, hf.timers.trickle⟩, Or.inl rfl⟩
  | @advance i frame frames rest s b hruns hdeed hs hb =>
    have hdelivers := Machine.delivers_step c.code ⟨s, f.world.memory, frame :: frames, false⟩
    have hnames := Machine.namesQueued_stepFrame c.code hf.timers frame s frames
    subst hb
    obtain ⟨hsize, htimers, hsame⟩ := hput (hdelivers.size.trans hf.size) hnames
    exact ⟨hsize, htimers, Or.inl hsame⟩
  | starts =>
    obtain ⟨update, hworld⟩ := world_afterStart ..
    rw [hworld]
    obtain ⟨hsize, htimers, hsame⟩ := hput hf.size hf.timers
    exact ⟨hsize, ⟨htimers.watchdog, htimers.trickle⟩, Or.inl hsame⟩
  | add kind buckets sync =>
    exact ⟨by simp [World.add, hf.size], ⟨hf.timers.watchdog, hf.timers.trickle⟩,
      Or.inr ⟨kind, buckets, sync, rfl⟩⟩
  | remote j r =>
    exact ⟨by simp [World.askInbox, hf.size], ⟨hf.timers.watchdog, hf.timers.trickle⟩,
      Or.inl rfl⟩

/-- A simulator that comes to be starts out idle. -/
lemma Sane.idle_add (hf : f.Sane) (kind : QueueKind) (buckets : Nat) (sync : SyncMode)
    (hg : g = { f with
      world := f.world.add (some (.create f.world.sims.size kind buckets sync)) }) :
    g.machine? f.world.sims.size =
      some (.idle f.world.sims.size kind buckets sync g.world.memory) := by
  have hframes : g.framesOf f.world.sims.size = [] := by
    rw [hg]
    exact framesOf_eq_nil fun hmem => Nat.lt_irrefl _ (hf.living _ hmem)
  refine machine?_eq_some_iff.mpr ⟨.create f.world.sims.size kind buckets sync, ?_, ?_⟩
  · rw [hg]
    exact World.sim?_add_self hf.size _
  · rw [hframes]
    rfl

/-- A simulator sees the move, or it has just come to be. -/
lemma Sane.sees_or_new (hf : f.Sane) (ho : Outcome c f mv g) (hi : i < g.world.sims.size) :
    (∃ a turns b, f.machine? i = some a ∧ g.machine? i = some b ∧ Sees c f g i a mv turns b) ∨
      ∃ kind buckets sync, g.machine? i = some (.idle i kind buckets sync g.world.memory) := by
  by_cases hold : i < f.world.sims.size
  · obtain ⟨a, ha, -⟩ := hf.healthy i hold
    obtain ⟨turns, b, hb, hsees⟩ := hf.sees ho ha
    exact Or.inl ⟨a, turns, b, ha, hb, hsees⟩
  · rcases (hf.world ho).2.2 with hsame | ⟨kind, buckets, sync, hg⟩
    · exact absurd (hsame ▸ hi) hold
    · obtain rfl : i = f.world.sims.size := by
        rw [hg] at hi
        simp only [World.add, Array.size_push] at hi
        omega
      exact Or.inr ⟨kind, buckets, sync, hf.idle_add kind buckets sync hg⟩

lemma Sane.outcome (hf : f.Sane) (ho : Outcome c f mv g) : g.Sane := by
  obtain ⟨hsize, htimers, hsims⟩ := hf.world ho
  have hdriven : g.driven.Nodup ∧ ∀ i ∈ g.driven, i < f.world.sims.size := by
    rcases ho.driven with hsame | ⟨i, hpopped⟩ | ⟨i, hsome, hnew, hpushed⟩
    · rw [hsame]
      exact ⟨hf.nodup, hf.living⟩
    · have hnodup := hf.nodup
      have hliving := hf.living
      rw [hpopped] at hnodup hliving
      exact ⟨(List.nodup_cons.mp hnodup).2, fun j hj => hliving j (List.mem_cons_of_mem i hj)⟩
    · rw [hpushed]
      obtain ⟨s, hs⟩ := Option.isSome_iff_exists.mp hsome
      refine ⟨List.nodup_cons.mpr ⟨hnew, hf.nodup⟩, ?_⟩
      intro j hj
      rcases List.mem_cons.mp hj with rfl | hj
      · exact (World.of_sim? hs).1
      · exact hf.living j hj
  have hle : f.world.sims.size ≤ g.world.sims.size := by
    rcases hsims with hsame | ⟨kind, buckets, sync, rfl⟩
    · exact hsame.ge
    · simp [World.add]
  refine ⟨hsize, htimers, hdriven.1, fun i hi => Nat.lt_of_lt_of_le (hdriven.2 i hi) hle, ?_⟩
  intro i hi
  rcases hf.sees_or_new ho hi with ⟨a, turns, b, ha, hb, hsees⟩ | ⟨kind, buckets, sync, hb⟩
  · obtain ⟨hhealthy, hbroken, hidentity, -⟩ := hf.of_machine? ha
    obtain ⟨hhealthy', -, hsame⟩ := hsees.follows hhealthy hbroken
    exact ⟨b, hb, hsame.trans hidentity, hhealthy'⟩
  · exact ⟨_, hb, rfl, Machine.healthy_idle ..⟩

lemma Sane.move (hf : f.Sane) (c : FleetCode K E V) (mv : Move K E V) : (f.move c mv).Sane :=
  hf.outcome (f.outcome_move c mv)

lemma Sane.play (hf : f.Sane) (c : FleetCode K E V) (moves : List (Move K E V)) :
    (f.play c moves).Sane := by
  induction moves generalizing f with
  | nil => exact hf
  | cons mv moves ih => exact ih (hf.move c mv)

/-- A call to tear a simulator down, however much else happens, ends only by tearing it down. -/
lemma Sane.underWay_play (hf : f.Sane) (c : FleetCode K E V) (moves : List (Move K E V))
    {base : List (Frame (Job K E) V)} (ha : f.machine? i = some a)
    (hu : a.UnderWay base ∨ a.sim.phase = .destroyed) :
    ∃ b, (f.play c moves).machine? i = some b ∧ (b.UnderWay base ∨ b.sim.phase = .destroyed) := by
  induction moves generalizing f a with
  | nil => exact ⟨a, ha, hu⟩
  | cons mv moves ih =>
    obtain ⟨turns, b, hb, hsees⟩ := hf.sees (f.outcome_move c mv) ha
    exact ih (hf.move c mv) hb (hsees.underWay (hf.of_machine? ha).1 hu)

/-- The simulator whose run is on top makes a step. -/
lemma step_of_runs {frame : Frame (Job K E) V} {frames : List (Frame (Job K E) V)}
    {rest : List (Nat × List (Frame (Job K E) V))} {s : Simulator (Job K E)}
    (hruns : f.runs = (i, frame :: frames) :: rest) (hdeed : frame.deed? = none)
    (hs : f.world.sim? i = some s) : f.step c = f.advance c i s frame frames rest := by
  rw [step, hruns]
  dsimp only
  rw [hs, hdeed]

lemma Sane.machine_of_runs (hf : f.Sane) {frames : List (Frame (Job K E) V)}
    {rest : List (Nat × List (Frame (Job K E) V))} (hruns : f.runs = (i, frames) :: rest) :
    ∃ s, f.world.sim? i = some s ∧
      f.machine? i = some ⟨s, f.world.memory, frames, false⟩ := by
  have hmem : i ∈ f.driven := by simp [driven, hruns]
  obtain ⟨a, ha, -⟩ := hf.healthy i (hf.living i hmem)
  obtain ⟨s, hs, rfl⟩ := machine?_eq_some_iff.mp ha
  rw [framesOf_cons_self hruns] at ha
  exact ⟨s, hs, ha⟩

/-- A call to tear a simulator down is refused, or it is under way and ends only by tearing the
simulator down. -/
lemma Sane.destroy_cases (hf : f.Sane) (c : FleetCode K E V)
    {next : Except SimError PUnit → Program (Job K E) V PUnit} {frames : List (Frame (Job K E) V)}
    {rest : List (Nat × List (Frame (Job K E) V))}
    (hruns : f.runs = (i, .exec (.destroy next) :: frames) :: rest) :
    (∃ e, (f.step c).runs = (i, .exec (next (.error e)) :: frames) :: rest) ∨
      (f.step c).runs = (i, .teardown :: .exec (next (.ok ())) :: frames) :: rest ∧
      ∀ more, ((f.step c).play c more).runs = (i, .exec (next (.ok ())) :: frames) :: rest →
        ∃ a, ((f.step c).play c more).machine? i = some a ∧ a.sim.phase = .destroyed := by
  obtain ⟨s, hs, -⟩ := hf.machine_of_runs hruns
  have hstep : (f.step c).runs = (i, (Machine.step c.code ⟨s, f.world.memory,
      .exec (.destroy next) :: frames, false⟩).stack) :: rest := by
    rw [step_of_runs hruns rfl hs]
    rfl
  rcases Machine.step_destroy c.code (a := ⟨s, f.world.memory, _, false⟩) rfl with
    ⟨e, hrefused⟩ | hcall
  · rw [hrefused] at hstep
    exact Or.inl ⟨e, hstep⟩
  · rw [hcall] at hstep
    refine Or.inr ⟨hstep, fun more hreturn => ?_⟩
    have hsane : (f.step c).Sane := hf.move c .step
    obtain ⟨t, -, hmachine⟩ := hsane.machine_of_runs hstep
    have hu : Machine.UnderWay (.exec (next (.ok ())) :: frames) ⟨t, (f.step c).world.memory,
        .teardown :: .exec (next (.ok ())) :: frames, false⟩ := ⟨[], .teardown, rfl, Or.inl rfl⟩
    obtain ⟨b, hb, hend⟩ := hsane.underWay_play c more hmachine (Or.inl hu)
    obtain ⟨u, -, hb'⟩ := (hsane.play c more).machine_of_runs hreturn
    obtain rfl := Option.some.inj (hb.symm.trans hb')
    exact ⟨_, hb, hend.resolve_left (Machine.not_underWay_self rfl)⟩

end Fleet

end EventKernel
