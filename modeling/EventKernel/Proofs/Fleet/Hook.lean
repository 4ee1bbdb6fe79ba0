import EventKernel.Proofs.Fleet.Waiting

/-!
# Readers are stopped at teardown

A reader that is started on a simulator registers its stop there, unless the stop of an earlier
start still waits there. So as long as a reader runs, its stop waits on the simulator that it was
started on last, or is just being made: starts elsewhere, starts from teardown events and earlier
teardowns change nothing about that. All that is needed is that programs cancel and remove teardown
events with their own handles only. And a simulator is not torn down before nothing waits for it.
-/

namespace EventKernel

open Simulator (Passage issueTurns)

/-! ### Pending teardown events -/

/-- Taking the next teardown event out leaves what is pending, or takes just that. -/
lemma TeardownList.popLive_cases {α : Type} {l : TeardownList α} {ev : TeardownEvent α}
    (hmem : ev ∈ l) (hlive : ev.cancelled = false) : l.popLive.1 = some ev ∨ ev ∈ l.popLive.2 := by
  obtain ⟨rest, hl, hrest, -⟩ := l.popLive_eq
  rw [hl, List.append_assoc] at hmem
  rcases List.mem_append.mp hmem with hskipped | hmem
  · have hcancelled := List.mem_takeWhile_imp hskipped
    rw [hlive] at hcancelled
    cases hcancelled
  · rcases List.mem_append.mp hmem with hpopped | hleft
    · exact Or.inl (Option.mem_toList.mp hpopped)
    · exact Or.inr (hrest ▸ hleft)

section

variable {K U : Type} {s : Simulator K} {n : Nat} {task : Task K}

namespace Simulator

lemma isDestroy_of_pending (hpending : s.isExpired (.destroy n) = false) :
    (EventId.destroy n).isDestroy = true := by
  rw [isExpired, Bool.or_eq_false_iff] at hpending
  have hpos : ¬n = 0 := of_decide_eq_false hpending.1
  simpa [EventId.isDestroy] using hpos

/-- A teardown event that is pending is on the list, and is not cancelled. -/
lemma Sound.mem_teardown (h : s.Sound) (howns : s.Owns (.destroy n) task)
    (hpending : s.isExpired (.destroy n) = false) : ⟨n, task, false⟩ ∈ s.teardown := by
  rw [h.isExpired_eq, Bool.not_eq_false', Option.any_eq_true] at hpending
  obtain ⟨ev, hev, hlive⟩ := hpending
  obtain ⟨⟨sequence, task', cancelled⟩, hget, rfl⟩ := Option.map_eq_some_iff.mp hev
  obtain ⟨hmem, rfl⟩ := TeardownList.mem_of_get? hget
  obtain rfl : task' = task := howns.2 _ hev
  obtain rfl : cancelled = false := (Bool.not_eq_true' _).mp hlive
  exact hmem

lemma Sound.isExpired_of_mem (h : s.Sound) (hmem : ⟨n, task, false⟩ ∈ s.teardown) :
    s.isExpired (.destroy n) = false := by
  have hget := TeardownList.get?_eq_of_mem h.nodup hmem
  rw [h.isExpired_eq, find?, hget]
  rfl

lemma of_mem_issueTurns {r : Except SimError EventId × Simulator K} {x : Turn K}
    (hx : x ∈ issueTurns r) : x.fate = .issued := by
  obtain ⟨e | id, t⟩ := r
  · cases hx
  · exact (of_mem_turn hx).2

end Simulator

namespace Machine

variable {a : Machine K U}

/-- A teardown event stays pending, unless a program withdraws it by its handle or it starts. -/
lemma Healthy.pending_step (code : Code K U) (h : a.Healthy) (hb : a.broken = false)
    (hm : a.memory.NamesQueued) {frame : Frame K U} {frames : List (Frame K U)}
    (hstack : a.stack = frame :: frames) (howns : a.sim.Owns (.destroy n) task)
    (hpending : a.sim.isExpired (.destroy n) = false)
    (hcancel : ∀ id next, frame = .exec (.ask (.sim (.cancel id)) next) → id ≠ .destroy n)
    (hremove : ∀ id next, frame = .exec (.ask (.sim (.remove id)) next) → id ≠ .destroy n) :
    (step code a).sim.isExpired (.destroy n) = false ∨
      (step code a).stack = .task task :: .teardown :: frames := by
  obtain ⟨-, hpassage⟩ := h.move code .step hb
  obtain ⟨s, m, stack, broken⟩ := a
  obtain rfl : stack = frame :: frames := hstack
  rw [turns_step, Machine.move] at hpassage
  have hkept : turnsOf (.destroy n) (frame.turns s m) = [] →
      (step code ⟨s, m, frame :: frames, broken⟩).sim.isExpired (.destroy n) = false := by
    intro hnone
    rw [hpassage.sound.isExpired_eq, hpassage.kept _ hnone, ← h.sound.isExpired_eq]
    exact hpending
  have hother : ∀ id, id ≠ .destroy n → Confined (fun _ => False) (· = id) (frame.turns s m) →
      turnsOf (.destroy n) (frame.turns s m) = [] := by
    intro id hne hconfined
    rw [turnsOf, List.filter_eq_nil_iff]
    intro x hx heq
    rcases hconfined x hx with ⟨-, hnot⟩ | ⟨-, hid⟩
    · exact hnot
    · exact hne (hid.symm.trans (of_decide_eq_true heq))
  by_cases hreaches : frame.ReachesTeardown
  · rcases hreaches.cases with
      ⟨k, next, rfl⟩ | ⟨id, next, rfl⟩ | ⟨id, next, rfl⟩ | rfl | rfl
    · refine Or.inl ((hpassage.isExpired_eq h.sound howns.1 ?_).trans hpending)
      exact fun x hx _ => Simulator.of_mem_issueTurns hx
    · exact Or.inl (hkept (hother id (hcancel id next rfl) (s.confined_cancelTurns id)))
    · exact Or.inl (hkept (hother id (hremove id next rfl) (s.confined_removeTurns id)))
    · have hwaits := h.sound.mem_teardown howns hpending
      rcases TeardownList.popLive_cases hwaits rfl with hpopped | hleft
      · right
        rw [step, stepFrame, nextTeardown]
        dsimp only
        rw [hpopped]
      · left
        have hteardown : (step code ⟨s, m, .teardown :: frames, broken⟩).sim.teardown =
            s.teardown.popLive.2 := by
          rw [step, stepFrame, nextTeardown]
          dsimp only
          split <;> rfl
        rw [← hteardown] at hleft
        exact hpassage.sound.isExpired_of_mem hleft
    · have hnil : s.teardown = [] := h.closing.destroyed (h.closing.clear rfl)
      have hmem := h.sound.mem_teardown howns hpending
      rw [hnil] at hmem
      cases hmem
  · exact Or.inl (hkept ((Frame.apart_turns h.sound hm hreaches).turnsOf_eq_nil n))

end Machine

end

namespace Fleet

variable {K E V : Type} {c : FleetCode K E V} {f g : Fleet K E V} {mv : Move K E V} {i r n : Nat}
  {a b : Machine (Job K E) V} {turns : List (Turn (Job K E))}

/-! ### The stop that waits -/

/-- Teardown of the simulator `i` is at stopping the reader `r`. -/
def StopsAtTeardown (r i : Nat) (f : Fleet K E V) : Prop :=
  ∃ frames rest, f.runs = (i, .task (.user (.deed (.stop r))) :: .teardown :: frames) :: rest

/-- A stop that waits for teardown goes on to wait, or teardown comes to it. -/
lemma Sees.pending (h : Sees c f g i a mv turns b) (ha : a.Healthy) (hb : a.broken = false)
    (hm : a.memory.NamesQueued) (howns : a.sim.Owns (.destroy n) (.user (.deed (.stop r))))
    (hgiven : (i, .destroy n) ∉ f.given) (hown : f.OwnHandles mv)
    (hpending : a.sim.isExpired (.destroy n) = false) :
    b.sim.isExpired (.destroy n) = false ∨ g.StopsAtTeardown r i := by
  obtain ⟨-, hpassage, -⟩ := h.follows ha hb
  cases h with
  | hears | enters | pops =>
    exact Or.inl ((hpassage.isExpired_eq ha.sound howns.1 (by simp)).trans hpending)
  | registers =>
    refine Or.inl ((hpassage.isExpired_eq ha.sound howns.1 ?_).trans hpending)
    exact fun x hx _ => Simulator.of_mem_issueTurns hx
  | @steps frame frames rest hruns hstack hdeed hg m =>
    have hwithdraws : ∀ id, f.withdraws? = (if id.isDestroy then some (i, id) else none) →
        id ≠ .destroy n := by
      rintro id hid rfl
      rw [if_pos (Simulator.isDestroy_of_pending hpending)] at hid
      rw [OwnHandles, hid, Option.all_some, decide_eq_true_iff] at hown
      exact hgiven hown
    have hcancel : ∀ id next, frame = .exec (.ask (.sim (.cancel id)) next) → id ≠ .destroy n := by
      rintro id next rfl
      exact hwithdraws id (by rw [withdraws?, hruns])
    have hremove : ∀ id next, frame = .exec (.ask (.sim (.remove id)) next) → id ≠ .destroy n := by
      rintro id next rfl
      exact hwithdraws id (by rw [withdraws?, hruns])
    rcases ha.pending_step c.code hb hm hstack howns hpending hcancel hremove with hkept | hstarted
    · exact Or.inl hkept
    · rw [hstarted] at hg
      exact Or.inr ⟨_, _, hg⟩

/-- While the thread waits for a call of `stop`, no run goes on. -/
lemma Outcome.of_stopping (ho : Outcome c f mv g) (hstopping : f.stopping? = some r) :
    g.runs = f.runs ∨ g.readers = f.readers ∧
      ∃ n, f.call? r = some n ∧ (f.readers r).stops[n]? = some .returned := by
  have hnot : ¬f.stopping? = none := by
    rw [hstopping]
    exact Option.some_ne_none r
  cases ho with
  | idle | add | remote | forbid | calls | reader => exact Or.inl rfl
  | finish hruns | enter _ _ _ hruns => exact absurd (by rw [stopping?, hruns]) hnot
  | advance hruns hdeed => exact absurd (stopping?_of_deed hruns (by simp [hdeed])) hnot
  | starts hruns | look hruns | drive hruns =>
    exact absurd (stopping?_of_deed hruns (by simp [Frame.deed?])) hnot
  | returns hruns hn hreturned =>
    obtain rfl := Option.some.inj ((stopping?_of_stop hruns).symm.trans hstopping)
    refine Or.inr ⟨rfl, _, ?_, hreturned⟩
    rw [call?, if_pos hstopping, hn]

lemma Attends.stopsAtTeardown (ha : f.Attends) (ho : Outcome c f mv g)
    (h : f.StopsAtTeardown r i) (hrunning : (g.readers r).state = .running) :
    g.StopsAtTeardown r i := by
  obtain ⟨frames, rest, hruns⟩ := h
  rcases ho.of_stopping (stopping?_of_stop hruns) with hsame | ⟨hreaders, n, hcall, hreturned⟩
  · exact ⟨frames, rest, hsame.trans hruns⟩
  · have hidle := (ha.sole r).settled n hcall hreturned
    rw [hreaders, hidle] at hrunning
    cases hrunning

/-! ### What becomes of readers -/

/-- A reader is started successfully, or a move leaves its teardown event as it is. -/
inductive Fares (c : FleetCode K E V) (f g : Fleet K E V) (r : Nat) : Prop where
  | kept (hteardown : (g.readers r).teardown = (f.readers r).teardown)
      (hon : g.startedOn r = f.startedOn r)
      (hstate : (g.readers r).state = .running → (f.readers r).state = .running)
  | started {i : Nat} {plan : ReadPlan E} {s t : Simulator (Job K E)} {new : Reader E}
      (hs : f.world.sim? i = some s)
      (hstarts : (f.readers r).StartsOn (.deed (.stop r)) plan s (.ok ()) new t)
      (hworld : ∃ update, g.world = (f.world.put i t f.world.memory).modifyUser update)
      (hgiven : g.given = f.given)
      (hteardown : (g.readers r).teardown = new.teardown)
      (hon : (g.readers r).state = .running → g.startedOn r = some i)

lemma Attends.fares (ha : f.Attends) (ho : Outcome c f mv g) (r : Nat) : Fares c f g r := by
  have hsame : g.readers = f.readers → g.startedOn = f.startedOn → Fares c f g r := by
    intro hreaders hon
    exact .kept (by rw [hreaders]) (by rw [hon]) (by rw [hreaders]; exact id)
  cases ho with
  | idle | finish | advance | add | remote | forbid | returns | look => exact hsame rfl rfl
  | drive | enter =>
    rw [drive_unchanged] at hsame ⊢
    exact hsame rfl rfl
  | @calls i q frames rest hruns hnone =>
    by_cases hrq : r = q
    · subst hrq
      refine .kept ?_ rfl ?_
      · simp [setReader, Reader.callStop]
      · simp [setReader, Reader.callStop]
    · refine .kept ?_ rfl ?_
      · simp [setReader, hrq]
      · simp [setReader, hrq]
  | @reader q x b hcall hx =>
    by_cases hrq : r = q
    · subst hrq
      obtain ⟨-, hteardown, hrunning, -⟩ := (ha.sole r).outcome rfl hcall hx
      refine .kept ?_ rfl ?_
      · simpa [setReader] using hteardown
      · simpa [setReader] using hrunning
    · refine .kept ?_ rfl ?_
      · simp [setReader, hrq]
      · simp [setReader, hrq]
  | @starts i q plan frames rest s t answer new hruns hs hstarts =>
    obtain ⟨-, hgiven, hcases⟩ := afterStart_cases c q i new
      { f with world := f.world.put i t f.world.memory, runs := (i, frames) :: rest } answer
    rcases hcases with ⟨e, rfl, hreaders, hon⟩ | ⟨rfl, hcases⟩
    · exact hsame hreaders hon
    · by_cases hrq : r = q
      · subst hrq
        refine .started hs hstarts (world_afterStart ..) hgiven ?_ ?_
        · rcases hcases with ⟨hreaders, -⟩ | ⟨hreaders, -⟩
          · rw [hreaders, Function.update_self]
            rfl
          · rw [hreaders, Function.update_self]
        · rcases hcases with ⟨hreaders, -⟩ | ⟨-, hon⟩
          · -- no thread could be made, so the reader is idle as before
            rw [hreaders, Function.update_self]
            intro hrunning
            have hbefore : (f.readers r).state = .running := hrunning
            cases hstarts with
            | kept hidle | renewed hidle =>
              rw [hidle] at hbefore
              cases hbefore
          · intro _
            rw [hon, Function.update_self]
      · rcases hcases with ⟨hreaders, hon⟩ | ⟨hreaders, hon⟩
        · refine .kept ?_ (congrFun hon r) ?_
          · rw [hreaders, Function.update_of_ne hrq]
          · rw [hreaders, Function.update_of_ne hrq]
            exact id
        · refine .kept ?_ ?_ ?_
          · rw [hreaders, Function.update_of_ne hrq]
          · rw [hon, Function.update_of_ne hrq]
          · rw [hreaders, Function.update_of_ne hrq]
            exact id

/-! ### What holds throughout -/

/-- Teardown events of readers are their own, and the one of a reader that runs is still to come, on
the simulator that the reader was started on last. -/
structure Hooked (f : Fleet K E V) : Prop where
  given : ∀ i id, (i, id) ∈ f.given →
    ∃ a, f.machine? i = some a ∧ id.sequence < a.sim.sequences.next
  named : ∀ r i id, (f.readers r).teardown = some (i, id) → (i, id) ∉ f.given ∧
    ∃ a n, f.machine? i = some a ∧ id = .destroy n ∧ a.sim.Owns id (.user (.deed (.stop r)))
  secured : ∀ r, (f.readers r).state = .running → ∃ i id a, f.startedOn r = some i ∧
    (f.readers r).teardown = some (i, id) ∧ f.machine? i = some a ∧
    (a.sim.isExpired id = false ∨ f.StopsAtTeardown r i)

lemma hooked_empty (bufferSize : Nat → Nat) (descriptors : String → Descriptor) (user : V) :
    (empty bufferSize descriptors user : Fleet K E V).Hooked where
  given i id h := by cases h
  named r i id h := by cases h
  secured r h := by cases h

/-- What a step gives out is new. -/
lemma of_mem_grants {s : Simulator (Job K E)} {frame : Frame (Job K E) V} {id : EventId}
    (h : id ∈ frame.grants s) (code : Code (Job K E) V) (m : Memory (Job K E) V)
    (frames : List (Frame (Job K E) V)) :
    id.sequence = s.sequences.next ∧
      id.sequence < (Machine.stepFrame code frame s m frames).sim.sequences.next := by
  unfold Frame.grants at h
  split at h
  · next k next =>
    show id.sequence = s.sequences.next ∧
      id.sequence < (s.scheduleDestroy (.user k)).2.sequences.next
    rw [Simulator.scheduleDestroy] at h ⊢
    split at h
    · cases h
    · next halive =>
      rw [if_neg halive]
      obtain rfl := List.mem_singleton.mp h
      exact ⟨rfl, Nat.lt_succ_self _⟩
  · cases h

lemma Sane.given_cases (hf : f.Sane) (ho : Outcome c f mv g) {id : EventId}
    (h : (i, id) ∈ g.given) : (i, id) ∈ f.given ∨
      ∃ a b, f.machine? i = some a ∧ g.machine? i = some b ∧
        id.sequence = a.sim.sequences.next ∧ id.sequence < b.sim.sequences.next := by
  cases ho with
  | starts =>
    rw [(afterStart_cases ..).2.1] at h
    exact Or.inl h
  | drive | enter =>
    rw [drive_unchanged] at h
    exact Or.inl h
  | idle | finish | calls | returns | reader | add | remote | forbid | look => exact Or.inl h
  | @advance j frame frames rest s b hruns hdeed hs hb =>
    rcases List.mem_append.mp h with h | h
    · right
      obtain ⟨id', hgrants, heq⟩ := List.mem_map.mp h
      obtain ⟨rfl, rfl⟩ := Prod.mk.inj heq
      obtain ⟨hsequence, hlt⟩ := of_mem_grants hgrants c.code f.world.memory frames
      have hdelivers := Machine.delivers_step c.code ⟨s, f.world.memory, frame :: frames, false⟩
      rw [← hb] at hdelivers
      have hsim := World.sim?_put (s := b.sim) (World.of_sim? hs).1
        (hdelivers.size.trans hf.size)
      refine ⟨_, _, machine?_eq_some_iff.mpr ⟨s, hs, rfl⟩,
        machine?_eq_some_iff.mpr ⟨b.sim, hsim, rfl⟩, hsequence, ?_⟩
      subst hb
      exact hlt
    · exact Or.inl h

/-- The machine of a simulator that was put back. -/
lemma Sane.machine?_put (hf : f.Sane) {s t : Simulator (Job K E)} (hs : f.world.sim? i = some s)
    (hworld : ∃ update, g.world = (f.world.put i t f.world.memory).modifyUser update) :
    g.machine? i = some ⟨t, g.world.memory, g.framesOf i, false⟩ := by
  obtain ⟨update, hworld⟩ := hworld
  refine machine?_eq_some_iff.mpr ⟨t, ?_, rfl⟩
  rw [hworld, World.sim?_modifyUser]
  exact World.sim?_put (World.of_sim? hs).1 hf.size

/-- A reader that was started has a teardown event of its own, which is pending. -/
lemma Hooked.started (hh : f.Hooked) (hf : f.Sane) {plan : ReadPlan E}
    {s t : Simulator (Job K E)} {new : Reader E} (hs : f.world.sim? i = some s)
    (hstarts : (f.readers r).StartsOn (.deed (.stop r)) plan s (.ok ()) new t) :
    ∃ n, new.teardown = some (i, .destroy n) ∧ (i, .destroy n) ∉ f.given ∧
      t.Owns (.destroy n) (.user (.deed (.stop r))) ∧ t.isExpired (.destroy n) = false := by
  have ha := machine?_eq_some_iff.mpr ⟨s, hs, rfl⟩
  obtain ⟨hhealthy, -, hidentity, -⟩ := hf.of_machine? ha
  have hsound : s.Sound := hhealthy.sound
  have hidentity : s.identity = i := hidentity
  cases hstarts with
  | kept hidle hteardown hpending =>
    rw [hidentity] at hteardown
    obtain ⟨hgiven, a, n, ha', rfl, howns⟩ := hh.named r i _ hteardown
    obtain rfl := Option.some.inj (ha'.symm.trans ha)
    exact ⟨n, hteardown, hgiven, howns, hpending⟩
  | renewed hidle halive =>
    have hregister := Simulator.EventChange.register s (Job.deed (.stop r)) halive
    have hsound' := (hsound.passage (.single (.events hregister))).sound
    obtain ⟨-, hfind⟩ := hsound.find?_register (.user (Job.deed (.stop r))) halive
    have hfound := (hfind _).trans (if_pos rfl)
    refine ⟨s.sequences.next, by rw [← hidentity]; rfl, ?_, ?_, ?_⟩
    · intro hmem
      obtain ⟨a, ha', hlt⟩ := hh.given i _ hmem
      obtain rfl := Option.some.inj (ha'.symm.trans ha)
      exact Nat.lt_irrefl _ hlt
    · exact .of_find? (hsound'.lt_next _ _ hfound).2 hfound
    · rw [hsound'.isExpired_eq, hfound]
      rfl

lemma Hooked.outcome (hh : f.Hooked) (hf : f.Sane) (ha : f.Attends) (ho : Outcome c f mv g)
    (hown : f.OwnHandles mv) : g.Hooked where
  given i id hid := by
    rcases hf.given_cases ho hid with hold | ⟨a, b, -, hb, -, hlt⟩
    · obtain ⟨a, hmachine, hlt⟩ := hh.given i id hold
      obtain ⟨hhealthy, hbroken, -⟩ := hf.of_machine? hmachine
      obtain ⟨turns, b, hb, hsees⟩ := hf.sees ho hmachine
      obtain ⟨-, hpassage, -⟩ := hsees.follows hhealthy hbroken
      exact ⟨b, hb, Nat.lt_of_lt_of_le hlt hpassage.next_le⟩
    · exact ⟨b, hb, hlt⟩
  named r i id hid := by
    cases ha.fares ho r with
    | kept hteardown hon hstate =>
      rw [hteardown] at hid
      obtain ⟨hgiven, a, n, hmachine, rfl, howns⟩ := hh.named r i id hid
      obtain ⟨hhealthy, hbroken, -⟩ := hf.of_machine? hmachine
      obtain ⟨turns, b, hb, hsees⟩ := hf.sees ho hmachine
      obtain ⟨-, hpassage, -⟩ := hsees.follows hhealthy hbroken
      refine ⟨fun hmem => ?_, b, n, hb, rfl, howns.passage hpassage⟩
      rcases hf.given_cases ho hmem with hold | ⟨a', b', ha', -, hnew, -⟩
      · exact hgiven hold
      · obtain rfl := Option.some.inj (hmachine.symm.trans ha')
        exact Nat.ne_of_lt howns.1 hnew
    | started hs hstarts hworld hgiven hteardown hon =>
      obtain ⟨n, hnew, hnot, howns, -⟩ := hh.started hf hs hstarts
      rw [hteardown, hnew] at hid
      obtain ⟨rfl, rfl⟩ := Prod.mk.inj (Option.some.inj hid)
      rw [← hgiven] at hnot
      exact ⟨hnot, _, n, hf.machine?_put hs hworld, rfl, howns⟩
  secured r hrunning := by
    cases ha.fares ho r with
    | kept hteardown hon hstate =>
      rw [hteardown, hon]
      obtain ⟨i, id, a, hstarted, hid, hmachine, hpending⟩ := hh.secured r (hstate hrunning)
      obtain ⟨hgiven, a', n, hmachine', rfl, howns⟩ := hh.named r i id hid
      obtain rfl := Option.some.inj (hmachine.symm.trans hmachine')
      obtain ⟨hhealthy, hbroken, -, hnames, -⟩ := hf.of_machine? hmachine
      obtain ⟨turns, b, hb, hsees⟩ := hf.sees ho hmachine
      refine ⟨i, _, b, hstarted, hid, hb, ?_⟩
      rcases hpending with hpending | hwork
      · exact hsees.pending hhealthy hbroken hnames howns hgiven hown hpending
      · exact Or.inr (ha.stopsAtTeardown ho hwork hrunning)
    | @started i _ _ _ _ hs hstarts hworld hgiven hteardown hon =>
      obtain ⟨n, hnew, -, -, hpending⟩ := hh.started hf hs hstarts
      rw [hnew] at hteardown
      exact ⟨i, _, _, hon hrunning, hteardown, hf.machine?_put hs hworld, Or.inl hpending⟩

/-- What holds of a fleet whose programs withdraw teardown events with their own handles only. -/
structure Secure (f : Fleet K E V) : Prop where
  sane : f.Sane
  attends : f.Attends
  hooked : f.Hooked

lemma secure_empty (bufferSize : Nat → Nat) (descriptors : String → Descriptor) (user : V) :
    (empty bufferSize descriptors user : Fleet K E V).Secure :=
  ⟨sane_empty .., attends_empty .., hooked_empty ..⟩

lemma Secure.move (h : f.Secure) (c : FleetCode K E V) (hown : f.OwnHandles mv) :
    (f.move c mv).Secure where
  sane := h.sane.move c mv
  attends := h.attends.outcome (f.outcome_move c mv)
  hooked := h.hooked.outcome h.sane h.attends (f.outcome_move c mv) hown

lemma Secure.play (h : f.Secure) (c : FleetCode K E V) (moves : List (Move K E V))
    (hown : Along c OwnHandles moves f) : (f.play c moves).Secure := by
  induction moves generalizing f with
  | nil => exact h
  | cons mv moves ih => exact ih (h.move c hown.1) hown.2

lemma Secure.secured (h : f.Secure) (hrunning : (f.readers r).state = .running) :
    ∃ i s n, f.startedOn r = some i ∧ f.world.sim? i = some s ∧
      (f.readers r).teardown = some (i, .destroy n) ∧
      (⟨n, .user (.deed (.stop r)), false⟩ ∈ s.teardown ∨ f.StopsAtTeardown r i) := by
  obtain ⟨i, id, a, hon, hid, ha, hpending⟩ := h.hooked.secured r hrunning
  obtain ⟨-, a', n, ha', rfl, howns⟩ := h.hooked.named r i id hid
  obtain rfl := Option.some.inj (ha.symm.trans ha')
  obtain ⟨hhealthy, -⟩ := h.sane.of_machine? ha
  obtain ⟨s, hs, rfl⟩ := machine?_eq_some_iff.mp ha
  exact ⟨i, s, n, hon, hs, hid, hpending.imp_left (hhealthy.sound.mem_teardown howns)⟩

/-- Once a simulator is torn down, readers that were started on it last are idle. -/
lemma Secure.idle_of_destroyed (h : f.Secure) (hstopping : f.stopping? = none)
    (ha : f.machine? i = some a) (hphase : a.sim.phase = .destroyed)
    (hon : f.startedOn r = some i) :
    (f.readers r).state = .idle ∧ (f.readers r).thread = none := by
  have hsole := h.attends.sole_none (h.attends.awaits hstopping) r
  cases hstate : (f.readers r).state with
  | idle => exact ⟨rfl, hsole.parted hstate⟩
  | stopping => exact absurd hstate hsole.state_ne_stopping
  | running =>
    obtain ⟨j, s, n, hon', hs, -, hpending⟩ := h.secured hstate
    obtain rfl := Option.some.inj (hon.symm.trans hon')
    obtain ⟨hhealthy, -⟩ := h.sane.of_machine? ha
    obtain ⟨s', hs', rfl⟩ := machine?_eq_some_iff.mp ha
    obtain rfl := Option.some.inj (hs.symm.trans hs')
    rcases hpending with hmem | ⟨frames, rest, hruns⟩
    · rw [hhealthy.closing.destroyed hphase] at hmem
      cases hmem
    · cases hstopping.symm.trans (stopping?_of_stop hruns)

/-- The stop of a reader that runs waits for the teardown of the simulator that the reader was
started on last, or teardown is just at it. So when a call to tear a simulator down comes back
without an error, each reader that was started there last is idle, and its thread has ended. -/
theorem teardown_stops_readers (c : FleetCode K E V) (bufferSize : Nat → Nat)
    (descriptors : String → Descriptor) (user : V) (moves : List (Move K E V))
    (hown : Along c OwnHandles moves (empty bufferSize descriptors user)) :
    let f := play c moves (empty bufferSize descriptors user)
    (∀ r, (f.readers r).state = .running → ∃ i s n, f.startedOn r = some i ∧
      f.world.sim? i = some s ∧ (f.readers r).teardown = some (i, .destroy n) ∧
      (⟨n, .user (.deed (.stop r)), false⟩ ∈ s.teardown ∨ f.StopsAtTeardown r i)) ∧
    ∀ i next frames rest, f.runs = (i, .exec (.destroy next) :: frames) :: rest →
      (∃ e, (f.step c).runs = (i, .exec (next (.error e)) :: frames) :: rest) ∨
      (f.step c).runs = (i, .teardown :: .exec (next (.ok ())) :: frames) :: rest ∧
      ∀ more, Along c OwnHandles more (f.step c) →
        let g := play c more (f.step c)
        g.runs = (i, .exec (next (.ok ())) :: frames) :: rest →
        ∀ r, g.startedOn r = some i →
          (g.readers r).state = .idle ∧ (g.readers r).thread = none := by
  intro f
  have h : f.Secure := (secure_empty bufferSize descriptors user).play c moves hown
  refine ⟨fun r => h.secured, fun i next frames rest hruns => ?_⟩
  rcases h.sane.destroy_cases c hruns with hrefused | ⟨hcall, hend⟩
  · exact Or.inl hrefused
  · refine Or.inr ⟨hcall, ?_⟩
    intro more hmore g hreturn r hon
    have hwithdraws : f.OwnHandles .step := by
      rw [OwnHandles, withdraws?, hruns]
      rfl
    have hg : g.Secure := (h.move c hwithdraws).play c more hmore
    obtain ⟨a, ha, hphase⟩ := hend more hreturn
    exact hg.idle_of_destroyed (stopping?_of_deed hreturn (by simp [Frame.deed?])) ha hphase hon

/-- Code that does nothing by itself. -/
def plain : FleetCode Unit Unit Unit where
  routine _ := .done ()
  observe _ _ _ v := (v, [])
  note _ v := v

/-- Readers of a pipe, and no simulators yet. -/
def blank : Fleet Unit Unit Unit := empty (fun _ => 1) (fun _ => .pipe {}) ()

/-- The simulator `i` is driven up to a deed. -/
def order (i : Nat) (d : Deed Unit Unit) : List (Move Unit Unit Unit) :=
  [.enter i id (.perform (.deed d) fun _ => .done ()), .step]

/-- Reader 0 is started on the simulator `i`. -/
def starting (i : Nat) : List (Move Unit Unit Unit) :=
  order i (.start 0 { target := "p", callback := fun _ => [] }) ++ List.replicate 3 .step

/-- The call of `stop` with number `n` is made and waited for, while the thread ends. -/
def awaiting (n : Nat) : List (Move Unit Unit Unit) :=
  .step :: List.replicate 3 (.reader 0 (.stop n)) ++
    List.replicate 5 (.reader 0 (.thread 1 false)) ++
    List.replicate 2 (.reader 0 (.stop n)) ++ [.step]

/-- Reader 0 is stopped from the simulator `i`. -/
def stoppingOn (i n : Nat) : List (Move Unit Unit Unit) :=
  order i (.stop 0) ++ awaiting n ++ List.replicate 2 .step

/-- Reader 0 goes from the first simulator to the second and back, and then the first is to be torn
down. -/
def roundTrip : List (Move Unit Unit Unit) :=
  [.add .list 1 .sequential, .add .list 1 .sequential] ++ starting 0 ++ stoppingOn 0 0 ++
    starting 1 ++ stoppingOn 1 1 ++ starting 0 ++ [.enter 0 id (.destroy fun _ => .done ())]

/-- Both stops that wait on the first simulator are made; the second finds the reader idle. -/
def twoStops : List (Move Unit Unit Unit) :=
  .step :: awaiting 2 ++ [.step, .step, .reader 0 (.stop 3)] ++ List.replicate 4 .step

/-- The fleet behind the round trip. -/
def returned : Fleet Unit Unit Unit := play plain roundTrip blank

/-- The fleet behind the teardown of the first simulator. -/
def settled : Fleet Unit Unit Unit := play plain twoStops (returned.step plain)

theorem teardown_stops_readers_round_trip :
    Along plain OwnHandles roundTrip blank ∧ Along plain OwnHandles twoStops (returned.step plain) ∧
      (returned.readers 0).state = .running ∧
      returned.runs = [(0, [.exec (.destroy fun _ => .done ())])] ∧
      settled.runs = [(0, [.exec (.done ())])] ∧ (settled.readers 0).state = .idle ∧
      (settled.readers 0).thread = none := by
  have hown : Along plain OwnHandles roundTrip blank := by decide +kernel
  have hown' : Along plain OwnHandles twoStops (returned.step plain) := by decide +kernel
  have hruns : returned.runs = [(0, [.exec (.destroy fun _ => .done ())])] := rfl
  have hcall : (returned.step plain).runs = [(0, [.teardown, .exec (.done ())])] := rfl
  have hreturn : settled.runs = [(0, [.exec (.done ())])] := rfl
  have hon : settled.startedOn 0 = some 0 := by decide +kernel
  obtain ⟨-, hdestroy⟩ := teardown_stops_readers plain (fun _ => 1) (fun _ => .pipe {}) () _ hown
  rcases hdestroy 0 _ _ _ hruns with ⟨e, hrefused⟩ | ⟨-, hend⟩
  · cases hcall.symm.trans hrefused
  · have hidle : (settled.readers 0).state = .idle ∧ (settled.readers 0).thread = none := by
      rw [settled, returned, blank] at hreturn hon ⊢
      exact hend twoStops hown' hreturn 0 hon
    exact ⟨hown, hown', by decide +kernel, hruns, hreturn, hidle⟩

end Fleet

end EventKernel
