import EventKernel.Proofs.Machine.PassOver

/-!
# Cancelling events or taking them away

A program that cancels events does the same if it takes them away instead: in one run of the loop
the same callbacks are invoked in the same order, at the same times, under the same sequence numbers
and contexts, and programs are told the same about their handles. The two runs store events in
different slots, and the first one takes cancelled events off the queue, with the clock moving to
their times, so that its steps are more. Therefore the two are compared at the points where the next
live event is taken, and in between only as far as live events go.
-/

namespace EventKernel

open Simulator (Agree Sound)

variable {K U : Type} {C : Correspondence K} {D : Correspondence U} {w w' v v' : Matching}
  {s t : Simulator K} {m m' : Memory K U}

namespace Machine

variable {code : Code K U} {a b : Machine K U}

section

variable {id id' : EventId} {ev ev' : Event (Task K)}

/-! ### The start of a callback -/

lemma matched_send {ms ms' : List (Message K)} (h : List.Forall₂ (Message.Matched C w) ms ms')
    (hs : Agree C w v s t) (hm : m.Matched C D w v m') :
    Agree C w v (send s m ms).1 (send t m' ms').1 ∧
      (send s m ms).2.Matched C D w v (send t m' ms').2 := by
  induction h generalizing s t m m' with
  | nil => exact ⟨hs, hm⟩
  | cons hmsg _ ih =>
    cases hmsg with
    | schedule target context delay hk =>
      obtain ⟨-, hs', hm'⟩ := hm.handIn hs target context delay hk
      exact ih hs' hm'
    | stop target =>
      obtain ⟨-, hs', hm'⟩ := hm.requestStop hs target
      exact ih hs' hm'

/-- The observer does the same on both sides, but for slots. -/
lemma matched_notify (hcode : code.SlotBlind C D) (hs : Agree C w v s t)
    (hm : m.Matched C D w v m') (hid : id.Matched w id') (time : Time) (context : ContextId) :
    Agree C w v (notify code ⟨id, time, context⟩ s m).1
        (notify code.eager ⟨id', time, context⟩ t m').1 ∧
      (notify code ⟨id, time, context⟩ s m).2.Matched C D w v
        (notify code.eager ⟨id', time, context⟩ t m').2 := by
  rw [notify, notify]
  rcases rel_option_cases hs.observer with ⟨hk, hl⟩ | ⟨k, l, hk, hl, hkl⟩
  · rw [hk, hl]
    exact ⟨hs, hm⟩
  · obtain ⟨hu, hms⟩ := hcode.observe s.identity time context hkl hid hm.user
    rw [hk, hl, hs.identity_eq]
    exact matched_send hms hs { hm with user := hu }

/-- A callback is about to start on both sides, and programs know its handle from now on. -/
lemma launch_eagerly (hcode : code.SlotBlind C D) (hs : Agree C w v s t)
    (hm : m.Matched C D w v m') (hid : id.Matched v id') (hev : ev.Matched C w ev')
    (hnone : s.find? id = none) (hnone' : t.find? id' = none) :
    ∃ w' s' t' n n' context, w ≤ w' ∧ id.Matched w' id' ∧
      (∀ rest, launch code id ev s m rest =
        ⟨s', n, .task ev.task :: .restore context :: .loop :: rest, false⟩) ∧
      (∀ rest, launch code.eager id' ev' t m' rest =
        ⟨t', n', .task ev'.task :: .restore context :: .loop :: rest, false⟩) ∧
      Agree C w' v s' t' ∧ n.Matched C D w' v n' ∧ s'.phase = s.phase := by
  obtain ⟨w', hle, hid', h⟩ := hs.reveal hid
    (fun ev hev => by cases hnone.symm.trans hev) (fun ev hev => by cases hnone'.symm.trans hev)
  obtain ⟨hs', hm'⟩ :=
    matched_notify hcode h (hm.mono hle (le_refl v)) hid' ev.key.time ev.context
  obtain ⟨hsim, -⟩ := notify_unchanged code ⟨id, ev.key.time, ev.context⟩ s m
  rcases hx : notify code ⟨id, ev.key.time, ev.context⟩ s m with ⟨s₁, n⟩
  rcases hy : notify code.eager ⟨id', ev.key.time, ev.context⟩ t m' with ⟨t₁, n'⟩
  rw [hx, hy] at hs' hm'
  rw [hx] at hsim
  refine ⟨w', { s₁ with context := ev.context, eventCount := s₁.eventCount + 1 },
    { t₁ with context := ev.context, eventCount := s₁.eventCount + 1 }, n, n', s₁.context, hle,
    hid', ?_, ?_, ?_, hm', ?_⟩
  · intro rest
    rw [launch, hx]
  · intro rest
    rw [launch, hev.key_eq, hev.context_eq, hy, ← hs'.context_eq, ← hs'.count_eq]
  · have hcontext := hs'.setContext ev.context
    exact { hcontext with
      left := { hcontext.left with }, right := { hcontext.right with }, count_eq := rfl }
  · have hphase := congrArg Simulator.phase hsim
    exact hphase

/-! ### Machines -/

/-- Two machines in one run of the loop that are at the same point, the second of which takes events
away wherever the first one cancels them. -/
inductive Eagerly (C : Correspondence K) (D : Correspondence U) (w v : Matching) :
    Machine K U → Machine K U → Prop where
  | start {s t : Simulator K} {m m' : Memory K U} (hs : Agree C w v s t)
      (hm : m.Matched C D w v m') (hphase : s.phase ≠ .running) :
      Eagerly C D w v ⟨s, m, [.exec (.run fun _ => .done ())], false⟩
        ⟨t, m', [.exec (.run fun _ => .done ())], false⟩
  | inside {s t : Simulator K} {m m' : Memory K U} {top top' : List (Frame K U)}
      (hframes : List.Forall₂ (Frame.Eagerly C D w) top top') (hs : Agree C w v s t)
      (hm : m.Matched C D w v m') (hphase : s.phase = .running) :
      Eagerly C D w v ⟨s, m, top ++ [.loop, .exec (.done ())], false⟩
        ⟨t, m', top' ++ [.loop, .exec (.done ())], false⟩
  | round {s t : Simulator K} {m m' : Memory K U} (hs : Agree C w v s t)
      (hm : m.Matched C D w v m') (hphase : s.phase = .running) (hempty : s.inbox.events = #[]) :
      Eagerly C D w v ⟨s, m, [.next, .exec (.done ())], false⟩
        ⟨t, m', [.next, .exec (.done ())], false⟩
  | returned (s t : Simulator K) (m m' : Memory K U) {stack : List (Frame K U)}
      (hstack : stack = [] ∨ stack = [.exec (.done ())]) :
      Eagerly C D w v ⟨s, m, stack, false⟩ ⟨t, m', stack, false⟩

/-- Steps of which nothing is noted, and then a step of which the same is noted on both sides. -/
def Advances (code : Code K U) (C : Correspondence K) (D : Correspondence U) (w : Matching)
    (a b : Machine K U) : Prop :=
  ∃ n n' a' b' w' v', w ≤ w' ∧ Quietly code n a a' ∧ Quietly code.eager n' b b' ∧
    b'.isDone = a'.isDone ∧ List.Forall₂ (Note.Matched C w') a'.notes b'.notes ∧
    Eagerly C D w' v' (step code a') (step code.eager b')

/-- The same is noted of the very next step. -/
lemma advances_of_step (v : Matching) (hdone : b.isDone = a.isDone) (hle : w ≤ w')
    (hnotes : List.Forall₂ (Note.Matched C w') a.notes b.notes)
    (h : Eagerly C D w' v (step code a) (step code.eager b)) : Advances code C D w a b :=
  ⟨0, 0, a, b, w', v, hle, .refl a, .refl b, hdone, hnotes, h⟩

/-- The loop is entered on both sides, unless the simulators are destroyed. -/
lemma advances_start (hs : Agree C w v s t) (hm : m.Matched C D w v m')
    (hphase : s.phase ≠ .running) :
    Advances code C D w ⟨s, m, [.exec (.run fun _ => .done ())], false⟩
      ⟨t, m', [.exec (.run fun _ => .done ())], false⟩ := by
  refine advances_of_step v rfl (le_refl w) .nil ?_
  have henter : Agree C w v { s with phase := .running } { t with phase := .running } :=
    { hs with left := { hs.left with }, right := { hs.right with }, phase_eq := rfl }
  simp only [step, stepFrame, exec, hs.phase_eq]
  cases hp : s.phase with
  | running => exact absurd hp hphase
  | destroyed => exact .returned s t m m' (Or.inr rfl)
  | notRunning => exact .inside .nil henter hm rfl
  | stopped => exact .inside .nil henter hm rfl

/-- Inside a callback both sides make the same step; behind it the inbox is emptied. -/
lemma advances_inside (hcode : code.SlotBlind C D) {top top' : List (Frame K U)}
    (hframes : List.Forall₂ (Frame.Eagerly C D w) top top') (hs : Agree C w v s t)
    (hm : m.Matched C D w v m') (hphase : s.phase = .running) (hkept : m.Guards s) :
    Advances code C D w ⟨s, m, top ++ [.loop, .exec (.done ())], false⟩
      ⟨t, m', top' ++ [.loop, .exec (.done ())], false⟩ := by
  cases hframes with
  | nil =>
    obtain ⟨u, hle, hdrain⟩ := hs.drainInbox
    obtain ⟨hinbox, -⟩ := s.inbox_drainInbox
    have hphase' : s.drainInbox.phase = .running := by
      rw [Simulator.drainInbox_eq, Simulator.insertAll_unchanged]
      exact hphase
    refine advances_of_step u rfl (le_refl w) .nil
      (.round hdrain (hm.mono (le_refl w) hle) hphase' ?_)
    rw [hinbox]
    rfl
  | cons hf hrest =>
    obtain ⟨w', v', s', t', n, n', new, new', hle, -, hstep, hstep', htop, h, hn, hphase',
      hnotes⟩ := stepsEagerly hcode hf hs hm hkept hphase
    refine advances_of_step v' rfl hle ?_ ?_
    · rw [List.cons_append, List.cons_append, notes_cons, notes_cons]
      exact hnotes
    · rw [List.cons_append, List.cons_append, step, step, hstep, hstep', ← List.append_assoc,
        ← List.append_assoc]
      exact .inside (List.rel_append htop (hrest.imp fun _ _ h => h.mono hle)) h hn
        (hphase'.trans hphase)

/-- What is noted of a live event that is taken off the queue. -/
lemma notes_next {rest : List (Frame K U)} {broken : Bool} (hsome : s.upcoming? = some (id, ev))
    (hlive : ev.cancelled = false) :
    notes ⟨s, m, .next :: rest, broken⟩ = [.invoked id ev.key.time ev.context ev.task] := by
  rw [notes_cons, Frame.notes, hsome, Option.toList_some, List.flatMap_singleton,
    EventId.invocation, if_neg (by simp [hlive])]

lemma Round.eq_of_none {rest : List (Frame K U)} (h : Round code s m rest a)
    (hnone : s.upcoming? = none) : a = ⟨finishRun s, m, rest, false⟩ := by
  cases h with
  | finish => rfl
  | pass hsome => cases hnone.symm.trans hsome
  | start hsome => cases hnone.symm.trans hsome

lemma Round.eq_of_live {rest : List (Frame K U)} (h : Round code s m rest a)
    (hsome : s.upcoming? = some (id, ev)) (hlive : ev.cancelled = false) :
    ∃ q, s.scheduler.removeNext = (some (id, ev), q) ∧
      a = launch code id ev { s with scheduler := q, now := ev.key.time } m rest := by
  cases h with
  | finish hnone => cases hnone.symm.trans hsome
  | pass hsome' _ hcancelled =>
    cases hsome'.symm.trans hsome
    cases hlive.symm.trans hcancelled
  | start hsome' hnext _ =>
    cases hsome'.symm.trans hsome
    exact ⟨_, hnext, rfl⟩

/-- Where no cancelled event is in front of a queue, the same event is taken on both sides, or the
loop is left. The clocks may differ until then. -/
lemma eagerly_next (hcode : code.SlotBlind C D)
    (hs : ∀ now, Agree C w v { s with now := now } { t with now := now })
    (hm : m.Matched C D w v m') (hphase : s.phase = .running)
    (ha : Going ⟨s, m, [.next, .exec (.done ())], false⟩)
    (hb : Going ⟨t, m', [.next, .exec (.done ())], false⟩)
    (hlive : ∀ id ev, s.upcoming? = some (id, ev) → ev.cancelled = false)
    (hlive' : ∀ id ev, t.upcoming? = some (id, ev) → ev.cancelled = false) :
    ∃ w', w ≤ w' ∧
      List.Forall₂ (Note.Matched C w') (notes ⟨s, m, [.next, .exec (.done ())], false⟩)
        (notes ⟨t, m', [.next, .exec (.done ())], false⟩) ∧
      Eagerly C D w' v (step code ⟨s, m, [.next, .exec (.done ())], false⟩)
        (step code.eager ⟨t, m', [.next, .exec (.done ())], false⟩) := by
  obtain ⟨keys, htimely⟩ := ha.timely
  obtain ⟨keys', htimely'⟩ := hb.timely
  have hsound := ha.attended.sound
  have hsound' := hb.attended.sound
  have hevents : SameLive C w v s.find? t.find? := (hs s.now).events
  have hstop : t.stopPending = s.stopPending :=
    congrArg₂ or (hs s.now).stop_eq (hs s.now).inbox.stop_eq
  have hround : Round code s m _ (step code ⟨s, m, [.next, .exec (.done ())], false⟩) :=
    round_takeNext code m _ htimely.consistent htimely.now_le
  have hround' : Round code.eager t m' _
      (step code.eager ⟨t, m', [.next, .exec (.done ())], false⟩) :=
    round_takeNext code.eager m' _ htimely'.consistent htimely'.now_le
  rcases rel_option_cases (Simulator.rel_upcoming? hevents hstop hsound hsound' htimely htimely'
    hlive hlive') with ⟨hnone, hnone'⟩ | ⟨⟨id, ev⟩, ⟨id', ev'⟩, hsome, hsome', hid, hev⟩
  · refine ⟨w, le_refl w, ?_, ?_⟩
    · rw [notes_cons, notes_cons, Frame.notes, Frame.notes, hnone, hnone']
      exact .nil
    · rw [hround.eq_of_none hnone, hround'.eq_of_none hnone']
      exact .returned _ _ m m' (Or.inr rfl)
  · obtain ⟨q, hnext, hstep⟩ := hround.eq_of_live hsome (hlive id ev hsome)
    obtain ⟨q', hnext', hstep'⟩ := hround'.eq_of_live hsome' (hlive' id' ev' hsome')
    have htake := (hs ev.key.time).take hnext hnext' hid ev.key.time
    have hgone := ((hsound.find?_take hnext ev.key.time).2 id).trans (if_pos rfl)
    have hgone' := ((hsound'.find?_take hnext' ev.key.time).2 id').trans (if_pos rfl)
    obtain ⟨w', s', t', n, n', context, hle, hid', hlaunch, hlaunch', h, hn, hphase'⟩ :=
      launch_eagerly hcode htake hm hid hev hgone hgone'
    refine ⟨w', hle, ?_, ?_⟩
    · rw [notes_next hsome (hlive id ev hsome), notes_next hsome' (hlive' id' ev' hsome'),
        hev.key_eq, hev.context_eq]
      exact .cons (.invoked _ _ hid' (hev.task.mono hle)) .nil
    · rw [hstep, hstep', hev.key_eq, hlaunch, hlaunch']
      have hframes : List.Forall₂ (Frame.Eagerly C D w') [.task ev.task, .restore context]
          [.task ev'.task, .restore context] :=
        .cons (.task (hev.task.mono hle)) (.cons (.restore context) .nil)
      exact .inside hframes h hn (hphase'.trans hphase)

/-- Both sides pass over cancelled events before they take an event. -/
lemma advances_round (hcode : code.SlotBlind C D) (hs : Agree C w v s t)
    (hm : m.Matched C D w v m') (hphase : s.phase = .running) (hempty : s.inbox.events = #[])
    (ha : Going ⟨s, m, [.next, .exec (.done ())], false⟩)
    (hb : Going ⟨t, m', [.next, .exec (.done ())], false⟩) :
    Advances code C D w ⟨s, m, [.next, .exec (.done ())], false⟩
      ⟨t, m', [.next, .exec (.done ())], false⟩ := by
  obtain ⟨n, s', hquiet, hpass, hlive⟩ := exists_quietly code ha hempty
  obtain ⟨n', t', hquiet', hpass', hlive'⟩ :=
    exists_quietly code.eager hb (hs.inbox.isEmpty_iff.mpr hempty)
  have ha' := hquiet.going ha
  have hb' := hquiet'.going hb
  have hphase' : s'.phase = .running := by
    rw [hpass.unchanged]
    exact hphase
  obtain ⟨w', hle, hnotes, h⟩ := eagerly_next hcode
    (hs.passOver hpass hpass' ha'.attended.sound hb'.attended.sound) hm hphase' ha' hb' hlive hlive'
  exact ⟨n, n', _, _, w', v, hle, hquiet, hquiet', rfl, hnotes, h⟩

lemma Eagerly.advances (hcode : code.SlotBlind C D) (h : Eagerly C D w v a b) (ha : a.Going)
    (hb : b.Going) : Advances code C D w a b := by
  cases h with
  | start hs hm hphase => exact advances_start hs hm hphase
  | inside hframes hs hm hphase =>
    exact advances_inside hcode hframes hs hm hphase ha.attended.guards
  | round hs hm hphase hempty => exact advances_round hcode hs hm hphase hempty ha hb
  | returned s t m m' hstack =>
    refine advances_of_step v rfl (le_refl w) ?_ ?_
    · rcases hstack with rfl | rfl <;> exact .nil
    · rcases hstack with rfl | rfl <;> exact .returned s t m m' (Or.inl rfl)

end

/-! ### Runs -/

/-- If two machines can always be taken to steps of which the same is noted, then what is noted of
the one is noted of the other, and the one comes to its end if the other does. -/
lemma journal_follows (code code' : Code K U) {P : Matching → Machine K U → Machine K U → Prop}
    {N : Matching → Note K → Note K → Prop}
    (hmono : ∀ {w w' x y}, N w x y → w ≤ w' → N w' x y)
    (hadvance : ∀ {w a b}, P w a b → ∃ n n' a' b' w', w ≤ w' ∧ Quietly code n a a' ∧
      Quietly code' n' b b' ∧ b'.isDone = a'.isDone ∧ List.Forall₂ (N w') a'.notes b'.notes ∧
      P w' (step code a') (step code' b'))
    (h : P w a b) (n : Nat) :
    ∃ n' w', w ≤ w' ∧ List.Forall₂ (N w') (journal code n a) (journal code' n' b) ∧
      ((runFor code n a).isDone = true → (runFor code' n' b).isDone = true) := by
  induction n using Nat.strong_induction_on generalizing w a b with
  | _ n ih =>
    obtain ⟨k, k', a', b', w₁, hle, ha, hb, hdone, hnotes, h₁⟩ := hadvance h
    by_cases hk : n ≤ k
    · obtain ⟨hnil, hrest⟩ := ha.of_le hk
      obtain ⟨hnil', hrun⟩ := hb.add 0
      refine ⟨k', w, le_refl w, ?_, fun hend => ?_⟩
      · rw [hnil, ← Nat.add_zero k', hnil']
        exact .nil
      · rw [← Nat.add_zero k', hrun]
        exact hdone.trans (hrest hend)
    · obtain ⟨r, rfl⟩ : ∃ r, n = k + (r + 1) := ⟨n - k - 1, by omega⟩
      obtain ⟨r', w₂, hle', hmore, hend⟩ := ih r (by omega) h₁
      obtain ⟨hjournal, hrun⟩ := ha.add (r + 1)
      obtain ⟨hjournal', hrun'⟩ := hb.add (r' + 1)
      refine ⟨k' + (r' + 1), w₂, le_trans hle hle', ?_, ?_⟩
      · rw [hjournal, hjournal', journal, journal]
        exact List.rel_append (hnotes.imp fun _ _ hn => hmono hn hle') hmore
      · rw [hrun, hrun', runFor, runFor, hdone]
        split
        · next hover => exact fun _ => hdone.trans hover
        · exact hend

/-- What is noted of some steps on the one side is noted on the other side as well. -/
lemma Eagerly.journal (hcode : code.SlotBlind C D) (h : Eagerly C D w v a b) (ha : a.Going)
    (hb : b.Going) (n : Nat) :
    (∃ n' w', w ≤ w' ∧ List.Forall₂ (Note.Matched C w') (Machine.journal code n a)
        (Machine.journal code.eager n' b) ∧
      ((runFor code n a).isDone = true → (runFor code.eager n' b).isDone = true)) ∧
    ∃ n' w', w ≤ w' ∧ List.Forall₂ (Note.Matched C w') (Machine.journal code n' a)
        (Machine.journal code.eager n b) ∧
      ((runFor code.eager n b).isDone = true → (runFor code n' a).isDone = true) := by
  constructor
  · refine journal_follows code code.eager (N := Note.Matched C)
      (P := fun w a b => (∃ v, Eagerly C D w v a b) ∧ a.Going ∧ b.Going)
      Note.Matched.mono ?_ ⟨⟨v, h⟩, ha, hb⟩ n
    rintro w a b ⟨⟨v, h⟩, ha, hb⟩
    obtain ⟨k, k', a', b', w', v', hle, hquiet, hquiet', hdone, hnotes, h'⟩ :=
      h.advances hcode ha hb
    exact ⟨k, k', a', b', w', hle, hquiet, hquiet', hdone, hnotes, ⟨v', h'⟩,
      (hquiet.going ha).step code, (hquiet'.going hb).step code.eager⟩
  · have hflip := journal_follows code.eager code (a := b) (b := a)
      (P := fun w b a => (∃ v, Eagerly C D w v a b) ∧ a.Going ∧ b.Going)
      (N := fun w y x => x.Matched C w y) Note.Matched.mono ?_ ⟨⟨v, h⟩, ha, hb⟩ n
    · obtain ⟨n', w', hle, hnotes, hend⟩ := hflip
      exact ⟨n', w', hle, hnotes.flip, hend⟩
    · rintro w b a ⟨⟨v, h⟩, ha, hb⟩
      obtain ⟨k, k', a', b', w', v', hle, hquiet, hquiet', hdone, hnotes, h'⟩ :=
        h.advances hcode ha hb
      exact ⟨k', k, b', a', w', hle, hquiet', hquiet, hdone.symm, hnotes.flip, ⟨v', h'⟩,
        (hquiet.going ha).step code, (hquiet'.going hb).step code.eager⟩

/-- A state in which nothing is left to do, when its owner is about to have the events taken. -/
def ready (a : Machine K U) : Machine K U := { a with stack := [.exec (.run fun _ => .done ())] }

lemma Going.ready (code : Code K U) (h : a.Going) (hdone : a.isDone = true) : a.ready.Going := by
  obtain ⟨keys, htimely⟩ := h.timely
  have hattended := h.attended.move code (.enter id (.run fun _ => .done ())) htimely h.unbroken
    ⟨rfl, rfl⟩
  rw [move, if_pos hdone] at hattended
  exact ⟨hattended, ⟨keys, htimely⟩, h.unbroken⟩

/-- Without cancelled events a state goes with itself if no code names an event of a timer. -/
lemma Going.eagerly (h : a.Going) (hdone : a.isDone = true)
    (hlive : ∀ id ev, a.sim.find? id = some ev → ev.cancelled = false)
    (hC : ∀ k, Mentions a.sim a.memory k → C.rel a.sim.known k k)
    (hD : D.rel a.sim.known a.memory.user a.memory.user) :
    Eagerly C D a.sim.known a.sim.issued a.ready a.ready := by
  obtain ⟨hattended, -, hb⟩ := h
  obtain ⟨s, m, stack, broken⟩ := a
  obtain rfl : broken = false := hb
  obtain rfl : stack = [] := List.isEmpty_iff.mp hdone
  exact .start (hattended.sound.agree_of_mentions hattended.orderly.userCode hlive hC)
    (hattended.guards.matched_self hC hD) hattended.orderly.nested.phase_ne

/-- It makes no difference whether programs cancel events or take them away. Let a simulator hold no
cancelled events, and let its programs cancel events, but take none away, read no slots, and neither
ask whether there are cancelled events nor name events of timers. If the owner has the events taken,
and from then on all events are taken away that the programs would cancel, then what is noted stays
the same but for slots: the same callbacks are invoked in the same order, with the same sequence
numbers, times and contexts, the same code is run, and programs are told the same of the handles
they cancel, or take away, or ask about. And the loop is left if it would have been left. -/
theorem cancelled_or_taken_away (C : Correspondence K) (D : Correspondence U) (code : Code K U)
    (hcode : code.SlotBlind C D) (past : Code K U) (identity : Nat) (kind : QueueKind)
    (buckets : Nat) (sync : SyncMode) (inboxes : Array (Inbox (Task K))) (u : U)
    (moves : List (Move K U))
    (halong : Along past KeepsTimers moves
      (idle identity kind buckets sync { inboxes := inboxes, user := u })) :
    let a := play past moves (idle identity kind buckets sync { inboxes := inboxes, user := u })
    a.isDone = true →
    (∀ id ev, a.sim.find? id = some ev → ev.cancelled = false) →
    (∀ k, Mentions a.sim a.memory k → C.rel a.sim.known k k) →
    D.rel a.sim.known a.memory.user a.memory.user →
    ∀ n,
      (∃ n' w, a.sim.known ≤ w ∧
        List.Forall₂ (Note.Matched C w) (journal code n a.ready) (journal code.eager n' a.ready) ∧
        ((runFor code n a.ready).isDone = true → (runFor code.eager n' a.ready).isDone = true)) ∧
      ∃ n' w, a.sim.known ≤ w ∧
        List.Forall₂ (Note.Matched C w) (journal code n' a.ready) (journal code.eager n a.ready) ∧
        ((runFor code.eager n a.ready).isDone = true → (runFor code n' a.ready).isDone = true) := by
  intro a hdone hlive hC hD n
  have hgoing : a.Going := (going_idle identity kind buckets sync inboxes u).play past moves halong
  have hready : a.ready.Going := hgoing.ready code hdone
  exact (hgoing.eagerly hdone hlive hC hD).journal hcode hready hready n

/-- The programs of somebody who plans a visit, calls it off and plans another one. -/
inductive Errand where
  | plan
  | callOff
  | visit
  deriving DecidableEq

/-- The visit that is called off is due behind the call, and the new one takes its slot only if it
has been taken away. -/
def errands : Code Errand (Option EventId) where
  routine
    | .plan =>
      .ask (.sim (.schedule (.clamp 20) .visit)) fun
        | .error _ => .done ()
        | .ok visit =>
          .ask (.update fun _ => some visit) fun _ =>
            .ask (.sim (.schedule (.clamp 10) .callOff)) fun _ => .done ()
    | .callOff =>
      .ask .load fun
        | none => .done ()
        | some visit =>
          .ask (.sim (.cancel visit)) fun _ =>
            .ask (.sim (.schedule (.clamp 30) .visit)) fun _ =>
              .ask (.sim (.isExpired visit)) fun _ => .done ()
    | .visit => .done ()
  observe _ _ _ u := (u, [])

lemma slotBlind_errands : errands.SlotBlind (.eq Errand) (.option .handle) where
  routine {w k l} h := by
    obtain rfl : k = l := h
    cases k with
    | plan =>
      refine .ask (.schedule _ rfl) fun w₁ hle a b hab => ?_
      cases hab with
      | error e => exact .done ()
      | ok hid =>
        refine .ask (.update fun w₂ hle' _ _ _ => .some (hid.mono hle')) fun w₂ _ _ _ _ => ?_
        exact .ask (.schedule _ rfl) fun _ _ _ _ _ => .done ()
    | callOff =>
      refine .ask .load fun w₁ _ a b hab => ?_
      cases hab with
      | none => exact .done ()
      | some hid =>
        refine .ask (.cancel hid) fun w₂ hle _ _ _ => ?_
        refine .ask (.schedule _ rfl) fun w₃ hle' _ _ _ => ?_
        exact .ask (.isExpired ((hid.mono hle).mono hle')) fun _ _ _ _ _ => .done ()
    | visit => exact .done ()
  observe _ _ _ _ _ _ _ _ _ hu := ⟨hu, .nil⟩

/-- The owner schedules the plan, and the visit that is called off is passed over. -/
theorem cancelled_or_taken_away_errands :
    let start : Machine Errand (Option EventId) := idle 0 .list 1 .sequential { user := none }
    let moves : List (Move Errand (Option EventId)) :=
      [.enter id (.ask (.sim (.scheduleNow .plan)) fun _ => .done ()), .step, .step]
    let a := play errands moves start
    Along errands KeepsTimers moves start ∧ a.isDone = true ∧ a.sim.find? (.queued 0 1) ≠ none ∧
      (journal errands 40 a.ready).length = 8 ∧ (runFor errands 40 a.ready).isDone = true ∧
      ∃ n w, a.sim.known ≤ w ∧
        List.Forall₂ (Note.Matched (.eq Errand) w) (journal errands 40 a.ready)
          (journal errands.eager n a.ready) ∧
        (runFor errands.eager n a.ready).isDone = true := by
  intro start moves a
  have hsome : a.sim.find? (.queued 0 1) ≠ none := by decide +kernel
  have hdone : a.isDone = true := by decide +kernel
  have halong : Along errands KeepsTimers moves start := ⟨⟨rfl, rfl⟩, trivial, trivial, trivial⟩
  have hlive : ∀ id ev, a.sim.find? id = some ev → ev.cancelled = false := by
    have hslots : ∀ o ∈ a.sim.scheduler.arena.slots, o.all (!·.cancelled) = true := by
      decide +kernel
    have hteardown : a.sim.teardown = [] := by decide +kernel
    intro id ev hev
    cases id with
    | queued slot n =>
      obtain ⟨hat, -⟩ := Arena.get?_eq_some_iff.mp hev
      simpa using hslots _ (Array.mem_of_getElem? (Option.join_eq_some_iff.mp hat))
    | destroy n =>
      rw [Simulator.find?, hteardown] at hev
      cases hev
  have hend : (runFor errands 40 a.ready).isDone = true := by decide +kernel
  obtain ⟨⟨n, w, hle, hnotes, hdone'⟩, -⟩ := cancelled_or_taken_away (.eq Errand) (.option .handle)
    errands slotBlind_errands errands 0 .list 1 .sequential #[] none moves halong hdone hlive
    (fun _ _ => rfl) .none 40
  exact ⟨halong, hdone, hsome, by decide +kernel, hend, n, w, hle, hnotes, hdone' hend⟩

end Machine

end EventKernel
