import EventKernel.Proofs.Relay.Rounds

/-!
# What a relay prints

A relay prints the time, the context and the text of each chunk, in the order in which the chunks
leave the queue. The text of a chunk is printed in a few steps behind the one that takes it off the
queue, and the reader goes on in between, but touches neither the output nor the unit of a tick.
-/

namespace EventKernel

namespace Relay

variable {latency : Time} {context : ContextId} {u : TimeUnit} {s t : Simulator RelayCode}
  {m m' : Memory RelayCode State} {chunks : List (List UInt8)}
  {taken : List (EventId × Event (Task RelayCode))} {last : Bool}
  {stack frames : List (Frame RelayCode State)} {frame : Frame RelayCode State}
  {keys : List EventKey} {e : String}

/-- The text that a task prints. -/
def textOf : Task RelayCode → String
  | .user (.print text) => text
  | _ => ""

/-- What is printed before a text: the time, where a tick is one unit `u`, and the context. -/
def stamp (u : TimeUnit) (now : Time) (context : ContextId) : String :=
  "[" ++ now.text u ++ " " ++ context.text ++ "] "

/-- What is printed for some events. -/
def transcript (u : TimeUnit) (evs : List (Event (Task RelayCode))) : String :=
  String.join (evs.map fun ev => stamp u ev.key.time ev.context ++ textOf ev.task)

lemma transcript_append (u : TimeUnit) (evs evs' : List (Event (Task RelayCode))) :
    transcript u (evs ++ evs') = transcript u evs ++ transcript u evs' := by
  rw [transcript, List.map_append, String.join_append]
  rfl

/-! ### Printing step by step -/

/-- Add a text to the output, behind the time and the context. -/
def printLine (text : String) (now : Time) (context : ContextId) (s : State) : State :=
  let (time, resolution) := now.print s.resolution
  { s with
    resolution := resolution
    output := s.output ++ ("[" ++ time ++ " " ++ context.text ++ "] ") ++ text }

lemma printLine_spec (text : String) (now : Time) (context : ContextId) (s : State) :
    (printLine text now context s).resolution.unit = s.resolution.unit ∧
      (printLine text now context s).output =
        s.output ++ (stamp s.resolution.unit now context ++ text) := by
  refine ⟨?_, String.append_assoc ..⟩
  show (now.print s.resolution).2.unit = _
  rw [Time.print]
  dsimp only
  split <;> rfl

/-- A program that is about to print a text, at the time and in the context of a simulator. -/
inductive Prints (text : String) (s : Simulator RelayCode) : Program RelayCode State PUnit → Prop
  | chunk : Prints text s (printChunk text)
  | timed : Prints text s (.ask (.sim .context) fun context =>
      .ask (.update (printLine text s.now context)) fun a => .done a)
  | line : Prints text s (.ask (.update (printLine text s.now s.context)) fun a => .done a)

/-- What is left to do prints nothing. -/
def Quiet : List (Frame RelayCode State) → Prop
  | .exec p :: _ => p = oneRun ∨ p = .done ()
  | .task t :: _ => isPrinting t = false
  | _ => True

/-- What is still to be printed for the event that was taken off the queue last. -/
inductive Owes (u : TimeUnit) (s : Simulator RelayCode) :
    List (Frame RelayCode State) → String → Prop
  | starting (text : String) (frames : List (Frame RelayCode State)) :
      Owes u s (.task (.user (.print text)) :: frames) (stamp u s.now s.context ++ text)
  | printing {text : String} {p : Program RelayCode State PUnit} (hp : Prints text s p)
      (frames : List (Frame RelayCode State)) :
      Owes u s (.exec p :: frames) (stamp u s.now s.context ++ text)
  | nothing {stack : List (Frame RelayCode State)} (hquiet : Quiet stack) : Owes u s stack ""

lemma Owes.congr (h : Owes u s stack e) (hnow : t.now = s.now) (hcontext : t.context = s.context) :
    Owes u t stack e := by
  cases h with
  | starting text frames =>
    rw [← hnow, ← hcontext]
    exact .starting text frames
  | printing hp frames =>
    rw [← hnow, ← hcontext]
    refine .printing ?_ frames
    cases hp with
    | chunk => exact .chunk
    | timed =>
      rw [← hnow]
      exact .timed
    | line =>
      rw [← hnow, ← hcontext]
      exact .line
  | nothing hquiet => exact .nothing hquiet

/-- What prints nothing owes nothing. -/
lemma Owes.eq_empty (h : Owes u s stack e) (hquiet : Quiet stack) : e = "" := by
  cases h with
  | starting text frames => cases hquiet
  | printing hp frames =>
    rcases hquiet with rfl | rfl
    · cases hp
    · cases hp
  | nothing => rfl

lemma exists_text_of_isPrinting {t : Task RelayCode} (h : isPrinting t = true) :
    ∃ text, t = .user (.print text) := by
  cases t with
  | user k =>
    cases k with
    | print text => exact ⟨text, rfl⟩
    | count | teardown => cases h
  | stop | watchdog | trickleInterval | trickleFire => cases h

/-- The counter prints nothing. -/
lemma user_launch (id : EventId) (ev : Event (Task RelayCode)) (s : Simulator RelayCode)
    (m : Memory RelayCode State) (rest : List (Frame RelayCode State)) :
    (Machine.launch code id ev s m rest).memory.user.output = m.user.output ∧
      (Machine.launch code id ev s m rest).memory.user.resolution = m.user.resolution := by
  show (Machine.notify code ⟨id, ev.key.time, ev.context⟩ s m).2.user.output = _ ∧
    (Machine.notify code ⟨id, ev.key.time, ev.context⟩ s m).2.user.resolution = _
  rw [Machine.notify]
  cases s.observer with
  | none => exact ⟨rfl, rfl⟩
  | some k =>
    cases k with
    | count context =>
      dsimp only [code]
      split <;> exact ⟨rfl, rfl⟩
    | print | teardown => exact ⟨rfl, rfl⟩

/-- What was printed and what is still to be printed make up the transcript. -/
structure Tells (u : TimeUnit) (taken : List (EventId × Event (Task RelayCode)))
    (stack : List (Frame RelayCode State)) (s : Simulator RelayCode) (state : State) : Prop where
  unit : state.resolution.unit = u
  output : ∃ e, Owes u s stack e ∧ state.output ++ e = transcript u (printed taken)

namespace Tells

variable {state state' : State}

lemma output_eq (h : Tells u taken stack s state) (hquiet : Quiet stack) :
    state.output = transcript u (printed taken) := by
  obtain ⟨e, howes, houtput⟩ := h.output
  rw [howes.eq_empty hquiet, String.append_empty] at houtput
  exact houtput

/-- A step between things that print nothing. -/
lemma quiet (h : Tells u taken stack s state) (hquiet : Quiet stack) (hquiet' : Quiet frames)
    (houtput : state'.output = state.output) (hunit : state'.resolution = state.resolution) :
    Tells u taken frames t state' where
  unit := by rw [hunit]; exact h.unit
  output := ⟨"", .nothing hquiet', by rw [houtput, String.append_empty, h.output_eq hquiet]⟩

/-- A round of the loop takes an event off the queue, or the run comes to its end. -/
lemma stepNext (h : Tells u taken [.next, .exec (.done ())] s m.user)
    (hwithin : Within latency context chunks taken last stack s) (ht : s.Timely keys) :
    let b := Machine.takeNext code s m [.exec (.done ())]
    Tells u (taken ++ s.upcoming?.toList) b.stack b.sim b.memory.user := by
  intro b
  have hround := Machine.round_takeNext code m [.exec (.done ())] ht.consistent ht.now_le
  change Machine.Round code s m _ b at hround
  generalize b = b at hround
  cases hround with
  | finish hnone =>
    rw [hnone, Option.toList_none, List.append_nil]
    exact h.quiet trivial (Or.inr rfl) rfl rfl
  | pass hsome hnext hcancelled =>
    obtain ⟨hgoes, -⟩ := Simulator.upcoming?_eq_some_iff.mp hsome
    cases hcancelled.symm.trans (hwithin.take ht hgoes hnext s.context s.context 0).1
  | @start id ev q hsome hnext hlive =>
    obtain ⟨hgoes, -⟩ := Simulator.upcoming?_eq_some_iff.mp hsome
    obtain ⟨houtput, hunit⟩ := user_launch id ev { s with scheduler := q, now := ev.key.time } m
      [.exec (.done ())]
    obtain ⟨m', hlaunch, -⟩ := Within.launch_code id ev
      { s with scheduler := q, now := ev.key.time } m [.exec (.done ())]
    rw [hlaunch] at houtput hunit ⊢
    refine ⟨by rw [hunit]; exact h.unit, ?_⟩
    rw [hsome, Option.toList_some, printed_concat hlive, transcript_append, houtput,
      h.output_eq trivial]
    cases hprint : isPrinting ev.task with
    | true =>
      obtain ⟨text, htext⟩ := exists_text_of_isPrinting hprint
      refine ⟨stamp u ev.key.time ev.context ++ text, ?_, ?_⟩
      · rw [htext]
        exact .starting text _
      · rw [if_pos rfl, transcript, transcript, List.map_singleton, htext]
        simp [String.join, textOf]
    | false => exact ⟨"", .nothing hprint, rfl⟩

/-- The transcript is written as the run goes on. -/
lemma step (h : Tells u taken (frame :: frames) s m.user)
    (hwithin : Within latency context chunks taken last (frame :: frames) s)
    (ht : s.Timely keys) :
    let a : Machine RelayCode State := ⟨s, m, frame :: frames, false⟩
    let b := Machine.step code a
    Tells u (taken ++ a.taken?.toList) b.stack b.sim b.memory.user := by
  intro a b
  have hquiet : ∀ {stack} {t : Simulator RelayCode} {state : State}, a.taken? = none →
      Quiet (frame :: frames) → Quiet stack → state.output = m.user.output →
      state.resolution = m.user.resolution →
      Tells u (taken ++ a.taken?.toList) stack t state := by
    intro stack t state hnone hfront hstack houtput hunit
    rw [hnone, Option.toList_none, List.append_nil]
    exact h.quiet hfront hstack houtput hunit
  cases hwithin.stands with
  | entry hphase =>
    have hb : b = _ := step_oneRun hphase m
    rw [hb]
    exact hquiet rfl (Or.inl rfl) trivial rfl rfl
  | loop => exact hquiet rfl trivial trivial rfl rfl
  | next => exact h.stepNext hwithin ht
  | stopping => exact hquiet rfl rfl trivial rfl rfl
  | starting chunk =>
    obtain ⟨e, howes, houtput⟩ := h.output
    refine ⟨h.unit, e, ?_, ?_⟩
    · cases howes with
      | starting text => exact .printing .chunk _
      | nothing hfront => cases hfront
    · exact houtput.trans (congrArg _ (congrArg _ (List.append_nil _).symm))
  | printing hmild =>
    obtain ⟨e, howes, houtput⟩ := h.output
    rw [show a.taken? = none from rfl, Option.toList_none, List.append_nil]
    cases howes with
    | @printing text _ hp =>
      cases hp with
      | chunk => exact ⟨h.unit, _, .printing .timed _, houtput⟩
      | timed => exact ⟨h.unit, _, .printing .line _, houtput⟩
      | line =>
        obtain ⟨hresolution, hline⟩ := printLine_spec text s.now s.context m.user
        refine ⟨hresolution.trans h.unit, "", .nothing (Or.inr rfl), ?_⟩
        rw [String.append_empty, ← houtput, ← h.unit]
        exact hline
    | nothing hfront =>
      rcases hfront with rfl | rfl
      · cases hmild
      · exact h.quiet (Or.inr rfl) trivial rfl rfl
  | restoring => exact hquiet rfl trivial trivial rfl rfl
  | leaving => exact hquiet rfl (Or.inr rfl) trivial rfl rfl

end Tells

namespace Session

variable {x : Session}

/-- What holds of the output throughout the life of a relay. -/
structure Told (u : TimeUnit) (x : Session) (s : Simulator RelayCode) : Prop where
  tells : Tells u x.dispatched x.stack s x.world.user
  idle : (∀ last, x.place ≠ .running last) → x.stack = []

lemma Told.enter (h : Told u x s) (hidle : ∀ last, x.place ≠ .running last) (last : Bool) :
    Told u (x.enter last) s where
  tells := h.tells.quiet (by rw [h.idle hidle]; trivial) (Or.inl rfl) rfl rfl
  idle hnone := absurd rfl (hnone last)

lemma Told.stepLoop (h : Told u x s) (hkept : Kept latency context x s)
    (ht : x.stepLoop.world.sim? 0 = some t) : Told u x.stepLoop t := by
  have hsame : ∀ {y : Session}, y.world = x.world → Told u y s → y.world.sim? 0 = some t →
      Told u y t := by
    intro y hworld hy hsim
    rw [hworld, hkept.sim, Option.some.injEq] at hsim
    exact hsim ▸ hy
  rw [Session.stepLoop] at ht ⊢
  cases hplace : x.place with
  | ahead =>
    rw [hplace] at ht
    exact hsame rfl (h.enter (by simp [hplace]) false) ht
  | looking =>
    rw [hplace] at ht
    have hidle : ∀ last, x.place ≠ .running last := by simp [hplace]
    dsimp only at ht ⊢
    split
    · next hexit =>
      rw [if_pos hexit] at ht
      exact hsame rfl (h.enter hidle true) ht
    · next hexit =>
      rw [if_neg hexit] at ht
      exact hsame rfl ⟨h.tells, fun _ => h.idle hidle⟩ ht
  | left =>
    rw [hplace] at ht
    exact hsame rfl h ht
  | running last =>
    rw [hplace] at ht
    cases hstack : x.stack with
    | nil =>
      have htells := h.tells
      rw [hstack] at ht htells
      dsimp only at ht ⊢
      exact hsame rfl ⟨htells, fun _ => rfl⟩ ht
    | cons frame frames =>
      rw [hstack, hkept.sim] at ht
      dsimp only at ht ⊢
      rw [hkept.sim]
      obtain rfl := Option.some.inj ((hkept.stepRun hplace hstack).sim.symm.trans ht)
      have htells := h.tells
      have hwithin := hkept.within hplace
      rw [hstack] at htells hwithin
      exact ⟨htells.step hwithin hkept.timely, fun hidle => absurd hplace (hidle last)⟩

/-- Neither the output nor the unit of a tick changes, nor where the loop is, nor what is printed
next. -/
lemma Told.congr {y : Session} (h : Told u x s) (hstack : y.stack = x.stack)
    (hplace : y.place = x.place) (hdispatched : y.dispatched = x.dispatched)
    (hnow : t.now = s.now) (hcontext : t.context = s.context)
    (houtput : y.world.user.output = x.world.user.output)
    (hresolution : y.world.user.resolution = x.world.user.resolution) : Told u y t where
  tells := by
    obtain ⟨hunit, e, howes, htranscript⟩ := h.tells
    rw [hstack, hdispatched]
    exact ⟨by rw [hresolution, hunit], e, howes.congr hnow hcontext, by rw [houtput, htranscript]⟩
  idle := by
    rw [hplace, hstack]
    exact h.idle

/-- The thread of the reader waits, or it makes a step and hands in what the step gives. -/
lemma stepReader_cases (latency : Time) (context : ContextId) (limit : Nat) (pollForbidden : Bool)
    (x : Session) :
    x.stepReader latency context limit pollForbidden = x ∨
      ∃ thread step, x.world.user.reader.thread = some thread ∧
        x.world.user.reader.stepThread pollForbidden x.world.user.input (thread.curb limit) =
          some step ∧
        x.stepReader latency context limit pollForbidden =
          x.hand latency context step.reader step.descriptor step.emitted.toList := by
  rw [Session.stepReader]
  dsimp only
  split
  · exact Or.inl rfl
  · next thread hthread =>
    split
    · exact Or.inl rfl
    · next step hstep => exact Or.inr ⟨thread, step, hthread, hstep, rfl⟩

/-- What is handed in waits in the inbox. -/
lemma sim?_hand (latency : Time) (context : ContextId) (r : Reader (List UInt8))
    (input : Descriptor) (chunks : List (List UInt8)) (hsim : x.world.sim? 0 = some s)
    (hsize : x.world.memory.inboxes.size = x.world.sims.size) :
    ∃ b, (x.hand latency context r input chunks).world.sim? 0 = some { s with inbox := b } := by
  have hfold : ∀ (w : Stage) (s : Simulator RelayCode), w.sim? 0 = some s →
      w.memory.inboxes.size = w.sims.size →
      ∃ b, (chunks.foldl (forward latency context) w).sim? 0 = some { s with inbox := b } := by
    induction chunks with
    | nil => exact fun w s hw _ => ⟨s.inbox, hw⟩
    | cons chunk chunks ih =>
      intro w s hw hw'
      obtain ⟨hforward, hforward', -⟩ := forward_spec latency context hw hw' chunk
      obtain ⟨b, hb⟩ := ih _ _ hforward hforward'
      exact ⟨b, hb⟩
  exact hfold _ s hsim hsize

lemma Told.act (h : Told u x s) (hkept : Kept latency context x s) (y : Action)
    (ht : (x.act latency context y).world.sim? 0 = some t) :
    Told u (x.act latency context y) t := by
  cases y with
  | loop => exact h.stepLoop hkept ht
  | reader limit pollForbidden =>
    rw [Session.act] at ht ⊢
    rcases x.stepReader_cases latency context limit pollForbidden with hx | ⟨_, step, -, -, hx⟩
    · rw [hx] at ht ⊢
      obtain rfl := Option.some.inj (hkept.sim.symm.trans ht)
      exact h
    · rw [hx] at ht ⊢
      obtain ⟨b, hb⟩ := sim?_hand latency context step.reader step.descriptor step.emitted.toList
        hkept.sim hkept.size
      obtain rfl := Option.some.inj (hb.symm.trans ht)
      refine h.congr rfl rfl rfl rfl rfl ?_ ?_ <;> rw [user_hand]
  | change f | interrupt =>
    obtain rfl := Option.some.inj (hkept.sim.symm.trans ht)
    exact h.congr rfl rfl rfl rfl rfl rfl rfl

/-- Whatever happens to a relay, what was printed and what is still to be printed make up the
transcript of the events that were taken off the queue. -/
lemma Told.play (h : Told u x s) (hkept : Kept latency context x s)
    (hlatency : latency.isNegative = false) (acts : List Action) :
    ∃ t, Kept latency context (x.play latency context acts) t ∧
      Told u (x.play latency context acts) t := by
  induction acts generalizing x s with
  | nil => exact ⟨s, hkept, h⟩
  | cons y acts ih =>
    obtain ⟨t, ht⟩ := hkept.act hlatency y
    exact ih (h.act hkept y ht.sim) ht

end Session

/-- A relay that was just started has printed nothing. -/
lemma told_opening {sim : Simulator RelayCode} (hphase : sim.phase = .notRunning) (r : Resolution)
    (bufferSize : Nat) (input : Descriptor) (context : ContextId) (s : Simulator RelayCode) :
    Session.Told r.unit { world := opening sim r bufferSize input context } s := by
  obtain ⟨teardown, hopening⟩ := opening_eq hphase r bufferSize input context
  refine ⟨⟨?_, "", .nothing trivial, ?_⟩, fun _ => rfl⟩
  · rw [hopening]
    rfl
  · rw [hopening]
    rfl

end Relay

end EventKernel
