import EventKernel.Command.Hold
import EventKernel.Proofs.Fleet.View
import EventKernel.Proofs.Machine.Conclude
import EventKernel.Proofs.Machine.Lockstep
import EventKernel.Proofs.Machine.Observer

/-!
# The hold model comes to its end

An event that runs schedules at most one other, and as many are scheduled as are still to be: those
dispatched, those in flight and those still to be scheduled are all events, all the way. Each round
of the loop takes one of the last two away, so the loop is left, and the queue does not run empty
before everything was scheduled. None of this depends on the delays.
-/

namespace EventKernel

/-! ### Worlds -/

section

variable {K U : Type}

lemma Machine.size_inboxes_runFor (code : Code K U) (n : Nat) (a : Machine K U) :
    (runFor code n a).memory.inboxes.size = a.memory.inboxes.size := by
  induction n generalizing a with
  | zero => rfl
  | succ n ih => rw [runFor_succ, ih, (delivers_step code a).size]

/-- A simulator that has carried out a program is put back. -/
lemma World.sim?_performFor {w : World K U} {i : Nat} {s : Simulator K} (hs : w.sim? i = some s)
    (hsize : w.memory.inboxes.size = w.sims.size) (n : Nat) (code : Code K U)
    (p : Program K U PUnit) :
    let a := Machine.runFor code n (Machine.load s w.memory p)
    let w' := w.performFor n code i p
    w' = w.put i a.sim a.memory ∧ w'.sim? i = some a.sim ∧
      w'.memory.inboxes.size = w'.sims.size := by
  intro a w'
  have hput : w' = w.put i a.sim a.memory := by
    rw [show w' = w.performFor n code i p from rfl, performFor, hs]
    rfl
  have hmemory : a.memory.inboxes.size = w.sims.size :=
    (Machine.size_inboxes_runFor code n _).trans hsize
  rw [hput]
  refine ⟨rfl, sim?_put (of_sim? hs).1 hmemory, ?_⟩
  simp [put, hmemory]

end

namespace Hold

open Machine (Concludes runFor round_takeNext)

variable {G : Type} {draw : G → Nat × G} {s t : Simulator PUnit} {m : Memory PUnit (State G)}
  {u v w : State G} {events limit n k : Nat} {rest : List (Frame PUnit (State G))}
  {ending : Machine PUnit (State G) → Prop}

/-! ### The programs of the model -/

lemma hold_bind (draw : G → Nat × G) (k : PUnit → Program PUnit (State G) PUnit) :
    (hold draw).bind k = .ask .load fun (u : State G) =>
      if u.left ≠ 0 then
        .ask (.update fun _ => ⟨(draw u.random).2, u.left - 1⟩) fun _ =>
          .ask (.sim (.schedule (.clamp (draw u.random).1) ())) fun _ => k ()
      else k () := by
  refine congrArg (Program.ask .load) (funext fun (u : State G) => ?_)
  show Program.bind (ite _ _ _) k = _
  split <;> rfl

lemma hold_eq_bind (draw : G → Nat × G) :
    hold draw = (hold draw).bind fun _ => .done () := by
  rw [hold_bind]
  rfl

lemma fill_succ (draw : G → Nat × G) (n : Nat) :
    fill draw (n + 1) = (hold draw).bind fun _ => .ask .load fun (u : State G) =>
      if u.left ≠ 0 then fill draw n else .done () := rfl

/-! ### Simulators of the model -/

/-- A simulator that holds events of the model only, all of them live, and that nobody stops,
watches or hands anything in at. -/
structure Steady (s : Simulator PUnit) : Prop where
  timely : ∃ keys, s.Timely keys
  alive : s.phase ≠ .destroyed
  waiting : s.inbox.events = #[]
  going : s.stopPending = false
  unobserved : s.observer = none
  holds : ∀ id ev, s.scheduler.get? id = some ev → ev.task = .user () ∧ ev.cancelled = false

lemma steady_create (kind : QueueKind) (buckets : Nat) :
    Steady (.create 0 kind buckets .sequential) where
  timely := ⟨[], Simulator.timely_create ..⟩
  alive h := by cases h
  waiting := rfl
  going := rfl
  unobserved := rfl
  holds id ev hev := by
    rw [Simulator.create, Scheduler.get?_empty] at hev
    cases hev

/-- Events are taken out of what is still to be scheduled, at most `n` of them and no fewer unless
nothing is left. -/
structure Added (n : Nat) (s : Simulator PUnit) (u : State G) (t : Simulator PUnit)
    (v : State G) : Prop where
  steady : Steady t
  phase : t.phase = s.phase
  eventCount : t.eventCount = s.eventCount
  account : t.pendingEvents + v.left = s.pendingEvents + u.left
  atMost : t.pendingEvents ≤ s.pendingEvents + n
  enough : v.left = 0 ∨ t.pendingEvents = s.pendingEvents + n

lemma Added.refl (h : Steady s) (u : State G) : Added 0 s u s u :=
  ⟨h, rfl, rfl, rfl, Nat.le_refl _, Or.inr rfl⟩

lemma Added.trans {r : Simulator PUnit} (h : Added n s u t v) (h' : Added k t v r w) :
    Added (n + k) s u r w where
  steady := h'.steady
  phase := h'.phase.trans h.phase
  eventCount := h'.eventCount.trans h.eventCount
  account := h'.account.trans h.account
  atMost := by
    have := h.atMost
    have := h'.atMost
    omega
  enough := by
    have := h.enough
    have := h'.enough
    have := h'.account
    have := h'.atMost
    omega

/-- No delay is negative, so what is scheduled is stored. -/
lemma Steady.schedule (h : Steady s) (hleft : u.left ≠ 0) (delay : Nat) (g : G) :
    Added 1 s u (s.schedule (.clamp delay) (.user ())).2 ⟨g, u.left - 1⟩ := by
  have hdelay : (Time.clamp delay).isNegative = false := by
    rw [Time.isNegative, decide_eq_false_iff_not, Time.ticks_clamp]
    omega
  have hstored : (s.schedule (.clamp delay) (.user ())).2 =
      (s.insert s.context (.clamp delay) (.user ())).2 := by
    rw [Simulator.schedule, Simulator.scheduleWith, if_neg h.alive, if_neg (by simp [hdelay])]
  rw [hstored]
  have hpending := Simulator.pendingEvents_insert s.context (.clamp delay) (.user ()) s
  obtain ⟨keys, htimely⟩ := h.timely
  refine ⟨⟨⟨keys, htimely.insert _ _ hdelay⟩, h.alive, h.waiting, h.going, h.unobserved, ?_⟩,
    rfl, rfl, ?_, Nat.le_of_eq hpending, Or.inr hpending⟩
  · intro id ev hev
    obtain ⟨-, -, hget⟩ := htimely.consistent.get?_insert
      { key := ⟨s.now + .clamp delay, s.sequences.next⟩, context := s.context, task := .user () }
    have hnew := (hget id).symm.trans hev
    split at hnew
    · obtain rfl := Option.some.inj hnew
      exact ⟨rfl, rfl⟩
    · exact h.holds id ev hnew
  · rw [hpending]
    dsimp only
    omega

lemma Steady.setContext (h : Steady s) (c : ContextId) : Steady { s with context := c } :=
  { h with timely := h.timely.imp fun _ htimely => { htimely with } }

/-- What was taken off the queue was live and of the model. -/
lemma Steady.take (h : Steady s) {id : EventId} {ev : Event (Task PUnit)}
    {q : Scheduler (Task PUnit)} (hnext : s.scheduler.removeNext = (some (id, ev), q))
    (c : ContextId) (count : Nat) :
    ev.task = .user () ∧ ev.cancelled = false ∧ s.pendingEvents = q.size + 1 ∧
      Steady { s with scheduler := q, now := ev.key.time, context := c, eventCount := count } := by
  obtain ⟨keys, htimely⟩ := h.timely
  obtain ⟨hget, hq⟩ := htimely.consistent.get?_removeNext hnext
  obtain ⟨htask, hlive⟩ := h.holds id ev hget
  refine ⟨htask, hlive, Simulator.pendingEvents_removeNext htimely.consistent hnext, ?_⟩
  refine ⟨⟨_, { (htimely.take hnext).2.1 with }⟩, h.alive, h.waiting, h.going, h.unobserved, ?_⟩
  intro id' ev' hev'
  have hold : q.get? id' = some ev' := hev'
  rw [hq] at hold
  split at hold
  · cases hold
  · exact h.holds id' ev' hold

/-- Nobody is told about an event that is about to start. -/
lemma Steady.launch_eq (h : Steady s) (id : EventId) (ev : Event (Task PUnit))
    (q : Scheduler (Task PUnit)) (m : Memory PUnit (State G))
    (rest : List (Frame PUnit (State G))) :
    Machine.launch (code draw) id ev { s with scheduler := q, now := ev.key.time } m rest =
      ⟨{ s with
          scheduler := q, now := ev.key.time, context := ev.context,
          eventCount := s.eventCount + 1 }, m,
        .task ev.task :: .restore s.context :: .loop :: rest, false⟩ := by
  rw [Machine.launch, Machine.notify, h.unobserved]

/-! ### The first events -/

/-- At most so many events are in flight. -/
def AtMost (limit : Nat) (a : Machine PUnit (State G)) : Prop := a.sim.pendingEvents ≤ limit

/-- A callback schedules the next event and goes on. -/
lemma concludes_hold {next : PUnit → Program PUnit (State G) PUnit} (h : Steady s)
    (hroom : s.pendingEvents < limit)
    (hnext : ∀ t v, Added 1 s m.user t v → Concludes (code draw) (AtMost limit) ending n
      ⟨t, { m with user := v }, .exec (next ()) :: rest, false⟩) :
    Concludes (code draw) (AtMost limit) ending (n + 3)
      ⟨s, m, .exec ((hold draw).bind next) :: rest, false⟩ := by
  have hbound : s.pendingEvents ≤ limit := Nat.le_of_lt hroom
  rw [hold_bind]
  refine .step hbound ?_
  show Concludes _ _ _ _ ⟨s, m, .exec (ite (m.user.left ≠ 0) _ _) :: rest, false⟩
  split
  · next hleft =>
    exact .step hbound (.step hbound (hnext _ _ (h.schedule hleft _ _)))
  · next hleft =>
    have hsame : Added 1 s m.user s m.user :=
      ⟨h, rfl, rfl, rfl, Nat.le_succ _, Or.inl (Decidable.not_not.mp hleft)⟩
    exact (hnext s m.user hsame).mono (Nat.le_add_right n 2)

lemma concludes_fill (h : Steady s) (hroom : s.pendingEvents + n ≤ limit)
    (hend : ∀ t v, Added n s m.user t v → ending ⟨t, { m with user := v }, [], false⟩) :
    Concludes (code draw) (AtMost limit) ending (4 * n + 1)
      ⟨s, m, [.exec (fill draw n)], false⟩ := by
  induction n generalizing s m with
  | zero => exact .step hroom (.rest rfl hroom (hend s m.user (.refl h m.user)))
  | succ n ih =>
    rw [fill_succ, show 4 * (n + 1) + 1 = 4 * n + 1 + 1 + 3 from rfl]
    refine concludes_hold h (by omega) fun t v hadded => ?_
    have hbound : t.pendingEvents ≤ limit := Nat.le_trans hadded.atMost (by omega)
    refine .step hbound ?_
    show Concludes _ _ _ _ ⟨t, { m with user := v }, [.exec (ite (v.left ≠ 0) _ _)], false⟩
    split
    · next hleft =>
      have hone := hadded.enough.resolve_left hleft
      refine ih hadded.steady (by omega) fun r w hmore => hend r w ?_
      rw [Nat.add_comm n 1]
      exact hadded.trans hmore
    · next hleft =>
      have hnone : v.left = 0 := Decidable.not_not.mp hleft
      have hall : Added (n + 1) s m.user t v :=
        { hadded with atMost := Nat.le_trans hadded.atMost (by omega), enough := Or.inl hnone }
      refine Concludes.mono ?_ (Nat.le_add_left 1 (4 * n))
      exact .step hbound (.rest rfl hbound (hend t v hall))

/-! ### The run -/

/-- Every event was dispatched, is in flight or is still to be scheduled. -/
structure Flight (events limit : Nat) (s : Simulator PUnit) (u : State G) : Prop where
  steady : Steady s
  account : s.eventCount + s.pendingEvents + u.left = events
  bound : s.pendingEvents ≤ limit
  /-- The queue does not run empty before everything was scheduled. -/
  going : s.pendingEvents = 0 → u.left = 0

lemma Flight.setRunning (h : Flight events limit s u) :
    Flight events limit { s with phase := .running } u :=
  { h with
    steady := { h.steady with
      timely := h.steady.timely.imp fun _ htimely => { htimely with }
      alive := fun hphase => by cases hphase } }

/-- Every event was dispatched. -/
structure Over (events : Nat) (a : Machine PUnit (State G)) : Prop where
  dispatched : a.sim.eventCount = events
  left : a.memory.user.left = 0

/-- A round of the loop ends the run, or it takes eight steps and leads to the next one. -/
lemma Flight.concludes_round (h : Flight events limit s m.user)
    (hnext : ∀ t v, Flight events limit t v →
      s.pendingEvents + m.user.left = t.pendingEvents + v.left + 1 →
      Concludes (code draw) (AtMost limit) (Over events) n
        ⟨t, { m with user := v }, [.loop, .exec (.done ())], false⟩) :
    Concludes (code draw) (AtMost limit) (Over events) (n + 8)
      ⟨s, m, [.loop, .exec (.done ())], false⟩ := by
  obtain ⟨keys, htimely⟩ := h.steady.timely
  refine .step h.bound (.step ?_ ?_)
  · show s.drainInbox.pendingEvents ≤ limit
    rw [Simulator.drainInbox_of_isEmpty h.steady.waiting]
    exact h.bound
  have hround := round_takeNext (code draw) m [.exec (.done ())] htimely.consistent htimely.now_le
  show Concludes _ _ _ _ (Machine.takeNext (code draw) s.drainInbox m [.exec (.done ())])
  rw [Simulator.drainInbox_of_isEmpty h.steady.waiting]
  generalize Machine.takeNext (code draw) s m [.exec (.done ())] = b at hround ⊢
  cases hround with
  | finish hnone hempty =>
    -- nobody asks for a stop, so the queue is empty
    have hpending : s.pendingEvents = 0 := by
      have hnil := hempty.resolve_left (by simp [h.steady.going])
      show s.scheduler.arena.live = 0
      rw [htimely.consistent.tidy.live_eq, hnil]
      rfl
    have hleft := h.going hpending
    have haccount := h.account
    refine Concludes.mono (.step h.bound (.rest rfl h.bound ⟨?_, hleft⟩))
      (by omega : 1 ≤ n + 6)
    show s.eventCount = events
    omega
  | pass hsome htake hcancelled =>
    obtain ⟨-, hlive, -⟩ := h.steady.take htake s.context s.eventCount
    cases hcancelled.symm.trans hlive
  | @start id ev q hsome htake hlive =>
    obtain ⟨htask, -, hpending, hsteady⟩ :=
      h.steady.take htake ev.context (s.eventCount + 1)
    rw [h.steady.launch_eq, htask, show n + 6 = n + 1 + 1 + 3 + 1 from rfl]
    have hbound := h.bound
    have haccount := h.account
    -- the event that was taken off makes room for the one that its callback schedules
    have hroom : q.size < limit := by omega
    refine .step (Nat.le_of_lt hroom) ?_
    show Concludes _ _ _ _ ⟨_, m, [.exec (hold draw), .restore s.context, .loop, _], false⟩
    rw [hold_eq_bind]
    refine concludes_hold hsteady hroom fun t v hadded => ?_
    have hroom' : t.pendingEvents ≤ limit := Nat.le_trans hadded.atMost hroom
    have hsteady := hadded.steady.setContext s.context
    refine .step hroom' (.step hroom' (hnext _ v ⟨hsteady, ?_, ?_, ?_⟩ ?_))
    · show t.eventCount + t.pendingEvents + v.left = events
      have hdispatched : t.eventCount = s.eventCount + 1 := hadded.eventCount
      have hsame : t.pendingEvents + v.left = q.size + m.user.left := hadded.account
      omega
    · have hmost : t.pendingEvents ≤ q.size + 1 := hadded.atMost
      exact Nat.le_trans hmost (by omega)
    · intro hpos
      have henough : v.left = 0 ∨ t.pendingEvents = q.size + 1 := hadded.enough
      have hpos : t.pendingEvents = 0 := hpos
      omega
    · show s.pendingEvents + m.user.left = t.pendingEvents + v.left + 1
      have hsame : t.pendingEvents + v.left = q.size + m.user.left := hadded.account
      omega

/-- From the top of a round the run comes to its end: each event that is in flight or still to be
scheduled takes eight steps. -/
lemma concludes_loop (h : Flight events limit s m.user)
    (hn : s.pendingEvents + m.user.left = n) :
    Concludes (code draw) (AtMost limit) (Over events) (8 * n + 8)
      ⟨s, m, [.loop, .exec (.done ())], false⟩ := by
  induction n generalizing s m with
  | zero => exact h.concludes_round fun t v _ hless => absurd hless (by omega)
  | succ n ih =>
    refine h.concludes_round fun t v hflight hless => ?_
    exact ih (m := { m with user := v }) hflight (show t.pendingEvents + v.left = n by omega)

/-! ### All kinds of queues -/

/-- No program of the model looks at the queue. -/
lemma alike_hold_bind {next : PUnit → Program PUnit (State G) PUnit}
    (h : (next ()).Alike Eq (next ())) :
    ((hold draw).bind next).Alike Eq ((hold draw).bind next) := by
  rw [hold_bind]
  refine .ask .load (by simp) fun (u v : State G) huv => ?_
  obtain rfl : u = v := huv
  show Program.Alike Eq (ite (u.left ≠ 0) _ _) (ite (u.left ≠ 0) _ _)
  split
  · refine .update (fun u v _ => rfl) (.ask _ (by simp) fun _ _ _ => h)
  · exact h

lemma alike_fill (draw : G → Nat × G) (n : Nat) : (fill draw n).Alike Eq (fill draw n) := by
  induction n with
  | zero => exact .done ()
  | succ n ih =>
    rw [fill_succ]
    refine alike_hold_bind (.ask .load (by simp) fun (u v : State G) huv => ?_)
    obtain rfl : u = v := huv
    show Program.Alike Eq (ite (u.left ≠ 0) _ _) (ite (u.left ≠ 0) _ _)
    split
    · exact ih
    · exact .done ()

lemma blind_code (draw : G → Nat × G) : (code draw).Blind Eq where
  routine _ := by
    rw [show (code draw).routine _ = hold draw from rfl, hold_eq_bind]
    exact alike_hold_bind (.done ())
  observe _ _ _ u v huv := ⟨huv, rfl⟩

lemma alike_runFor (draw : G → Nat × G) {a b : Machine PUnit (State G)} (h : a.Alike Eq b)
    (n : Nat) :
    (runFor (code draw) n a).Alike Eq (runFor (code draw) n b) := by
  rw [Machine.runFor_eq_play, Machine.runFor_eq_play]
  refine (h.observations_eq (blind_code draw) fun mv hmv => ?_).2
  rw [(List.mem_replicate.mp hmv).2]
  trivial

/-- What the user recorded is the same, too. -/
lemma eq_of_alike {a b : Machine PUnit (State G)} (h : a.Alike Eq b) :
    a.sim.Alike b.sim ∧ b.memory = a.memory := by
  obtain ⟨hsim, hmemory, -, -⟩ := h
  generalize b.memory = m' at hmemory ⊢
  cases hmemory with
  | intro huser =>
    subst huser
    exact ⟨hsim, rfl⟩

/-- Simulators that were put back go on alike. -/
lemma alike_load {a b : Machine PUnit (State G)} (h : a.Alike Eq b)
    (w w' : World PUnit (State G)) {p : Program PUnit (State G) PUnit} (hp : p.Alike Eq p) :
    (Machine.load a.sim (w.put 0 a.sim a.memory).memory p).Alike Eq
      (.load b.sim (w'.put 0 b.sim b.memory).memory p) := by
  obtain ⟨hsim, hmemory⟩ := eq_of_alike h
  have hput : (w'.put 0 b.sim b.memory).memory = (w.put 0 a.sim a.memory).memory := by
    rw [World.put, World.put, hsim.inbox_eq, hmemory]
  rw [hput]
  exact ⟨hsim, .intro _ rfl, .cons (.exec hp) .nil, rfl⟩

/-! ### The model -/

section

variable (draw : G → Nat × G) (g : G) (events population : Nat) (kind : QueueKind)

/-- The machine that is about to schedule the first events. -/
def filling : Machine PUnit (State G) :=
  .load (.create 0 kind Scheduler.defaultBuckets .sequential) (opened g events kind).memory
    (fill draw (max population 1))

/-- The machine that is about to run the simulator. -/
def running : Machine PUnit (State G) :=
  let a := runFor (code draw) (stepLimit events population) (filling draw g events population kind)
  .load a.sim (filled draw g events population kind).memory (.run fun _ => .done ())

lemma sim?_opened : (opened g events kind).sim? 0 =
    some (.create 0 kind Scheduler.defaultBuckets .sequential) :=
  World.sim?_add_self rfl _

lemma sim?_filled :
    let a := runFor (code draw) (stepLimit events population)
      (filling draw g events population kind)
    let w := filled draw g events population kind
    w = (opened g events kind).put 0 a.sim a.memory ∧ w.sim? 0 = some a.sim ∧
      w.memory.inboxes.size = w.sims.size :=
  World.sim?_performFor (sim?_opened g events kind) rfl _ _ _

lemma sim?_finished :
    let b := runFor (code draw) (stepLimit events population)
      (running draw g events population kind)
    let w := finished draw g events population kind
    w = (filled draw g events population kind).put 0 b.sim b.memory ∧ w.sim? 0 = some b.sim := by
  obtain ⟨-, hsim, hsize⟩ := sim?_filled draw g events population kind
  obtain ⟨hput, hsim', -⟩ := World.sim?_performFor hsim hsize (stepLimit events population)
    (code draw) (.run fun _ => .done ())
  exact ⟨hput, hsim'⟩

lemma runOn_eq :
    let b := runFor (code draw) (stepLimit events population)
      (running draw g events population kind)
    runOn draw g events population kind = ⟨b.sim.eventCount, b.sim.now⟩ := by
  intro b
  rw [runOn, (sim?_finished draw g events population kind).2]

lemma concludes_filling :
    Concludes (code draw) (AtMost (max population 1))
      (fun a => a.sim.phase = .notRunning ∧ a.sim.eventCount = 0 ∧
        Flight events (max population 1) a.sim a.memory.user)
      (stepLimit events population) (filling draw g events population kind) := by
  refine Concludes.mono (concludes_fill (steady_create kind _) ?_ ?_)
    (by rw [stepLimit]; omega : 4 * max population 1 + 1 ≤ stepLimit events population)
  · exact Nat.le_of_eq (Nat.zero_add _)
  · intro t v hadded
    have haccount : t.pendingEvents + v.left = 0 + events := hadded.account
    have hmost : t.pendingEvents ≤ 0 + max population 1 := hadded.atMost
    have henough : v.left = 0 ∨ t.pendingEvents = 0 + max population 1 := hadded.enough
    have hcount : t.eventCount = 0 := hadded.eventCount
    refine ⟨hadded.phase, hcount, hadded.steady, ?_, ?_, fun hnone => ?_⟩
    · show t.eventCount + t.pendingEvents + v.left = events
      omega
    · exact Nat.le_trans hmost (Nat.le_of_eq (Nat.zero_add _))
    · show v.left = 0
      have hnone : t.pendingEvents = 0 := hnone
      omega

lemma concludes_running :
    Concludes (code draw) (AtMost (max population 1)) (Over events) (stepLimit events population)
      (running draw g events population kind) := by
  obtain ⟨-, hphase, hcount, hflight⟩ :=
    (concludes_filling draw g events population kind).at_the_end (Nat.le_refl _)
  obtain ⟨hput, -⟩ := sim?_filled draw g events population kind
  rw [running, hput]
  generalize runFor _ _ (filling draw g events population kind) = a at hphase hcount hflight ⊢
  generalize hm : (World.put 0 a.sim a.memory (opened g events kind)).memory = m
  have huser : m.user = a.memory.user := by rw [← hm, World.put]
  rw [← huser] at hflight
  have hrun : Machine.step (code draw) (.load a.sim m (.run fun _ => .done ())) =
      ⟨{ a.sim with phase := .running }, m, [.loop, .exec (.done ())], false⟩ := by
    rw [Machine.load, Machine.step, Machine.stepFrame, Machine.exec, hphase]
  refine Concludes.mono (.step hflight.bound ?_)
    (?_ : 8 * (a.sim.pendingEvents + m.user.left) + 8 + 1 ≤ _)
  · rw [hrun]
    exact concludes_loop hflight.setRunning rfl
  · have haccount := hflight.account
    rw [stepLimit]
    omega

/-- Two kinds of queues have the same events in flight. -/
lemma alike_filling (kind' : QueueKind) :
    (filling draw g events population kind).Alike Eq (filling draw g events population kind') where
  sim := Simulator.alike_create ..
  memory := .intro _ rfl
  stack := .cons (.exec (alike_fill draw _)) .nil
  broken := rfl

lemma alike_running (kind' : QueueKind) :
    (running draw g events population kind).Alike Eq (running draw g events population kind') := by
  have halike := alike_runFor draw (alike_filling draw g events population kind kind')
    (stepLimit events population)
  rw [running, running, (sim?_filled draw g events population kind).1,
    (sim?_filled draw g events population kind').1]
  exact alike_load halike _ _ (.run fun _ => .done ())

/-- Whatever the delays are, scheduling the first events and then the run come to their end. The run
dispatches every event, and none is left to be scheduled. At no time are more events in flight than
were asked for, or more than one if that was none. What comes of the run, and with it the time at
its end, does not depend on the kind of the queue. -/
theorem hold_dispatches_all :
    let steps := stepLimit events population
    let limit := max population 1
    let w := opened g events kind
    let w' := filled draw g events population kind
    ∃ s t, w.sim? 0 = some s ∧ w'.sim? 0 = some t ∧
      let a := Machine.load s w.memory (fill draw limit)
      let b := Machine.load t w'.memory (.run fun _ => .done ())
      (∀ n, (runFor (code draw) n a).sim.pendingEvents ≤ limit ∧
        (runFor (code draw) n b).sim.pendingEvents ≤ limit) ∧
      (runFor (code draw) steps a).isDone = true ∧ (runFor (code draw) steps b).isDone = true ∧
      (Machine.invoked (code draw) (List.replicate steps .step) b).length = events ∧
      (finished draw g events population kind).user.left = 0 ∧
      (runOn draw g events population kind).dispatched = events ∧
      ∀ kind', runOn draw g events population kind' = runOn draw g events population kind := by
  intro steps limit w w'
  obtain ⟨-, hfilled, -⟩ := sim?_filled draw g events population kind
  refine ⟨_, _, sim?_opened g events kind, hfilled, ?_⟩
  intro a b
  have hfilling := concludes_filling draw g events population kind
  have hrunning := concludes_running draw g events population kind
  obtain ⟨hadone, -, hcount, hflight⟩ := hfilling.at_the_end (Nat.le_refl _)
  obtain ⟨hbdone, hover⟩ := hrunning.at_the_end (Nat.le_refl _)
  refine ⟨fun n => ⟨hfilling.on_the_way n, hrunning.on_the_way n⟩, hadone, hbdone, ?_, ?_, ?_, ?_⟩
  · obtain ⟨keys, htimely⟩ := hflight.steady.timely
    have hinvoked := Machine.eventCount_play (code draw) (List.replicate steps .step)
      (a := b) htimely rfl
    rw [← Machine.runFor_eq_play, show b.sim.eventCount = 0 from hcount, Nat.zero_add] at hinvoked
    exact hinvoked.symm.trans hover.dispatched
  · rw [(sim?_finished draw g events population kind).1]
    exact hover.left
  · rw [runOn_eq]
    exact hover.dispatched
  · intro kind'
    obtain ⟨hsim, -⟩ := eq_of_alike
      (alike_runFor draw (alike_running draw g events population kind kind') steps)
    rw [runOn_eq, runOn_eq, hsim.now_eq, hsim.eventCount_eq]

end

end Hold

end EventKernel
