import EventKernel.Proofs.Machine.Context
import EventKernel.Proofs.Machine.Inbox
import EventKernel.Proofs.Machine.Outside
import EventKernel.Proofs.Simulator.Owner

/-!
# Where the contexts of events come from

An event is scheduled under a context that is given with the call, or under the current one. The
current one is that of the event whose callback makes the call. So the context of an event is the
one given at the beginning of a chain of callbacks, each of which scheduled the next event without
giving another context, or none if there was no callback at the beginning.

A log of a run records for each event of the queue how it came to its context. What follows from
the log alone, through chains of any length, is what the events carry.
-/

namespace EventKernel

open Simulator (issueTurns Timely Sound Told)
open Machine (InContext)

variable {K U : Type} {s t : Simulator K} {turns more : List (Turn K)} {c : ContextId}

/-! ### Events that are new -/

/-- Whether a turn gives out the handle of an event of the queue. -/
def Turn.isBirth (x : Turn K) : Bool :=
  match x.fate, x.id with
  | .issued, .queued _ _ => true
  | _, _ => false

lemma Turn.isBirth_iff {x : Turn K} :
    x.isBirth = true ↔ x.fate = .issued ∧ ∃ slot n, x.id = .queued slot n := by
  obtain ⟨id, fate, ev⟩ := x
  cases fate <;> cases id <;> simp [isBirth]

/-- Whether all events of the queue that are new have the same context. -/
def Carry (c : ContextId) (turns : List (Turn K)) : Prop :=
  ∀ x ∈ turns, x.isBirth = true → x.event.context = c

lemma carry_nil : Carry c ([] : List (Turn K)) := fun x hx => by cases hx

lemma Carry.append (h : Carry c turns) (h' : Carry c more) : Carry c (turns ++ more) := by
  intro x hx
  rcases List.mem_append.mp hx with hx | hx
  · exact h x hx
  · exact h' x hx

lemma carry_of_not_issued (h : ∀ x ∈ turns, x.fate ≠ .issued) : Carry c turns :=
  fun x hx hbirth => absurd (Turn.isBirth_iff.mp hbirth).1 (h x hx)

namespace Simulator

lemma Sound.carry_scheduleWith (h : s.Sound) (context : ContextId) (delay : Time)
    (task : Task K) : Carry context (issueTurns (s.scheduleWith context delay task)) := by
  rcases h.scheduleWith_cases context delay task with ⟨e, he, -⟩ | ⟨id, t, ht, -, -, hturns, -⟩
  · rw [he]
    exact carry_nil
  · rw [ht, hturns]
    intro x hx _
    rw [List.mem_singleton.mp hx]

lemma Sound.carry_schedule (h : s.Sound) (hc : s.context = c) (delay : Time) (task : Task K) :
    Carry c (issueTurns (s.schedule delay task)) := by
  rw [← hc]
  exact h.carry_scheduleWith s.context delay task

lemma carry_scheduleDestroy (task : Task K) : Carry c (issueTurns (s.scheduleDestroy task)) := by
  rw [scheduleDestroy]
  split
  · exact carry_nil
  · intro x hx hbirth
    obtain ⟨-, slot, n, hid⟩ := Turn.isBirth_iff.mp hbirth
    rw [(of_mem_turn hx).1] at hid
    cases hid

lemma carry_cancelTurns (id : EventId) : Carry c (s.cancelTurns id) := by
  rw [cancelTurns]
  split
  · refine carry_of_not_issued fun x hx => ?_
    rw [(of_mem_turn hx).2]
    exact Fate.noConfusion
  · exact carry_nil

lemma carry_removeTurns (id : EventId) : Carry c (s.removeTurns id) := by
  rw [removeTurns]
  split
  · exact carry_of_not_issued fun x hx => (of_mem_turn_leave (Or.inl rfl) hx).2
  · exact carry_nil

/-- Behind a course of changes of events. -/
lemma EventCourse.sound (h : EventCourse s turns t) (hs : s.Sound) : t.Sound :=
  (hs.passage h.course).sound

end Simulator

open Simulator (carry_cancelTurns)

/-! ### Timers schedule under the current context -/

lemma Watchdog.carry_pingTurns (w : Nat) (delay : Time) (d : Watchdog K) (h : s.Sound) :
    Carry s.context (d.pingTurns w delay s) := by
  rw [pingTurns]
  split
  · exact carry_nil
  · split
    · exact h.carry_schedule rfl _ _
    · split
      · exact carry_nil
      · split
        · have hcourse := s.course_cancel d.event
          exact (carry_cancelTurns _).append
            ((hcourse.sound h).carry_schedule hcourse.context_eq _ _)
        · exact carry_nil

lemma Watchdog.carry_expireTurns (w : Nat) (d : Watchdog K) (h : s.Sound) :
    Carry s.context (d.expireTurns w s) := by
  rw [expireTurns]
  split
  · exact carry_nil
  · split
    · exact h.carry_schedule rfl _ _
    · exact carry_nil

lemma Trickle.carry_beginTurns (n : Nat) (d : Trickle K) (h : s.Sound) (hc : s.context = c) :
    Carry c (d.beginTurns n s) := by
  rw [beginTurns]
  refine (h.carry_schedule hc _ _).append ?_
  have hcourse := s.course_schedule d.interval (.trickleInterval n)
  generalize s.schedule d.interval (.trickleInterval n) = first at hcourse
  obtain ⟨_ | _, t⟩ := first
  · exact carry_nil
  · exact (hcourse.sound h).carry_schedule (hcourse.context_eq.trans hc) _ _

lemma Trickle.carry_resetTurns (n : Nat) (d : Trickle K) (h : s.Sound) :
    Carry s.context (d.resetTurns n s) := by
  have hcourse := d.course_stop s
  exact ((carry_cancelTurns _).append (carry_cancelTurns _)).append
    (Trickle.carry_beginTurns n _ (hcourse.sound h) hcourse.context_eq)

/-! ### Requests -/

/-- How an event comes to its context. -/
inductive Origin where
  | given (context : ContextId)
  /-- It is that of the event whose callback schedules the event. -/
  | inherited (parent : Option EventId)

/-- The context that an event gets while another one is the current one. -/
def Origin.under (current : ContextId) : Origin → ContextId
  | given context => context
  | inherited _ => current

/-- How the events that a request schedules come to their context. A stop belongs to nobody. -/
def Request.origin (parent : Option EventId) : Request K U → Origin
  | .sim (.scheduleWith context _ _) => .given context
  | .sim (.stopAfter _) => .given .none
  | _ => .inherited parent

lemma SimRequest.carry_turns (parent : Option EventId) (r : SimRequest K) (h : s.Sound) :
    Carry (((.sim r : Request K U).origin parent).under s.context) (r.turns s) := by
  cases r with
  | schedule | scheduleNow => exact h.carry_schedule rfl _ _
  | scheduleWith context delay k => exact h.carry_scheduleWith context delay _
  | stopAfter delay => exact h.carry_scheduleWith .none delay _
  | scheduleDestroy k => exact Simulator.carry_scheduleDestroy _
  | cancel id => exact carry_cancelTurns id
  | remove id => exact Simulator.carry_removeTurns id
  | isExpired | delayLeft | identity | now | context | phase | eventCount | pendingEvents
  | isFinished | stop | kind | setScheduler | sync | boundLookahead | observe | describe =>
    exact carry_nil

lemma WatchdogRequest.carry_turns (w : Nat) (r : WatchdogRequest K) (d : Watchdog K)
    (h : s.Sound) : Carry s.context (r.turns w d s) := by
  cases r with
  | ping delay => exact d.carry_pingTurns w delay h
  | setFunction | cancel | info => exact carry_nil

lemma TrickleRequest.carry_turns (n : Nat) (r : TrickleRequest K) (d : Trickle K) (h : s.Sound) :
    Carry s.context (r.turns n d s) := by
  cases r with
  | enable => exact d.drawn.carry_beginTurns n h rfl
  | reset => exact d.carry_resetTurns n h
  | inconsistent =>
    rw [turns, Trickle.inconsistentTurns]
    split
    · exact d.carry_resetTurns n h
    · exact carry_nil
  | stop => exact (carry_cancelTurns _).append (carry_cancelTurns _)
  | setFunction | consistent | info => exact carry_nil

lemma carry_flatMap {α : Type} {l : List α} {f : α → List (Turn K)}
    (h : ∀ y ∈ l, Carry c (f y)) : Carry c (l.flatMap f) := by
  intro x hx
  obtain ⟨y, hy, hx⟩ := List.mem_flatMap.mp hx
  exact h y hy x hx

lemma Request.carry_turns (parent : Option EventId) (r : Request K U) (m : Memory K U)
    (h : s.Sound) : Carry ((r.origin parent).under s.context) (r.turns s m) := by
  cases r with
  | sim r => exact r.carry_turns parent h
  | watchdog w r => exact carry_flatMap fun d _ => r.carry_turns w d h
  | trickle n r => exact carry_flatMap fun d _ => r.carry_turns n d h
  | inbox | newWatchdog | dropWatchdog | newTrickle | dropTrickle | load | update => exact carry_nil

lemma Task.carry_turns (task : Task K) (m : Memory K U) (h : s.Sound) :
    Carry s.context (task.turns s m) := by
  cases task with
  | watchdog w => exact carry_flatMap fun d _ => d.carry_expireTurns w h
  | trickleInterval n => exact carry_flatMap fun d _ => Trickle.carry_beginTurns n _ h rfl
  | user | stop | trickleFire => exact carry_nil

/-! ### Frames -/

namespace Frame

/-- How the events that a frame schedules come to their context. -/
def origin (parent : Option EventId) : Frame K U → Origin
  | .exec (.ask r _) => r.origin parent
  | _ => .inherited parent

/-- The events of the queue that a frame schedules, with how they come to their context. What waited
in the inbox brings its own. -/
def schedules (parent : Option EventId) (s : Simulator K) (m : Memory K U) :
    Frame K U → List (EventId × Origin)
  | .loop => s.drainInsertions.map fun x => (x.id, .given x.event.context)
  | f => ((f.turns s m).filter (·.isBirth)).map fun x => (x.id, f.origin parent)

lemma carry_turns (parent : Option EventId) (f : Frame K U) (m : Memory K U) (h : s.Sound)
    (hf : f ≠ .loop) : Carry ((f.origin parent).under s.context) (f.turns s m) := by
  cases f with
  | loop => exact absurd rfl hf
  | exec p =>
    cases p with
    | ask r next => exact r.carry_turns parent m h
    | done | perform | run | destroy => exact carry_nil
  | task task => exact task.carry_turns m h
  | next =>
    refine carry_flatMap fun p _ => carry_of_not_issued fun x hx => ?_
    exact (Simulator.of_mem_takeTurn hx).2
  | teardown =>
    refine carry_flatMap fun id _ => carry_of_not_issued fun x hx => ?_
    exact (Simulator.of_mem_takeTurn hx).2
  | clear =>
    refine carry_flatMap fun id _ => carry_of_not_issued fun x hx => ?_
    exact (Simulator.of_mem_turn_leave (Or.inr rfl) hx).2
  | restore | rearmWatchdog | rearmTrickle | close => exact carry_nil

end Frame

/-- Turns and entries of a log that tell the same about new events. -/
structure Accounts (parent : Option EventId) (current : ContextId) (turns : List (Turn K))
    (entries : List (EventId × Origin)) : Prop where
  born : ∀ x ∈ turns, x.isBirth = true →
    ∃ o, (x.id, o) ∈ entries ∧ x.event.context = o.under current
  logged : ∀ e ∈ entries, ∃ x ∈ turns, x.isBirth = true ∧ x.id = e.1 ∧
    x.event.context = e.2.under current ∧ ∀ p, e.2 = .inherited p → p = parent

variable {parent : Option EventId} {current : ContextId}

lemma accounts_nil : Accounts parent current ([] : List (Turn K)) [] where
  born x hx := by cases hx
  logged e he := by cases he

/-- Events with the same origin. -/
lemma accounts_of_carry {o : Origin} (h : Carry (o.under current) turns)
    (ho : ∀ p, o = .inherited p → p = parent) :
    Accounts parent current turns ((turns.filter (·.isBirth)).map fun x => (x.id, o)) where
  born x hx hbirth :=
    ⟨o, List.mem_map.mpr ⟨x, List.mem_filter.mpr ⟨hx, hbirth⟩, rfl⟩, h x hx hbirth⟩
  logged e he := by
    obtain ⟨x, hx, rfl⟩ := List.mem_map.mp he
    obtain ⟨hx, hbirth⟩ := List.mem_filter.mp hx
    exact ⟨x, hx, hbirth, rfl, h x hx hbirth, ho⟩

/-- Events from outside. -/
lemma accounts_insertions (l : List (Insertion K)) (hl : ∀ x ∈ l, ∃ slot n, x.id = .queued slot n) :
    Accounts parent current (l.map Insertion.turn)
      (l.map fun x => (x.id, .given x.event.context)) where
  born y hy hbirth := by
    obtain ⟨x, hx, rfl⟩ := List.mem_map.mp hy
    exact ⟨_, List.mem_map.mpr ⟨x, hx, rfl⟩, rfl⟩
  logged e he := by
    obtain ⟨x, hx, rfl⟩ := List.mem_map.mp he
    exact ⟨x.turn, List.mem_map_of_mem hx, Turn.isBirth_iff.mpr ⟨rfl, hl x hx⟩, rfl, rfl,
      fun p hp => by cases hp⟩

lemma Request.parent_of_origin {r : Request K U} {p : Option EventId}
    (h : r.origin parent = .inherited p) : p = parent := by
  cases r with
  | sim r => cases r <;> cases h <;> rfl
  | _ =>
    cases h
    rfl

lemma Frame.parent_of_origin {f : Frame K U} {p : Option EventId}
    (h : f.origin parent = .inherited p) : p = parent := by
  cases f with
  | exec q =>
    cases q with
    | ask r next => exact Request.parent_of_origin h
    | _ =>
      cases h
      rfl
  | _ =>
    cases h
    rfl

lemma Frame.accounts {keys : List EventKey} (parent : Option EventId) (f : Frame K U)
    (m : Memory K U) (h : s.Sound) (htimely : s.Timely keys) :
    Accounts parent s.context (f.turns s m) (f.schedules parent s m) := by
  by_cases hf : f = .loop
  · subst hf
    rw [turns, h.drainTurns_eq htimely.delay_nonneg]
    exact accounts_insertions _ fun x hx => Simulator.queued_of_mem_drainInsertions hx
  · have hcarry := f.carry_turns parent m h hf
    have haccounts := accounts_of_carry hcarry fun p hp => f.parent_of_origin hp
    cases f with
    | loop => exact absurd rfl hf
    | exec | task | next | restore | rearmWatchdog | rearmTrickle | teardown | close | clear =>
      exact haccounts

/-! ### Descent -/

/-- What context an event has by a log: the one that it was given, or that of the event whose
callback scheduled it, or none if there is no such event. -/
inductive Descends (log : List (EventId × Origin)) : EventId → ContextId → Prop where
  | given {id : EventId} {c : ContextId} (h : (id, .given c) ∈ log) : Descends log id c
  | outside {id : EventId} (h : (id, .inherited none) ∈ log) : Descends log id .none
  | inherited {id parent : EventId} {c : ContextId} (h : (id, .inherited (some parent)) ∈ log)
      (hparent : Descends log parent c) : Descends log id c

lemma Descends.mono {log log' : List (EventId × Origin)} {id : EventId} (h : Descends log id c)
    (hsub : ∀ e ∈ log, e ∈ log') : Descends log' id c := by
  induction h with
  | given h => exact .given (hsub _ h)
  | outside h => exact .outside (hsub _ h)
  | inherited h hparent ih => exact .inherited (hsub _ h) ih

/-- Whether the event of a handle was given out in some turns, with this context. -/
def BornUnder (turns : List (Turn K)) (id : EventId) (c : ContextId) : Prop :=
  ∃ x ∈ turns, x.isBirth = true ∧ x.id = id ∧ x.event.context = c

lemma BornUnder.append {id : EventId} (h : BornUnder turns id c) (more : List (Turn K)) :
    BornUnder (turns ++ more) id c := by
  obtain ⟨x, hx, hbirth⟩ := h
  exact ⟨x, List.mem_append_left more hx, hbirth⟩

/-- An origin explains a context, by what is known of the events before. -/
def Origin.Explains (turns : List (Turn K)) (c : ContextId) : Origin → Prop
  | given context => c = context
  | inherited none => c = .none
  | inherited (some parent) => BornUnder turns parent c

lemma Origin.Explains.append {o : Origin} (h : o.Explains turns c) (more : List (Turn K)) :
    o.Explains (turns ++ more) c := by
  obtain context | _ | parent := o
  · exact h
  · exact h
  · exact BornUnder.append h more

/-- A log gives the contexts of all events of the queue that there were in a run. -/
structure Traced (turns : List (Turn K)) (log : List (EventId × Origin))
    (current : Option (EventId × Event (Task K))) : Prop where
  descends : ∀ x ∈ turns, x.isBirth = true → Descends log x.id x.event.context
  logged : ∀ e ∈ log, ∃ x ∈ turns, x.isBirth = true ∧ x.id = e.1 ∧
    e.2.Explains turns x.event.context
  current : ∀ p, current = some p → BornUnder turns p.1 p.2.context

lemma traced_nil : Traced ([] : List (Turn K)) [] none where
  descends x hx := by cases hx
  logged e he := by cases he
  current p hp := by cases hp

/-- The current context is explained by the event whose callback runs. -/
lemma Traced.explains {log : List (EventId × Origin)} {a : Machine K U}
    {running : Option (EventId × Event (Task K))} (h : Traced turns log running)
    (hc : a.InContext running) {o : Origin}
    (ho : ∀ p, o = .inherited p → p = running.map (·.1)) :
    o.Explains turns (o.under a.sim.context) := by
  obtain context | p := o
  · rfl
  · obtain rfl := ho p rfl
    cases hc with
    | outside hcontext => exact hcontext
    | inside hcontext =>
      show BornUnder turns _ a.sim.context
      rw [hcontext]
      exact h.current _ rfl

/-- What an event that is explained descends from. -/
lemma Traced.descends_of_explains {log more : List (EventId × Origin)}
    {running : Option (EventId × Event (Task K))} (h : Traced turns log running) {id : EventId}
    {o : Origin} (hmem : (id, o) ∈ log ++ more) (ho : o.Explains turns c) :
    Descends (log ++ more) id c := by
  obtain context | _ | parent := o
  · obtain rfl : c = context := ho
    exact .given hmem
  · obtain rfl : c = .none := ho
    exact .outside hmem
  · obtain ⟨y, hy, hbirth, rfl, rfl⟩ := ho
    exact .inherited hmem ((h.descends y hy hbirth).mono fun e he => List.mem_append_left more he)

/-- New events and new entries, under the current context. -/
lemma Traced.append {log entries : List (EventId × Origin)} {a : Machine K U}
    {running running' : Option (EventId × Event (Task K))} (h : Traced turns log running)
    (hc : a.InContext running)
    (haccounts : Accounts (running.map (·.1)) a.sim.context more entries)
    (hrunning : ∀ p, running' = some p → BornUnder (turns ++ more) p.1 p.2.context) :
    Traced (turns ++ more) (log ++ entries) running' where
  descends x hx hbirth := by
    rcases List.mem_append.mp hx with hx | hx
    · exact (h.descends x hx hbirth).mono fun e he => List.mem_append_left entries he
    · obtain ⟨o, hmem, hcontext⟩ := haccounts.born x hx hbirth
      obtain ⟨-, -, -, -, -, ho⟩ := haccounts.logged _ hmem
      rw [hcontext]
      exact h.descends_of_explains (List.mem_append_right log hmem) (h.explains hc ho)
  logged e he := by
    rcases List.mem_append.mp he with he | he
    · obtain ⟨x, hx, hbirth, hid, hexplains⟩ := h.logged e he
      exact ⟨x, List.mem_append_left more hx, hbirth, hid, hexplains.append more⟩
    · obtain ⟨x, hx, hbirth, hid, hcontext, ho⟩ := haccounts.logged e he
      refine ⟨x, List.mem_append_right turns hx, hbirth, hid, ?_⟩
      rw [hcontext]
      exact (h.explains hc ho).append more
  current := hrunning

/-- No handle is given out twice. -/
lemma Simulator.Told.bornUnder_unique (h : Told turns s) {id : EventId} {c' : ContextId}
    (hborn : BornUnder turns id c) (hborn' : BornUnder turns id c') : c = c' := by
  obtain ⟨x, hx, hxbirth, hxid, rfl⟩ := hborn
  obtain ⟨y, hy, hybirth, hyid, rfl⟩ := hborn'
  have hmem : ∀ z ∈ turns, z.isBirth = true → z ∈ turns.filter (·.fate = .issued) :=
    fun z hz hbirth => List.mem_filter.mpr ⟨hz, by simp [(Turn.isBirth_iff.mp hbirth).1]⟩
  rw [List.inj_on_of_nodup_map h.nodup_issued (hmem x hx hxbirth) (hmem y hy hybirth)
    (by rw [hxid, hyid])]

/-- What an event descends from by the log is what it carries. -/
lemma Traced.descends_iff {log : List (EventId × Origin)}
    {running : Option (EventId × Event (Task K))} (h : Traced turns log running)
    (ht : Told turns s) {id : EventId} {c' : ContextId} (hborn : BornUnder turns id c') :
    Descends log id c ↔ c = c' := by
  constructor
  · intro hdescends
    -- along the chain; each handle is given out once, so the entry in the log is that of the event
    induction hdescends generalizing c' with
    | given hmem | outside hmem =>
      obtain ⟨x, hx, hbirth, hid, hexplains⟩ := h.logged _ hmem
      exact ht.bornUnder_unique ⟨x, hx, hbirth, hid, hexplains⟩ hborn
    | inherited hmem hparent ih =>
      obtain ⟨x, hx, hbirth, hid, hexplains⟩ := h.logged _ hmem
      exact (ih hexplains).trans (ht.bornUnder_unique ⟨x, hx, hbirth, hid, rfl⟩ hborn)
  · rintro rfl
    obtain ⟨x, hx, hbirth, rfl, rfl⟩ := hborn
    exact h.descends x hx hbirth

/-- What is held of an event of the queue has the context it was scheduled under. -/
lemma Simulator.Told.bornUnder_of_find? (h : Told turns s) {slot n : Nat} {ev : Event (Task K)}
    (hev : s.find? (.queued slot n) = some ev) : BornUnder turns (.queued slot n) ev.context := by
  have hlife := h.life (.queued slot n)
  have hsub : ∀ x ∈ turnsOf (.queued slot n) turns, x ∈ turns := fun x hx => (mem_turnsOf.mp hx).1
  rw [hev] at hlife
  generalize turnsOf (.queued slot n) turns = own at hlife hsub
  cases hlife with
  | pending => exact ⟨_, hsub _ List.mem_cons_self, rfl, rfl, rfl⟩
  | cancelled => exact ⟨_, hsub _ List.mem_cons_self, rfl, rfl, rfl⟩

namespace Machine

variable {a : Machine K U} {keys : List EventKey} {log : List (EventId × Origin)}
  {running : Option (EventId × Event (Task K))}

/-! ### Runs -/

/-- The events of the queue that a move schedules, with how they come to their context. -/
def schedules (running : Option (EventId × Event (Task K))) (a : Machine K U) :
    Move K U → List (EventId × Origin)
  | .step => a.stack.head?.toList.flatMap fun f =>
    f.schedules (running.map (·.1)) a.sim a.memory
  | .remote _ | .enter .. => []

/-- All events of the queue that were scheduled in the course of a run, with how they came to their
context. -/
def originLog (code : Code K U) :
    List (Move K U) → Machine K U → Option (EventId × Event (Task K)) → List (EventId × Origin)
  | [], _, _ => []
  | mv :: moves, a, running =>
    a.schedules running mv ++ originLog code moves (move code a mv) (a.currentAfter running mv)

lemma accounts_move (mv : Move K U) (hs : a.sim.Sound) (h : a.sim.Timely keys) :
    Accounts (running.map (·.1)) a.sim.context (a.turns mv) (a.schedules running mv) := by
  cases mv with
  | remote | enter => exact accounts_nil
  | step =>
    obtain ⟨s, m, stack, broken⟩ := a
    cases stack with
    | nil => exact accounts_nil
    | cons f rest =>
      rw [turns_step, schedules, List.head?_cons, Option.toList_some, List.flatMap_singleton]
      exact f.accounts (running.map (·.1)) m hs h

/-- The event whose callback starts was scheduled before. -/
lemma bornUnder_of_currentAfter (h : Traced turns log running) (ht : a.sim.Told turns)
    (mv : Move K U) {p : EventId × Event (Task K)} (hp : a.currentAfter running mv = some p) :
    BornUnder turns p.1 p.2.context := by
  cases mv with
  | remote | enter => exact h.current p hp
  | step =>
    rw [currentAfter] at hp
    cases htaken : a.taken? with
    | none =>
      rw [htaken] at hp
      split at hp
      · next hsome => cases hsome
      · cases hp
      · exact h.current p hp
    | some q =>
      rw [htaken] at hp
      dsimp only at hp
      split at hp
      · exact h.current p hp
      · obtain rfl := Option.some.inj hp
        obtain ⟨hfind, slot, n, hid⟩ :=
          ht.sound.find?_of_upcoming? (upcoming?_of_taken? htaken)
        rw [hid] at hfind ⊢
        exact ht.bornUnder_of_find? hfind

lemma traced_play (code : Code K U) (moves : List (Move K U)) (h : Traced turns log running)
    (hc : a.InContext running) (ho : a.Orderly) (ht : a.sim.Told turns)
    (htimely : a.sim.Timely keys) (hb : a.broken = false) :
    Traced (turns ++ chronicle code moves a) (log ++ originLog code moves a running)
      (currentEvent code moves a running) := by
  induction moves generalizing a keys turns log running with
  | nil =>
    rw [chronicle, originLog, List.append_nil, List.append_nil]
    exact h
  | cons mv moves ih =>
    obtain ⟨hb', htimely', -⟩ := timely_move code mv htimely hb
    have h' := h.append hc (accounts_move mv ht.sound htimely)
      fun p hp => (bornUnder_of_currentAfter h ht mv hp).append (a.turns mv)
    rw [chronicle, originLog, ← List.append_assoc, ← List.append_assoc]
    exact ih h' (hc.move code mv ho htimely hb) (ho.move code mv htimely hb)
      (told_move code mv htimely hb ht) htimely' hb'

/-! ### The inbox -/

/-- The events that a move hands in at the simulator. -/
def handsIn (code : Code K U) (a : Machine K U) : Move K U → List (RemoteEvent (Task K))
  | .step => (a.stack.head?.toList.flatMap fun f => f.handsIn a.sim) ++
    (a.messages code).flatMap fun msg => msg.handsIn a.sim.identity
  | .remote r => r.handsIn
  | .enter .. => []

/-- All events that were handed in at the simulator in the course of a run. -/
def handedIn (code : Code K U) : List (Move K U) → Machine K U → List (RemoteEvent (Task K))
  | [], _ => []
  | mv :: moves, a => a.handsIn code mv ++ handedIn code moves (move code a mv)

lemma mem_inbox_of_gains {b b' : Inbox (Task K)} {evs : List (RemoteEvent (Task K))}
    (h : b.Gains evs b') {ev : RemoteEvent (Task K)} (hev : ev ∈ b'.events) :
    ev ∈ b.events ∨ ev ∈ evs := by
  rw [← Array.mem_toList_iff, h.events] at hev
  rcases List.mem_append.mp hev with hev | hev
  · exact Or.inl (Array.mem_toList_iff.mp hev)
  · split at hev
    · cases hev
    · exact Or.inr hev

lemma mem_inbox_post (msgs : List (Message K)) {ev : RemoteEvent (Task K)}
    (hev : ev ∈ (a.post msgs).sim.inbox.events) :
    ev ∈ a.sim.inbox.events ∨ ev ∈ msgs.flatMap fun msg => msg.handsIn a.sim.identity := by
  induction msgs generalizing a with
  | nil => exact Or.inl hev
  | cons msg msgs ih =>
    rw [post_cons] at hev
    have hidentity : (a.post [msg]).sim.identity = a.sim.identity :=
      (course_post [msg] a).unchanged.1
    rcases ih hev with hev | hev
    · rcases mem_inbox_of_gains (gains_post msg a) hev with hev | hev
      · exact Or.inl hev
      · exact Or.inr (List.mem_append_left _ hev)
    · rw [hidentity] at hev
      exact Or.inr (List.mem_append_right _ hev)

/-- No frame puts into the inbox what was not handed in. -/
lemma Passes.mem_inbox {f : Frame K U} (h : Passes f s t) {ev : RemoteEvent (Task K)}
    (hev : ev ∈ t.inbox.events) : ev ∈ s.inbox.events ∨ ev ∈ f.handsIn s := by
  have hbehind : ev ∈ (f.inserts s).map (·.event) ++ f.discards s ++ t.inbox.events.toList :=
    List.mem_append_right _ (Array.mem_toList_iff.mpr hev)
  rw [← h.events] at hbehind
  rcases List.mem_append.mp hbehind with hbefore | hhanded
  · exact Or.inl (Array.mem_toList_iff.mp hbefore)
  · split at hhanded
    · cases hhanded
    · exact Or.inr hhanded

/-- What waits in the inbox behind a move waited there before, or is handed in by it. -/
lemma mem_inbox_move (code : Code K U) (mv : Move K U) (h : a.sim.Timely keys)
    (hb : a.broken = false) {ev : RemoteEvent (Task K)}
    (hev : ev ∈ (move code a mv).sim.inbox.events) :
    ev ∈ a.sim.inbox.events ∨ ev ∈ a.handsIn code mv := by
  cases mv with
  | remote r => exact mem_inbox_of_gains (r.gains_apply a.sim.inbox) hev
  | enter f p =>
    rw [move] at hev
    split at hev <;> exact Or.inl hev
  | step =>
    have hidentity : (step code.mute a).sim.identity = a.sim.identity :=
      identity_move code.mute .step h hb
    rw [move, step_eq_post code h] at hev
    rcases mem_inbox_post (a.messages code) hev with hev | hev
    · obtain ⟨s, m, stack, broken⟩ := a
      cases stack with
      | nil => exact Or.inl hev
      | cons f rest =>
        rcases (passes_stepFrame code f s m rest).mem_inbox hev with hev | hev
        · exact Or.inl hev
        · refine Or.inr (List.mem_append_left _ ?_)
          rwa [List.head?_cons, Option.toList_some, List.flatMap_singleton]
    · rw [hidentity] at hev
      exact Or.inr (List.mem_append_right _ hev)

lemma mem_inbox_play (code : Code K U) (moves : List (Move K U)) (h : a.sim.Timely keys)
    (hb : a.broken = false) {ev : RemoteEvent (Task K)}
    (hev : ev ∈ (play code moves a).sim.inbox.events) :
    ev ∈ a.sim.inbox.events ∨ ev ∈ handedIn code moves a := by
  induction moves generalizing a keys with
  | nil => exact Or.inl hev
  | cons mv moves ih =>
    obtain ⟨hb', htimely', -⟩ := timely_move code mv h hb
    rcases ih htimely' hb' hev with hev | hev
    · rcases mem_inbox_move code mv h hb hev with hev | hev
      · exact Or.inl hev
      · exact Or.inr (List.mem_append_left _ hev)
    · exact Or.inr (List.mem_append_right _ hev)

/-- What is taken off the queue has the context it was scheduled under. -/
lemma bornUnder_of_taken (code : Code K U) (moves : List (Move K U)) (h : a.sim.Timely keys)
    (hb : a.broken = false) (ht : a.sim.Told turns) {p : EventId × Event (Task K)}
    (hp : p ∈ taken code moves a) :
    BornUnder (turns ++ chronicle code moves a) p.1 p.2.context := by
  obtain ⟨hmem, slot, n, hid⟩ := mem_chronicle_of_taken code moves h hb ht hp
  have hlife := (told_play code moves h hb ht).life p.1
  have hissued :=
    hlife.issued_of_mem (mem_turnsOf.mpr ⟨List.mem_append_right turns hmem, rfl⟩)
  exact ⟨_, (mem_turnsOf.mp hissued).1, Turn.isBirth_iff.mpr ⟨rfl, slot, n, hid⟩, rfl, rfl⟩

/-- While a callback runs that a loop has started, the context is that of its event, the one that
was started last; whenever no such callback runs, there is none. So every event of the queue carries
the context that it was given when it was scheduled, or, if it was given none, that of the event
whose callback scheduled it, through chains of any length: what descends along the log of the calls
is what was issued, what the simulator holds and what is taken off the queue. What comes from the
inbox carries the context it was handed in with. -/
theorem context_discipline (code : Code K U) (identity : Nat) (kind : QueueKind) (buckets : Nat)
    (sync : SyncMode) (m : Memory K U) (moves : List (Move K U)) :
    let a : Machine K U := idle identity kind buckets sync m
    let b := play code moves a
    let current := currentEvent code moves a none
    let log := originLog code moves a none
    (∀ p, current = some p → b.sim.context = p.2.context ∧ b.sim.phase = .running ∧
      (invoked code moves a).getLast? = some p ∧
      ∃ above below, b.stack = above ++ .restore .none :: .loop :: below) ∧
    (current = none → b.sim.context = .none ∧ ∀ c, .restore c ∉ b.stack) ∧
    (∀ x ∈ chronicle code moves a, x.isBirth = true →
      ∀ c, Descends log x.id c ↔ c = x.event.context) ∧
    (∀ slot n ev, b.sim.find? (.queued slot n) = some ev →
      ∀ c, Descends log (.queued slot n) c ↔ c = ev.context) ∧
    (∀ p ∈ taken code moves a, ∀ c, Descends log p.1 c ↔ c = p.2.context) ∧
    ∀ ev ∈ b.sim.inbox.events, ev ∈ handedIn code moves a := by
  intro a b current log
  have hstart : a.sim.Timely [] := Simulator.timely_create ..
  have hturn := inTurn_idle identity kind buckets sync m
  have hb : b.Orderly := (hturn.play code moves hstart rfl).orderly
  have hcurrent : b.InContext current :=
    (inContext_idle identity kind buckets sync m).play code moves hturn.orderly hstart rfl
  have htold : a.sim.Told [] := Simulator.told_create ..
  have ht : b.sim.Told (chronicle code moves a) := told_play code moves hstart rfl htold
  have htraced : Traced (chronicle code moves a) log current :=
    traced_play code moves traced_nil (inContext_idle identity kind buckets sync m) hturn.orderly
      htold hstart rfl
  refine ⟨fun p hp => ?_, fun hnone => ?_, ?_, ?_, ?_, ?_⟩
  · rw [hp] at hcurrent
    cases hcurrent with
    | @inside _ above below hcontext hstack =>
      have hloop : b.Looping := ⟨.loop, by simp [hstack], rfl⟩
      have hlast := getLast?_of_currentEvent code moves hp
      refine ⟨hcontext, hloop.phase_eq hb, hlast.resolve_right ?_, above, below, hstack⟩
      exact fun h => absurd h.2 (by simp)
  · rw [hnone] at hcurrent
    cases hcurrent with
    | outside hcontext hstack => exact ⟨hcontext, hstack⟩
  · exact fun x hx hbirth c => htraced.descends_iff ht ⟨x, hx, hbirth, rfl, rfl⟩
  · exact fun slot n ev hev c => htraced.descends_iff ht (ht.bornUnder_of_find? hev)
  · exact fun p hp c => htraced.descends_iff ht (bornUnder_of_taken code moves hstart rfl htold hp)
  · intro ev hev
    refine (mem_inbox_play code moves hstart rfl hev).resolve_left fun hbefore => ?_
    cases Array.mem_toList_iff.mpr hbefore

end Machine

end EventKernel
