import EventKernel.Proofs.Machine.Clock

/-!
# The state of the user

The state of the user changes in two ways only: a program changes it by a request of its own, and
the observer changes it in front of every callback that the loop invokes. So an observer that keeps
a record knows all invocations, in order.
-/

namespace EventKernel.Machine

open Simulator (Timely)

variable {K U : Type} {keys : List EventKey}

/-- What an observer makes of the state of the user. -/
def observed (code : Code K U) (s : Simulator K) (info : EventInfo) (u : U) : U :=
  match s.observer with
  | none => u
  | some k => (code.observe k s.identity info u).1

def infoOf (p : EventId × Event (Task K)) : EventInfo := ⟨p.1, p.2.key.time, p.2.context⟩

/-- What a frame itself makes of the state of the user. -/
def ownUpdate : Frame K U → U → U
  | .exec (.ask (.update f) _), u => f u
  | _, u => u

/-- What a move makes of the state of the user, apart from what the observer does. -/
def withoutObserver (a : Machine K U) : Move K U → U
  | .step => a.stack.head?.elim a.memory.user fun f => ownUpdate f a.memory.user
  | .remote _ => a.memory.user
  | .enter f _ => if a.isDone then (f a.memory).user else a.memory.user

lemma user_askInbox (target : Nat) (r : InboxRequest K) (s : Simulator K) (m : Memory K U) :
    (m.askInbox target r s).2.2.user = m.user := by
  rw [(m.askInbox_unchanged target r s).2]

/-- What the observer sends when it is told about an event. -/
def observerMessages (code : Code K U) (s : Simulator K) (info : EventInfo) (u : U) :
    List (Message K) :=
  match s.observer with
  | none => []
  | some k => (code.observe k s.identity info u).2

lemma notify_eq_send (code : Code K U) (info : EventInfo) (s : Simulator K) (m : Memory K U) :
    notify code info s m =
      send s { m with user := observed code s info m.user }
        (observerMessages code s info m.user) := by
  rw [notify, observed, observerMessages]
  cases s.observer <;> rfl

lemma user_notify (code : Code K U) (info : EventInfo) (s : Simulator K) (m : Memory K U) :
    (notify code info s m).2.user = observed code s info m.user := by
  rw [notify_eq_send, (send_unchanged _ _ _).2]

lemma user_start (code : Code K U) (t : Task K) (s : Simulator K) (m : Memory K U)
    (rest : List (Frame K U)) : (start code t s m rest).memory.user = m.user := by
  cases t with
  | user | stop => rfl
  | watchdog w =>
    rw [start]
    split
    · rfl
    · split <;> rfl
  | trickleInterval t =>
    rw [start]
    split <;> rfl
  | trickleFire t =>
    rw [start]
    split
    · rfl
    · split <;> rfl

lemma user_exec (p : Program K U PUnit) (s : Simulator K) (m : Memory K U)
    (rest : List (Frame K U)) :
    (exec p s m rest).memory.user = ownUpdate (.exec p) m.user := by
  cases p with
  | done | perform => rfl
  | ask r next =>
    cases r with
    | inbox target r => exact user_askInbox target r s m
    | watchdog w r =>
      simp only [exec, Request.apply]
      cases m.watchdog? w <;> rfl
    | trickle t r =>
      simp only [exec, Request.apply]
      cases m.trickle? t <;> rfl
    | sim | newWatchdog | dropWatchdog | newTrickle | dropTrickle | load | update => rfl
  | run next =>
    rw [exec]
    split <;> rfl
  | destroy next =>
    rw [exec]
    split <;> rfl

/-- Only the observer and the program itself change the state of the user. -/
lemma user_stepFrame (code : Code K U) (f : Frame K U) (s : Simulator K) (m : Memory K U)
    (rest : List (Frame K U)) (hf : f ≠ .next) :
    (stepFrame code f s m rest).memory.user = ownUpdate f m.user := by
  cases f with
  | exec p => exact user_exec p s m rest
  | task t => exact user_start code t s m rest
  | next => exact absurd rfl hf
  | teardown =>
    simp only [stepFrame, nextTeardown]
    split <;> rfl
  | loop | restore | rearmWatchdog | rearmTrickle | close | clear => rfl


/-! ### Moves and runs -/

/-- In front of a callback the observer is told about the event, and the event is counted. -/
lemma launch_eq (code : Code K U) (id : EventId) (ev : Event (Task K)) (s : Simulator K)
    (m : Memory K U) (rest : List (Frame K U)) :
    (∃ context, (launch code id ev s m rest).stack =
      .task ev.task :: .restore context :: .loop :: rest) ∧
      (launch code id ev s m rest).sim.context = ev.context ∧
      (launch code id ev s m rest).sim.now = s.now ∧
      (launch code id ev s m rest).sim.eventCount = s.eventCount + 1 ∧
      (launch code id ev s m rest).memory.user = observed code s (infoOf (id, ev)) m.user := by
  have hsim := (launch_unchanged code id ev s m rest).1
  refine ⟨⟨_, rfl⟩, rfl, ?_, ?_, user_notify code (infoOf (id, ev)) s m⟩
  · rw [hsim]
  · rw [hsim]

/-- What a step that takes a live event off the queue does. -/
lemma step_of_taken? (code : Code K U) {a : Machine K U} (h : a.sim.Timely keys)
    (hb : a.broken = false) {id : EventId} {ev : Event (Task K)} (htaken : a.taken? = some (id, ev))
    (hlive : ev.cancelled = false) :
    (∃ context rest, a.stack = .next :: rest ∧
      (step code a).stack = .task ev.task :: .restore context :: .loop :: rest) ∧
      (step code a).sim.context = ev.context ∧ (step code a).sim.now = ev.key.time ∧
      (step code a).sim.eventCount = a.sim.eventCount + 1 ∧
      (step code a).memory.user = observed code a.sim (infoOf (id, ev)) a.memory.user := by
  cases moveCase code .step h hb with
  | course hnext hnone hbroken hcourse =>
    rw [takenBy?, htaken] at hnone
    cases hnone
  | @round rest hstep hstack hup hturns hround =>
    rw [takenBy?, htaken] at hup
    rw [move] at hround
    generalize step code a = b at hround ⊢
    cases hround with
    | finish hnone hempty =>
      rw [hnone] at hup
      cases hup
    | pass hsome hnext hcancelled =>
      rw [← hup] at hsome
      obtain ⟨rfl, rfl⟩ := Prod.mk.inj (Option.some.inj hsome)
      rw [hlive] at hcancelled
      cases hcancelled
    | @start id' ev' q hsome hnext hlive' =>
      rw [← hup] at hsome
      obtain ⟨rfl, rfl⟩ := Prod.mk.inj (Option.some.inj hsome)
      obtain ⟨⟨context, hlaunched⟩, hlaunch⟩ :=
        launch_eq code id ev { a.sim with scheduler := q, now := ev.key.time } a.memory rest
      exact ⟨⟨context, rest, hstack, hlaunched⟩, hlaunch⟩

/-- A step that leaves the loop while no stop is pending finishes a run that has nothing left. -/
lemma finish_of_return (code : Code K U) {a : Machine K U} (h : a.sim.Timely keys)
    {rest : List (Frame K U)} (hstack : a.stack = .next :: rest)
    (hstop : a.sim.stopPending = false) (hreturn : (step code a).stack = rest) :
    a.sim.scheduler.arena.entries = [] ∧ step code a = ⟨finishRun a.sim, a.memory, rest, false⟩ := by
  have hround := round_takeNext code a.memory rest h.consistent h.now_le
  rw [step_of_stack code hstack, stepFrame] at hreturn ⊢
  generalize takeNext code a.sim a.memory rest = b at hround hreturn ⊢
  cases hround with
  | finish hnone hempty =>
    refine ⟨hempty.resolve_left fun hpending => ?_, rfl⟩
    rw [hstop] at hpending
    cases hpending
  | pass => exact absurd hreturn (List.cons_ne_self _ _)
  | @start id ev q =>
    obtain ⟨⟨context, hlaunched⟩, -⟩ :=
      launch_eq code id ev { a.sim with scheduler := q, now := ev.key.time } a.memory rest
    have hlength := congrArg List.length (hlaunched.symm.trans hreturn)
    simp only [List.length_cons] at hlength
    omega

lemma eventCount_move (code : Code K U) (mv : Move K U) {a : Machine K U}
    (h : a.sim.Timely keys) (hb : a.broken = false) :
    (move code a mv).sim.eventCount =
      a.sim.eventCount + ((a.takenBy? mv).toList.filter (·.2.cancelled == false)).length := by
  cases moveCase code mv h hb with
  | course hnext hnone hbroken hcourse =>
    rw [hnone, hcourse.unchanged.2.2]
    rfl
  | @round rest hstep hstack htaken hturns hround =>
    rw [htaken]
    generalize move code a mv = b at hround ⊢
    cases hround with
    | finish hnone hempty =>
      rw [hnone]
      rfl
    | pass hsome hnext hcancelled =>
      rw [hsome, Option.toList_some, List.filter_singleton, hcancelled]
      rfl
    | start hsome hnext hlive =>
      rw [hsome, Option.toList_some, List.filter_singleton, hlive]
      exact (launch_eq ..).2.2.2.1

lemma user_of_not_next (code : Code K U) (mv : Move K U) {a : Machine K U}
    (hnext : ∀ rest, mv = .step → a.stack ≠ .next :: rest) :
    (move code a mv).memory.user = a.withoutObserver mv := by
  cases mv with
  | step =>
    obtain ⟨s, m, stack, broken⟩ := a
    cases stack with
    | nil => rfl
    | cons f rest =>
      refine user_stepFrame code f s m rest ?_
      rintro rfl
      exact hnext rest rfl rfl
  | remote r => rfl
  | enter f p =>
    rw [move, withoutObserver]
    split <;> rfl

lemma user_move (code : Code K U) (mv : Move K U) {a : Machine K U} (h : a.sim.Timely keys)
    (hb : a.broken = false) :
    (move code a mv).memory.user =
      ((a.takenBy? mv).toList.filter (·.2.cancelled == false)).foldl
        (fun u p => observed code a.sim (infoOf p) u) (a.withoutObserver mv) := by
  cases moveCase code mv h hb with
  | course hnext hnone hbroken hcourse =>
    rw [hnone]
    exact user_of_not_next code mv hnext
  | @round rest hstep hstack htaken hturns hround =>
    have hown : a.withoutObserver mv = a.memory.user := by
      rw [hstep, withoutObserver, hstack]
      rfl
    rw [htaken, hown]
    generalize move code a mv = b at hround ⊢
    cases hround with
    | finish hnone hempty =>
      rw [hnone]
      rfl
    | pass hsome hnext hcancelled =>
      rw [hsome, Option.toList_some, List.filter_singleton, hcancelled]
      rfl
    | start hsome hnext hlive =>
      rw [hsome, Option.toList_some, List.filter_singleton, hlive]
      exact (launch_eq ..).2.2.2.2

/-- The observer is told nothing unless a callback is about to start. -/
lemma user_of_not_live (code : Code K U) (mv : Move K U) {a : Machine K U} (h : a.sim.Timely keys)
    (hb : a.broken = false) (hmv : ∀ p ∈ a.takenBy? mv, p.2.cancelled = true) :
    (move code a mv).memory.user = a.withoutObserver mv := by
  rw [user_move code mv h hb]
  cases htaken : a.takenBy? mv with
  | none => rfl
  | some p =>
    rw [Option.toList_some, List.filter_singleton, hmv p htaken]
    rfl

lemma eventCount_play (code : Code K U) (moves : List (Move K U)) {a : Machine K U}
    (h : a.sim.Timely keys) (hb : a.broken = false) :
    (play code moves a).sim.eventCount = a.sim.eventCount + (invoked code moves a).length := by
  induction moves generalizing a keys with
  | nil => rfl
  | cons mv moves ih =>
    obtain ⟨hb', h', -⟩ := timely_move code mv h hb
    rw [play_cons, ih h' hb', eventCount_move code mv h hb]
    simp only [invoked, takenWith_cons, List.length_append, Nat.add_assoc]

/-- An observer that keeps a record, throughout a run in which nothing else touches the record, is
told exactly about the events whose callbacks are invoked, in order. -/
lemma record_play (code : Code K U) {k : K} {record : U → List EventInfo}
    (hrecord : ∀ n info u, record (code.observe k n info u).1 = record u ++ [info])
    (moves : List (Move K U)) {a : Machine K U} (h : a.sim.Timely keys) (hb : a.broken = false)
    (halong : Along code (fun a mv =>
      a.sim.observer = some k ∧ record (a.withoutObserver mv) = record a.memory.user) moves a) :
    record (play code moves a).memory.user =
      record a.memory.user ++ (invoked code moves a).map infoOf := by
  induction moves generalizing a keys with
  | nil => exact (List.append_nil _).symm
  | cons mv moves ih =>
    obtain ⟨hb', h', -⟩ := timely_move code mv h hb
    obtain ⟨⟨hobserver, hown⟩, halong⟩ := halong
    rw [play_cons, ih h' hb' halong, user_move code mv h hb, ← hown]
    simp only [invoked, takenWith_cons, List.map_append, ← List.append_assoc]
    congr 1
    cases a.takenBy? mv with
    | none => exact (List.append_nil _).symm
    | some p =>
      rw [Option.toList_some, List.filter_singleton]
      cases p.2.cancelled with
      | true => exact (List.append_nil _).symm
      | false =>
        show record (observed code a.sim (infoOf p) _) = _
        rw [observed, hobserver]
        exact hrecord ..

end EventKernel.Machine
