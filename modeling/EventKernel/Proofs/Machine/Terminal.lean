import EventKernel.Proofs.Machine.Arrival
import EventKernel.Proofs.Machine.Reentry

/-!
# The end of a simulator

When a call to tear a simulator down has come back, the simulator is torn down for good: it holds no
event and accepts none, neither from its callbacks nor through its inbox, nothing is started any
more, and no call brings it back to life.

The inbox is closed before what is left is dropped, and pushes that were admitted in between hold
the lock that is needed to drop it. So nothing can slip in behind the end.
-/

namespace EventKernel

open Simulator (issueTurns Timely)

variable {K U : Type} {s : Simulator K} {turns : List (Turn K)}

/-! ### Simulators that are torn down and hold nothing -/

/-- A simulator that was torn down and holds no event. -/
structure Simulator.Spent (s : Simulator K) : Prop where
  sound : s.Sound
  phase : s.phase = .destroyed
  none : ∀ id, s.find? id = none

lemma Simulator.issueTurns_of_destroyed (hphase : s.phase = .destroyed) (context : ContextId)
    (delay : Time) (task : Task K) : issueTurns (s.scheduleWith context delay task) = [] := by
  rw [scheduleWith, if_pos hphase]
  rfl

namespace Simulator.Spent

variable (h : s.Spent)
include h

lemma cancel_eq (id : EventId) : s.cancel id = (false, s) :=
  (h.sound.find?_cancel id).2.1 (by rw [h.none]; rfl)

lemma cancelTurns_eq_nil (id : EventId) : s.cancelTurns id = [] := by
  rw [cancelTurns, h.cancel_eq]
  rfl

lemma removeTurns_eq_nil (id : EventId) : s.removeTurns id = [] := by
  rw [removeTurns, (h.sound.find?_remove id).2.1 (h.none id)]
  rfl

lemma teardown_eq_nil : s.teardown = [] := by
  cases hl : s.teardown with
  | nil => rfl
  | cons ev l =>
    have hnot := find?_destroy_eq_none_iff.mp (h.none (.destroy ev.sequence))
    rw [hl] at hnot
    exact absurd List.mem_cons_self hnot

lemma handles_eq_nil : s.handles = [] := by
  rw [List.eq_nil_iff_forall_not_mem]
  intro id hid
  obtain ⟨ev, hev⟩ := mem_handles_iff.mp hid
  rw [h.none] at hev
  cases hev

lemma pendingEvents_eq_zero : s.pendingEvents = 0 := by
  have hnil := (List.append_eq_nil_iff.mp h.handles_eq_nil).1
  exact h.sound.consistent.size_eq_zero_iff.mpr (List.map_eq_nil_iff.mp hnil)

lemma isExpired_eq (id : EventId) : s.isExpired id = true := by
  rw [h.sound.isExpired_eq, h.none]
  rfl

lemma pingTurns_eq_nil (w : Nat) (delay : Time) (d : Watchdog K) : d.pingTurns w delay s = [] := by
  have hissue : issueTurns (s.schedule delay (.watchdog w)) = [] :=
    issueTurns_of_destroyed h.phase ..
  rw [Watchdog.pingTurns, h.cancelTurns_eq_nil, h.cancel_eq, hissue]
  simp

lemma beginTurns_eq_nil (n : Nat) (d : Trickle K) : d.beginTurns n s = [] := by
  rw [Trickle.beginTurns, schedule, scheduleWith, if_pos h.phase]
  rfl

lemma stopTurns_eq_nil (d : Trickle K) : d.stopTurns s = [] := by
  rw [Trickle.stopTurns, h.cancelTurns_eq_nil, h.cancel_eq, h.cancelTurns_eq_nil]
  rfl

lemma resetTurns_eq_nil (n : Nat) (d : Trickle K) : d.resetTurns n s = [] := by
  rw [Trickle.resetTurns, h.stopTurns_eq_nil, Trickle.stop, h.cancel_eq, h.cancel_eq,
    h.beginTurns_eq_nil]
  rfl

/-- Whatever is asked of a simulator that is spent, nothing happens to any event. -/
lemma simRequest_turns_eq_nil (r : SimRequest K) : r.turns s = [] := by
  cases r with
  | schedule | scheduleNow | scheduleWith | stopAfter => exact issueTurns_of_destroyed h.phase ..
  | scheduleDestroy k =>
    rw [SimRequest.turns, scheduleDestroy, if_pos h.phase]
    rfl
  | cancel id => exact h.cancelTurns_eq_nil id
  | remove id => exact h.removeTurns_eq_nil id
  | isExpired | delayLeft | identity | now | context | phase | eventCount | pendingEvents
  | isFinished | stop | kind | setScheduler | sync | boundLookahead | observe | describe => rfl

lemma watchdogRequest_turns_eq_nil (w : Nat) (r : WatchdogRequest K) (d : Watchdog K) :
    r.turns w d s = [] := by
  cases r with
  | ping delay => exact h.pingTurns_eq_nil w delay d
  | setFunction | cancel | info => rfl

lemma trickleRequest_turns_eq_nil (n : Nat) (r : TrickleRequest K) (d : Trickle K) :
    r.turns n d s = [] := by
  cases r with
  | enable => exact h.beginTurns_eq_nil n _
  | reset => exact h.resetTurns_eq_nil n d
  | inconsistent =>
    rw [TrickleRequest.turns, Trickle.inconsistentTurns, h.resetTurns_eq_nil, ite_self]
  | stop => exact h.stopTurns_eq_nil d
  | setFunction | consistent | info => rfl

lemma request_turns_eq_nil (r : Request K U) (m : Memory K U) : r.turns s m = [] := by
  cases r with
  | sim r => exact h.simRequest_turns_eq_nil r
  | watchdog w r =>
    exact List.flatMap_eq_nil_iff.mpr fun d _ => h.watchdogRequest_turns_eq_nil w r d
  | trickle n r =>
    exact List.flatMap_eq_nil_iff.mpr fun d _ => h.trickleRequest_turns_eq_nil n r d
  | inbox | newWatchdog | dropWatchdog | newTrickle | dropTrickle | load | update => rfl

lemma frame_turns_eq_nil {f : Frame K U} (hf : f.IsOuter) (m : Memory K U) : f.turns s m = [] := by
  cases f with
  | exec p =>
    cases p with
    | ask r next => exact h.request_turns_eq_nil r m
    | done | perform | run | destroy => rfl
  | task t =>
    cases t with
    | user k => rfl
    | stop | watchdog | trickleInterval | trickleFire => exact hf.elim
  | teardown =>
    rw [Frame.turns, teardownTurns, reached, h.teardown_eq_nil]
    rfl
  | close => rfl
  | clear =>
    rw [Frame.turns, dropTurns, h.handles_eq_nil]
    rfl
  | loop | next | restore | rearmWatchdog | rearmTrickle => exact hf.elim

end Simulator.Spent

/-! ### A machine at the end -/

namespace Machine

variable {a : Machine K U} {keys : List EventKey}

/-- A simulator that was torn down is spent, once what was left has been dropped. -/
def Emptied (a : Machine K U) : Prop :=
  a.sim.phase = .destroyed → a.stack.head? = some .clear ∨ ∀ id, a.sim.find? id = none

/-- Nothing happens to the events of a spent simulator, and it stays spent. -/
lemma spent_move (code : Code K U) (mv : Move K U) (ho : a.Orderly) (hc : a.Closing)
    (h : a.sim.Timely keys) (hb : a.broken = false) (hs : a.sim.Spent) :
    a.turns mv = [] ∧ (move code a mv).sim.Spent := by
  have hturns : a.turns mv = [] := by
    obtain ⟨s, m, stack, broken⟩ := a
    cases mv with
    | remote | enter => rfl
    | step =>
      cases stack with
      | nil => rfl
      | cons f rest =>
        have houter := ho.nested.isOuter (by rw [hs.phase]; exact Phase.noConfusion)
        rw [turns_step]
        exact hs.frame_turns_eq_nil (houter f List.mem_cons_self) m
  have hpassage := passage_move code mv h hb hs.sound
  refine ⟨hturns, hpassage.sound, destroyed_move code mv ho hc hs.phase, ?_⟩
  intro id
  rw [hpassage.kept id (by rw [hturns]; rfl), hs.none]

lemma Emptied.move (code : Code K U) (mv : Move K U) (he : a.Emptied) (ho : a.Orderly)
    (hc : a.Closing) (h : a.sim.Timely keys) (hb : a.broken = false) (hs : a.sim.Sound) :
    (Machine.move code a mv).Emptied := by
  intro hphase
  by_cases hbefore : a.sim.phase = .destroyed
  · rcases he hbefore with hclear | hnone
    · obtain ⟨s, m, stack, broken⟩ := a
      cases stack with
      | nil => cases hclear
      | cons f rest =>
        obtain rfl : f = .clear := Option.some.inj hclear
        cases mv with
        | remote | enter => exact Or.inl rfl
        | step => exact Or.inr fun id => by cases id <;> rfl
    · exact Or.inr (spent_move code mv ho hc h hb ⟨hs, hbefore, hnone⟩).2.none
  · obtain ⟨s, m, stack, broken⟩ := a
    cases mv with
    | remote => exact absurd hphase hbefore
    | enter =>
      rw [Machine.move] at hphase
      split at hphase <;> exact absurd hphase hbefore
    | step =>
      cases stack with
      | nil => exact absurd hphase hbefore
      | cons f rest =>
        obtain ⟨top, hleaves, -⟩ := leaves_stepFrame code f h m rest
        rcases hleaves.destroyed hphase with hwas | rfl
        · exact absurd hwas hbefore
        · exact Or.inl rfl

end Machine

/-! ### Among other threads -/

namespace Concurrent

variable {code : Code K U} {c c' : Concurrent K U} {h more : History K}

/-- An action makes a move of the machine, or it reaches the inbox and nothing else. -/
lemma Effect.machine_cases (he : Effect code c more c') :
    (∃ mv, c'.machine = Machine.move code.mute c.machine mv ∧ more = c.machine.tells mv) ∨
      (∃ b m,
        c'.machine = { c.machine with sim := { c.machine.sim with inbox := b }, memory := m } ∧
        ∀ ev ∈ b.events, ev ∈ c.machine.sim.inbox.events ∨ ∃ k, ev.task = .user k) ∧
      more.turns = [] ∧ more.taken = [] := by
  cases he with
  | idle | call | lock | pass | refuse | accept | reject =>
    exact Or.inr ⟨⟨c.machine.sim.inbox, c.machine.memory, rfl, fun ev hev => Or.inl hev⟩, rfl, rfl⟩
  | append =>
    refine Or.inr ⟨⟨_, c.machine.memory, rfl, ?_⟩, rfl, rfl⟩
    intro ev hev
    rcases Array.mem_push.mp hev with hev | rfl
    · exact Or.inl hev
    · exact Or.inr ⟨_, rfl⟩
  | @send msg =>
    obtain ⟨hsim, -⟩ := Machine.send_unchanged [msg] c.machine.sim c.machine.memory
    refine Or.inr ⟨⟨(c.machine.post [msg]).sim.inbox, (c.machine.post [msg]).memory, ?_,
      (Machine.course_post [msg] c.machine).mem_inbox⟩, rfl, rfl⟩
    exact congrArg
      (fun s => { c.machine with sim := s, memory := (c.machine.post [msg]).memory }) hsim
  | @move mv => exact Or.inl ⟨mv, rfl, rfl⟩

/-- What holds of the machine throughout a run, whatever the other threads do. -/
structure Standing (a : Machine K U) : Prop where
  orderly : a.Orderly
  closing : a.Closing
  emptied : a.Emptied

lemma standing_idle (identity : Nat) (kind : QueueKind) (buckets : Nat) (sync : SyncMode)
    (m : Memory K U) : Standing (.idle identity kind buckets sync m : Machine K U) where
  orderly := Machine.orderly_idle ..
  closing := Machine.closing_idle ..
  emptied hphase := by cases hphase

lemma Standing.effect (hst : Standing c.machine) (hs : Sane h c) (he : Effect code c more c') :
    Standing c'.machine := by
  rcases he.machine_cases with ⟨mv, hmachine, -⟩ | ⟨⟨b, m, hmachine, hinbox⟩, -, -⟩
  · rw [hmachine]
    exact {
      orderly := hst.orderly.move code.mute mv hs.timely hs.broken
      closing := hst.closing.move code.mute mv hst.orderly hs.timely
      emptied := hst.emptied.move code.mute mv hst.orderly hst.closing hs.timely hs.broken
        hs.told.sound }
  · rw [hmachine]
    refine ⟨⟨⟨?_, hst.orderly.userCode.teardown⟩, hst.orderly.nested⟩,
      ⟨hst.closing.tail, hst.closing.close, hst.closing.clear, hst.closing.destroyed⟩, hst.emptied⟩
    intro ev hev
    rcases hinbox ev hev with hev | huser
    · exact hst.orderly.userCode.inbox ev hev
    · exact huser

lemma standing_play (ht : Tracked h c) (hst : Standing c.machine) (code : Code K U)
    (acts : List (Action K U)) : Standing (play code acts c).machine := by
  induction acts generalizing c h with
  | nil => exact hst
  | cons x acts ih =>
    have he := c.effect_act code x
    exact ih (ht.effect he) (hst.effect ht.sane he)

/-- A call to tear the simulator down ends only by tearing it down, whatever other threads do. -/
lemma underWay_play {base : List (Frame K U)} (ht : Tracked h c) (hst : Standing c.machine)
    (hu : c.machine.UnderWay base ∨ c.machine.sim.phase = .destroyed) (code : Code K U)
    (acts : List (Action K U)) :
    (play code acts c).machine.UnderWay base ∨
      (play code acts c).machine.sim.phase = .destroyed := by
  induction acts generalizing c h with
  | nil => exact hu
  | cons x acts ih =>
    have he := c.effect_act code x
    refine ih (ht.effect he) (hst.effect ht.sane he) ?_
    rcases he.machine_cases with ⟨mv, hmachine, -⟩ | ⟨⟨b, m, hmachine, -⟩, -, -⟩
    · rw [hmachine]
      rcases hu with hu | hphase
      · exact hu.move code.mute mv hst.closing ht.sane.timely
      · exact Or.inr (Machine.destroyed_move code.mute mv hst.orderly hst.closing hphase)
    · rw [hmachine]
      exact hu

lemma spent_effect (hs : Sane h c) (hst : Standing c.machine) (hspent : c.machine.sim.Spent)
    (he : Effect code c more c') :
    c'.machine.sim.Spent ∧ more.turns = [] ∧ more.taken = [] := by
  rcases he.machine_cases with ⟨mv, hmachine, rfl⟩ | ⟨⟨b, m, hmachine, -⟩, hturns, htaken⟩
  · obtain ⟨hturns, hspent'⟩ := Machine.spent_move code.mute mv hst.orderly hst.closing hs.timely
      hs.broken hspent
    have hnone := Machine.takenBy?_of_destroyed hst.orderly hspent.phase mv
    rw [hmachine]
    refine ⟨hspent', ?_, ?_⟩
    · cases mv with
      | step => exact hturns
      | remote | enter => rfl
    · cases mv with
      | step => exact Option.toList_eq_nil_iff.mpr hnone
      | remote | enter => rfl
  · rw [hmachine]
    obtain ⟨⟨hconsistent, hnodup, hpos, hlt⟩, hphase, hnone⟩ := hspent
    exact ⟨⟨⟨hconsistent, hnodup, hpos, hlt⟩, hphase, hnone⟩, hturns, htaken⟩

/-- A simulator that is torn down for good stays so, and nothing happens to its events. -/
lemma spent_play (ht : Tracked h c) (hst : Standing c.machine) (hspent : c.machine.sim.Spent)
    (hd : c.Done) (code : Code K U) (acts : List (Action K U)) :
    (play code acts c).machine.sim.Spent ∧ (history code acts c).turns = [] ∧
      (history code acts c).taken = [] ∧ (history code acts c).inserted = [] := by
  induction acts generalizing c h with
  | nil => exact ⟨hspent, rfl, rfl, rfl⟩
  | cons x acts ih =>
    have he := c.effect_act code x
    obtain ⟨hspent', hturns, htaken⟩ := spent_effect ht.sane hst hspent he
    obtain ⟨hd', hinserted, -⟩ := hd.effect he
    obtain ⟨hend, hturns', htaken', hinserted'⟩ :=
      ih (ht.effect he) (hst.effect ht.sane he) hspent' hd'
    refine ⟨hend, ?_, ?_, ?_⟩
    · rw [history, History.turns_append, hturns, hturns', List.append_nil]
    · rw [history, History.taken_append, htaken, htaken', List.append_nil]
    · rw [history, History.inserted_append, hinserted, hinserted', List.append_nil]

/-- When a call to tear the simulator down has come back, the simulator is torn down for good. -/
lemma spent_of_return (ht : Tracked h c) (hst : Standing c.machine)
    (hphase : c.machine.sim.phase = .destroyed) {p : Program K U PUnit} {rest : List (Frame K U)}
    (hstack : c.machine.stack = .exec p :: rest) : c.machine.sim.Spent ∧ c.Done := by
  have hclear : .clear ∉ c.machine.stack := by
    intro hmem
    rw [hstack] at hmem
    rcases List.mem_cons.mp hmem with hmem | hmem
    · cases hmem
    · refine (hst.closing.tail .clear ?_).2 rfl
      rw [hstack]
      exact hmem
  refine ⟨⟨ht.sane.told.sound, hphase, ?_⟩, (ht.shutting.destroyed hphase).resolve_left hclear⟩
  refine (hst.emptied hphase).resolve_left fun hhead => ?_
  exact hclear (List.mem_of_mem_head? hhead)

/-- A push that is begun when the inbox is closed and empty for good comes back with an error. -/
lemma refused_of_done (ht : Tracked h c) (hd : c.Done) (code : Code K U)
    (acts : List (Action K U)) {i : Nat} {p : PushCall K} (hp : (play code acts c).calls[i]? = some p) (hi : c.calls.length ≤ i)
    (hdelay : p.delay.isNegative = false) {answer : Except SimError PUnit}
    (hstage : p.stage = .returned answer) : answer = .error .destroyed := by
  cases answer with
  | ok =>
    obtain ⟨old, hold, -⟩ := admitted_play code acts hd.closed hp (by rw [hstage]; rfl)
    rw [List.getElem?_eq_none hi] at hold
    cases hold
  | error e =>
    rcases ((ht.play code acts).locking.fits i p hp).error e hstage with ⟨hneg, -⟩ | ⟨-, rfl⟩
    · rw [hdelay] at hneg
      cases hneg
    · rfl

lemma push_of_closed {b : Inbox (Task K)} (hclosed : b.closed = true) {ev : RemoteEvent (Task K)}
    (hdelay : ev.delay.isNegative = false) : b.push ev = (.error .destroyed, b) := by
  rw [Inbox.push, hdelay, hclosed]
  rfl

/-- Once a call to tear the simulator down has come back without an error, the simulator is torn
down for good, whatever its programs and other threads do then. It holds nothing, every handle has
expired, nothing happens to any event, and all that could bring an event in or start one is refused:
scheduling, running the loop, tearing down, and pushes, also those of other threads. -/
theorem torn_down_for_good (code : Code K U) (identity : Nat) (kind : QueueKind) (buckets : Nat)
    (sync : SyncMode) (m : Memory K U) (acts : List (Action K U)) :
    let c := play code acts { machine := .idle identity kind buckets sync m }
    ∀ next rest, c.machine.stack = .exec (.destroy next) :: rest →
      (act code c .step).machine.stack = .teardown :: .exec (next (.ok ())) :: rest →
      ∀ more, let b := play code more (act code c .step)
        b.machine.stack = .exec (next (.ok ())) :: rest →
        ∀ later, let d := play code later b
          let s := d.machine.sim
          (s.phase = .destroyed ∧ s.pendingEvents = 0 ∧ s.teardown = [] ∧ d.isClosed = true ∧
            d.waiting = [] ∧ ∀ id, s.isExpired id = true) ∧
          ((history code later b).turns = [] ∧ (history code later b).taken = [] ∧
            (history code later b).inserted = []) ∧
          ((∀ delay k, (SimRequest.schedule delay k).apply s = (.error .destroyed, s)) ∧
            (∀ k, (SimRequest.scheduleNow k).apply s = (.error .destroyed, s)) ∧
            (∀ context delay k,
              (SimRequest.scheduleWith context delay k).apply s = (.error .destroyed, s)) ∧
            (∀ k, (SimRequest.scheduleDestroy k).apply s = (.error .destroyed, s)) ∧
            (∀ delay, (SimRequest.stopAfter delay : SimRequest K).apply s =
              (.error .destroyed, s))) ∧
          (∀ (call : Machine.Call) next' rest',
            d.machine.stack = .exec (call.program next') :: rest' →
            Machine.step code d.machine =
              { d.machine with stack := .exec (next' (.error .destroyed)) :: rest' }) ∧
          (∀ context delay k, delay.isNegative = false →
            (InboxRequest.schedule context delay k).apply s.inbox = (.error .destroyed, s.inbox)) ∧
          (∀ i p, d.calls[i]? = some p → b.calls.length ≤ i → p.delay.isNegative = false →
            ∀ answer, p.stage = .returned answer → answer = .error .destroyed) ∧
          (∀ context delay k, delay.isNegative = false → d.holder = none →
            play code (.call context delay k :: List.replicate 4 (.advance d.calls.length)) d =
              { d with calls := d.calls ++ [⟨context, delay, k, .returned (.error .destroyed)⟩] }) := by
  intro c next rest hstack hcall more b hreturn later d s
  have ht : Tracked _ c := (tracked_idle identity kind buckets sync m).play code acts
  have hst : Standing c.machine :=
    standing_play (tracked_idle ..) (standing_idle identity kind buckets sync m) code acts
  have hbegun : (act code c .step).machine.UnderWay (.exec (next (.ok ())) :: rest) :=
    ⟨[], .teardown, hcall, Or.inl rfl⟩
  have ht₁ := ht.effect (c.effect_act code .step)
  have hst₁ := hst.effect ht.sane (c.effect_act code .step)
  have hphase : b.machine.sim.phase = .destroyed :=
    (underWay_play ht₁ hst₁ (Or.inl hbegun) code more).resolve_left
      (Machine.not_underWay_self hreturn)
  have ht₂ : Tracked _ b := ht₁.play code more
  have hst₂ : Standing b.machine := standing_play ht₁ hst₁ code more
  obtain ⟨hspent₂, hd₂⟩ := spent_of_return ht₂ hst₂ hphase hreturn
  obtain ⟨hspent, hturns, htaken, hinserted⟩ := spent_play ht₂ hst₂ hspent₂ hd₂ code later
  have hd : d.Done := hd₂.play code later
  have hdead : s.phase = .destroyed := hspent.phase
  have hrefused : ∀ context delay task,
      s.scheduleWith context delay task = (.error .destroyed, s) :=
    fun _ _ _ => if_pos hdead
  refine ⟨⟨hdead, hspent.pendingEvents_eq_zero, hspent.teardown_eq_nil, hd.closed, hd.waiting,
    hspent.isExpired_eq⟩, ⟨hturns, htaken, hinserted⟩, ⟨?_, ?_, ?_, ?_, ?_⟩, ?_, ?_, ?_, ?_⟩
  · exact fun delay k => hrefused s.context delay (.user k)
  · exact fun k => hrefused s.context .zero (.user k)
  · exact fun context delay k => hrefused context delay (.user k)
  · exact fun k => if_pos hdead
  · exact fun delay => hrefused .none delay .stop
  · intro call next' rest' hstack'
    exact call.step_of_destroyed code hstack' (ht₂.play code later).sane.broken hdead
  · exact fun context delay k hdelay => push_of_closed hd.closed hdelay
  · intro i p hp hi hdelay answer hstage
    exact refused_of_done ht₂ hd₂ code later hp hi hdelay hstage
  · intro context delay k hdelay hfree
    rw [play_push code hfree, push_of_closed hd.closed hdelay]

/-- No event does anything. -/
def quiet : Code Unit Unit := ⟨fun _ => .done (), fun _ _ _ u => (u, [])⟩

/-- The machine that is about to tear its simulator down. -/
def departing : Concurrent Unit Unit :=
  play quiet [.enter id (.destroy fun _ => .done ())]
    { machine := .idle 0 .list 1 .sequential { user := () } }

/-- The machine behind teardown. A push was admitted right before the inbox was closed, and the rest
had to wait for it. -/
def departed : Concurrent Unit Unit :=
  play quiet [.step, .call .none .zero (), .advance 0, .advance 0, .step, .step, .advance 0,
    .advance 0, .step] (act quiet departing .step)

theorem torn_down_for_good_behind_push :
    let d := play quiet [.call .none .zero (), .advance 1, .advance 1, .advance 1] departed
    departing.machine.stack = [.exec (.destroy fun _ => .done ())] ∧
      (act quiet departing .step).machine.stack = [.teardown, .exec (.done ())] ∧
      departed.machine.stack = [.exec (.done ())] ∧ departed.calls.length = 1 ∧
      d.machine.sim.pendingEvents = 0 ∧ d.waiting = [] ∧
      ∀ p, d.calls[1]? = some p → ∀ answer, p.stage = .returned answer →
        answer = .error .destroyed := by
  have hstack : departing.machine.stack = [.exec (.destroy fun _ => .done ())] := rfl
  have hcall : (act quiet departing .step).machine.stack = [.teardown, .exec (.done ())] := rfl
  have hreturn : departed.machine.stack = [.exec (.done ())] := rfl
  obtain ⟨⟨-, hpending, -, -, hwaiting, -⟩, -, -, -, -, hpush, -⟩ :=
    torn_down_for_good quiet 0 .list 1 .sequential { user := () }
      [.enter id (.destroy fun _ => .done ())] (fun _ => .done ()) [] hstack hcall _ hreturn
      [.call .none .zero (), .advance 1, .advance 1, .advance 1]
  refine ⟨hstack, hcall, hreturn, rfl, hpending, hwaiting, ?_⟩
  intro p hp answer hstage
  have hdelay : p.delay.isNegative = false := by
    cases hp
    rfl
  exact hpush 1 p hp (Nat.le_refl 1) hdelay answer hstage

end Concurrent

end EventKernel
