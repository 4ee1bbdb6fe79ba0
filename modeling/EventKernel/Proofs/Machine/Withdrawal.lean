import EventKernel.Proofs.Machine.Account
import EventKernel.Proofs.Machine.Timers

/-!
# Who withdraws teardown events

Timers name events of the queue only, whichever simulator they are used on. So the frame on top
tells whether a step can concern a teardown event: either teardown itself takes events out or drops
them, or a program registers one, or cancels or removes one by its handle.
-/

namespace EventKernel

open Simulator (issueTurns)

variable {K U : Type} {s t : Simulator K} {id : EventId} {turns more : List (Turn K)}

/-- Whether a handle names an event of the queue. -/
def EventId.IsQueued : EventId → Prop
  | queued _ _ => True
  | destroy _ => False

/-- Turns that concern no teardown event. -/
def Apart (turns : List (Turn K)) : Prop := ∀ x ∈ turns, x.id.IsQueued

lemma apart_nil : Apart ([] : List (Turn K)) := fun x hx => by cases hx

lemma Apart.append (h : Apart turns) (h' : Apart more) : Apart (turns ++ more) := by
  intro x hx
  rcases List.mem_append.mp hx with hx | hx
  · exact h x hx
  · exact h' x hx

lemma Apart.turnsOf_eq_nil (h : Apart turns) (n : Nat) : turnsOf (.destroy n) turns = [] := by
  rw [turnsOf, List.filter_eq_nil_iff]
  intro x hx hid
  have hqueued := h x hx
  rw [of_decide_eq_true hid] at hqueued
  exact hqueued

namespace Simulator

lemma apart_turn (fate : Fate) (s : Simulator K) (hid : id.IsQueued) : Apart (s.turn fate id) := by
  intro x hx
  rw [(of_mem_turn hx).1]
  exact hid

lemma isQueued_of_scheduleWith {context : ContextId} {delay : Time} {task : Task K}
    (h : s.scheduleWith context delay task = (.ok id, t)) : id.IsQueued := by
  rw [scheduleWith] at h
  split at h
  · cases h
  · split at h
    · cases h
    · cases h
      trivial

lemma apart_scheduleWith (context : ContextId) (delay : Time) (task : Task K) (s : Simulator K) :
    Apart (issueTurns (s.scheduleWith context delay task)) := by
  rcases h : s.scheduleWith context delay task with ⟨_ | id, t⟩
  · exact apart_nil
  · exact apart_turn .issued t (isQueued_of_scheduleWith h)

lemma apart_cancelTurns (s : Simulator K) (hid : id.IsQueued) : Apart (s.cancelTurns id) := by
  rw [cancelTurns]
  split
  · exact apart_turn .cancelled s hid
  · exact apart_nil

lemma apart_removeTurns (s : Simulator K) (hid : id.IsQueued) : Apart (s.removeTurns id) := by
  rw [removeTurns]
  split
  · exact apart_turn .removed s hid
  · exact apart_nil

lemma apart_insertTurns (evs : List (RemoteEvent (Task K))) (s : Simulator K) :
    Apart (insertTurns evs s) := by
  induction evs generalizing s with
  | nil => exact apart_nil
  | cons ev evs ih =>
    have hid : (s.insert ev.context ev.delay ev.task).1.IsQueued := trivial
    exact (apart_turn .issued _ hid).append (ih _)

end Simulator

/-! ### Timers -/

namespace Watchdog

variable {w : Nat} {d : Watchdog K}

lemma isQueued_scheduleExpiry (h : d.event.IsQueued) (delay : Time) (s : Simulator K) :
    (d.scheduleExpiry w delay s).2.1.event.IsQueued := by
  rw [scheduleExpiry]
  split
  · next hok => exact Simulator.isQueued_of_scheduleWith hok
  · exact h

lemma isQueued_ping (h : d.event.IsQueued) (delay : Time) (s : Simulator K) :
    (d.ping w delay s).2.1.event.IsQueued := by
  rw [ping]
  split
  · exact h
  · dsimp only
    split
    · have harmed := isQueued_scheduleExpiry (w := w) (d := { d with cancelled := false }) h delay s
      rw [arm]
      split
      · next hok => rwa [hok] at harmed
      · next herror => rwa [herror] at harmed
    · split
      · exact h
      · split
        · exact isQueued_scheduleExpiry (d := { d with cancelled := false, deadline := _ }) h _ _
        · exact h

lemma isQueued_expire (h : d.event.IsQueued) (s : Simulator K) :
    (d.expire w s).2.1.event.IsQueued := by
  rw [expire]
  split
  · exact h
  · split
    · exact isQueued_scheduleExpiry h _ s
    · exact h

lemma apart_pingTurns (h : d.event.IsQueued) (delay : Time) (s : Simulator K) :
    Apart (d.pingTurns w delay s) := by
  rw [pingTurns]
  split
  · exact apart_nil
  · split
    · exact Simulator.apart_scheduleWith _ _ _ _
    · split
      · exact apart_nil
      · split
        · exact (Simulator.apart_cancelTurns s h).append (Simulator.apart_scheduleWith _ _ _ _)
        · exact apart_nil

lemma apart_expireTurns (w : Nat) (d : Watchdog K) (s : Simulator K) :
    Apart (d.expireTurns w s) := by
  rw [expireTurns]
  split
  · exact apart_nil
  · split
    · exact Simulator.apart_scheduleWith _ _ _ _
    · exact apart_nil

end Watchdog

namespace Trickle

variable {n : Nat} {d : Trickle K}

/-- The timer names events of the queue. -/
structure NamesQueued (d : Trickle K) : Prop where
  interval : d.intervalEvent.IsQueued
  fire : d.fireEvent.IsQueued

lemma NamesQueued.beginInterval (h : d.NamesQueued) (n : Nat) (s : Simulator K) :
    (d.beginInterval n s).2.1.NamesQueued := by
  rw [Trickle.beginInterval]
  dsimp only
  split
  · exact ⟨h.interval, h.fire⟩
  · next hfirst =>
    have hinterval := Simulator.isQueued_of_scheduleWith hfirst
    split
    · exact ⟨hinterval, h.fire⟩
    · next hsecond => exact ⟨hinterval, Simulator.isQueued_of_scheduleWith hsecond⟩

lemma NamesQueued.reset (h : d.NamesQueued) (n : Nat) (s : Simulator K) :
    (d.reset n s).2.1.NamesQueued :=
  NamesQueued.beginInterval (d := { d with interval := d.minInterval }) ⟨h.interval, h.fire⟩ n _

lemma NamesQueued.apply (h : d.NamesQueued) (r : TrickleRequest K) (s : Simulator K) :
    (r.apply n d s).2.1.NamesQueued := by
  cases r with
  | enable => exact NamesQueued.beginInterval (d := d.drawn) ⟨h.interval, h.fire⟩ n s
  | reset => exact h.reset n s
  | inconsistent =>
    rw [TrickleRequest.apply, inconsistent]
    split
    · exact h.reset n s
    · exact h
  | setFunction | consistent | stop | info => exact ⟨h.interval, h.fire⟩

lemma NamesQueued.endInterval (h : d.NamesQueued) (n : Nat) (s : Simulator K) :
    (d.endInterval n s).1.NamesQueued :=
  NamesQueued.beginInterval (d := { d with interval := (d.interval.scale 2).earlier d.maxInterval })
    ⟨h.interval, h.fire⟩ n s

lemma apart_beginTurns (n : Nat) (d : Trickle K) (s : Simulator K) : Apart (d.beginTurns n s) := by
  rw [beginTurns]
  refine (Simulator.apart_scheduleWith _ _ _ _).append ?_
  split
  · exact apart_nil
  · exact Simulator.apart_scheduleWith _ _ _ _

lemma NamesQueued.apart_stopTurns (h : d.NamesQueued) (s : Simulator K) : Apart (d.stopTurns s) :=
  (Simulator.apart_cancelTurns s h.interval).append (Simulator.apart_cancelTurns _ h.fire)

lemma NamesQueued.apart_turns (h : d.NamesQueued) (r : TrickleRequest K) (s : Simulator K) :
    Apart (r.turns n d s) := by
  have hreset : Apart (d.resetTurns n s) := (h.apart_stopTurns s).append (apart_beginTurns n _ _)
  cases r with
  | enable => exact apart_beginTurns n d.drawn s
  | reset => exact hreset
  | inconsistent =>
    rw [TrickleRequest.turns, inconsistentTurns]
    split
    · exact hreset
    · exact apart_nil
  | stop => exact h.apart_stopTurns s
  | setFunction | consistent | info => exact apart_nil

end Trickle

namespace Memory

variable {m : Memory K U}

/-- All timers name events of the queue. -/
structure NamesQueued (m : Memory K U) : Prop where
  watchdog : ∀ w d, m.watchdog? w = some d → d.event.IsQueued
  trickle : ∀ n d, m.trickle? n = some d → d.NamesQueued

lemma NamesQueued.setWatchdog (h : m.NamesQueued) (w : Nat) {d : Option (Watchdog K)}
    (hd : ∀ d', d = some d' → d'.event.IsQueued) : (m.setWatchdog w d).NamesQueued where
  watchdog v d' hd' := by
    rw [watchdog?_setWatchdog] at hd'
    split at hd'
    · exact hd d' hd'
    · exact h.watchdog v d' hd'
  trickle := h.trickle

lemma NamesQueued.setTrickle (h : m.NamesQueued) (n : Nat) {d : Option (Trickle K)}
    (hd : ∀ d', d = some d' → d'.NamesQueued) : (m.setTrickle n d).NamesQueued where
  watchdog := h.watchdog
  trickle k d' hd' := by
    rw [trickle?_setTrickle] at hd'
    split at hd'
    · exact hd d' hd'
    · exact h.trickle k d' hd'

lemma NamesQueued.apply (h : m.NamesQueued) (r : Request K U) (s : Simulator K) :
    (r.apply s m).2.2.NamesQueued := by
  cases r with
  | sim | load | update => exact ⟨h.watchdog, h.trickle⟩
  | inbox target r =>
    rw [Request.apply, (m.askInbox_unchanged target r s).2]
    exact ⟨h.watchdog, h.trickle⟩
  | newWatchdog k =>
    refine ⟨?_, h.trickle⟩
    intro w d hd
    simp only [Request.apply, watchdog?, Array.getElem?_push] at hd
    split at hd
    · obtain rfl := Option.some.inj hd
      trivial
    · exact h.watchdog w d hd
  | newTrickle minInterval doublings redundancy seed =>
    refine ⟨h.watchdog, ?_⟩
    intro n d hd
    simp only [Request.apply, trickle?, Array.getElem?_push] at hd
    split at hd
    · obtain rfl := Option.some.inj hd
      exact ⟨trivial, trivial⟩
    · exact h.trickle n d hd
  | dropWatchdog w => exact h.setWatchdog w (by simp)
  | dropTrickle n => exact h.setTrickle n (by simp)
  | watchdog w r =>
    rw [Request.apply]
    split
    · exact h
    · next d hd =>
      refine h.setWatchdog w ?_
      rintro d' ⟨⟩
      have hevent := h.watchdog w d hd
      cases r with
      | ping delay => exact Watchdog.isQueued_ping hevent delay s
      | setFunction | cancel | info => exact hevent
  | trickle n r =>
    rw [Request.apply]
    split
    · exact h
    · next d hd =>
      refine h.setTrickle n ?_
      rintro d' ⟨⟩
      exact (h.trickle n d hd).apply r s

end Memory

/-! ### Steps -/

/-- The requests that can concern a teardown event. -/
def SimRequest.ReachesTeardown : SimRequest K → Prop
  | .scheduleDestroy _ => True
  | .cancel id | .remove id => ¬id.IsQueued
  | _ => False

/-- The frames that can concern a teardown event. -/
def Frame.ReachesTeardown : Frame K U → Prop
  | .exec (.ask (.sim r) _) => r.ReachesTeardown
  | .teardown | .clear => True
  | _ => False

lemma Frame.ReachesTeardown.cases {f : Frame K U} (h : f.ReachesTeardown) :
    (∃ k next, f = .exec (.ask (.sim (.scheduleDestroy k)) next)) ∨
      (∃ id next, f = .exec (.ask (.sim (.cancel id)) next)) ∨
      (∃ id next, f = .exec (.ask (.sim (.remove id)) next)) ∨ f = .teardown ∨ f = .clear := by
  cases f with
  | exec p =>
    cases p with
    | ask r next =>
      cases r with
      | sim r =>
        cases r with
        | scheduleDestroy k => exact Or.inl ⟨k, next, rfl⟩
        | cancel id => exact Or.inr (Or.inl ⟨id, next, rfl⟩)
        | remove id => exact Or.inr (Or.inr (Or.inl ⟨id, next, rfl⟩))
        | _ => exact h.elim
      | _ => exact h.elim
    | done | perform | run | destroy => exact h.elim
  | teardown | clear => simp
  | _ => exact h.elim

lemma SimRequest.apart_turns (r : SimRequest K) (s : Simulator K) (hr : ¬r.ReachesTeardown) :
    Apart (r.turns s) := by
  cases r with
  | schedule | scheduleNow | scheduleWith | stopAfter => exact Simulator.apart_scheduleWith _ _ _ _
  | scheduleDestroy k => exact absurd trivial hr
  | cancel id => exact Simulator.apart_cancelTurns s (not_not.mp hr)
  | remove id => exact Simulator.apart_removeTurns s (not_not.mp hr)
  | isExpired | delayLeft | identity | now | context | phase | eventCount | pendingEvents
  | isFinished | stop | kind | setScheduler | sync | boundLookahead | observe | describe =>
    exact apart_nil

section

variable {m : Memory K U}

lemma Request.apart_turns (hm : m.NamesQueued) (r : Request K U) (s : Simulator K)
    (hr : ∀ r', r = .sim r' → ¬r'.ReachesTeardown) : Apart (r.turns s m) := by
  cases r with
  | sim r => exact r.apart_turns s (hr r rfl)
  | watchdog w r =>
    intro x hx
    obtain ⟨d, hd, hx⟩ := List.mem_flatMap.mp hx
    have hevent := hm.watchdog w d (Option.mem_toList.mp hd)
    cases r with
    | ping delay => exact Watchdog.apart_pingTurns hevent delay s x hx
    | setFunction | cancel | info => cases hx
  | trickle n r =>
    intro x hx
    obtain ⟨d, hd, hx⟩ := List.mem_flatMap.mp hx
    exact (hm.trickle n d (Option.mem_toList.mp hd)).apart_turns r s x hx
  | inbox | newWatchdog | dropWatchdog | newTrickle | dropTrickle | load | update =>
    exact apart_nil

lemma Task.apart_turns (task : Task K) (s : Simulator K) (m : Memory K U) :
    Apart (task.turns s m) := by
  cases task with
  | watchdog w =>
    intro x hx
    obtain ⟨d, -, hx⟩ := List.mem_flatMap.mp hx
    exact Watchdog.apart_expireTurns w d s x hx
  | trickleInterval n =>
    intro x hx
    obtain ⟨d, -, hx⟩ := List.mem_flatMap.mp hx
    exact Trickle.apart_beginTurns n _ s x hx
  | user | stop | trickleFire => exact apart_nil

/-- All other frames concern events of the queue only. -/
lemma Frame.apart_turns (hs : s.Sound) (hm : m.NamesQueued) {f : Frame K U}
    (hf : ¬f.ReachesTeardown) : Apart (f.turns s m) := by
  cases f with
  | exec p =>
    cases p with
    | ask r next =>
      refine r.apart_turns hm s ?_
      rintro r' rfl
      exact hf
    | done | perform | run | destroy => exact apart_nil
  | task task => exact task.apart_turns s m
  | loop => exact Simulator.apart_insertTurns _ _
  | next =>
    intro x hx
    obtain ⟨⟨id, ev⟩, hup, hx⟩ := List.mem_flatMap.mp hx
    obtain ⟨-, slot, n, rfl⟩ := hs.find?_of_upcoming? (Option.mem_toList.mp hup)
    rw [(Simulator.of_mem_takeTurn hx).1]
    trivial
  | teardown | clear => exact absurd trivial hf
  | restore | rearmWatchdog | rearmTrickle | close => exact apart_nil

end

namespace Machine

variable {m : Memory K U}

lemma namesQueued_start (code : Code K U) (hm : m.NamesQueued) (t : Task K) (s : Simulator K)
    (rest : List (Frame K U)) : (start code t s m rest).memory.NamesQueued := by
  cases t with
  | user | stop => exact hm
  | watchdog w =>
    rw [start]
    split
    · exact hm
    · next d hd =>
      have hevent := Watchdog.isQueued_expire (w := w) (hm.watchdog w d hd) s
      split
      · next hexpire =>
        rw [hexpire] at hevent
        exact hm.setWatchdog w (by rintro _ ⟨⟩; exact hevent)
      · next hexpire =>
        rw [hexpire] at hevent
        exact hm.setWatchdog w (by rintro _ ⟨⟩; exact hevent)
  | trickleInterval n =>
    rw [start]
    split
    · exact hm
    · next d hd =>
      refine hm.setTrickle n ?_
      rintro _ ⟨⟩
      exact (hm.trickle n d hd).endInterval n s
  | trickleFire n =>
    rw [start]
    split
    · exact hm
    · next d hd =>
      have hfire : d.fire.2.NamesQueued := by
        obtain ⟨hinterval, hpoint⟩ := hm.trickle n d hd
        rw [Trickle.fire]
        split
        · exact ⟨hinterval, hpoint⟩
        · exact ⟨hinterval, hpoint⟩
      split
      · next hd' =>
        rw [hd'] at hfire
        exact hm.setTrickle n (by rintro _ ⟨⟩; exact hfire)
      · next hd' =>
        rw [hd'] at hfire
        exact hm.setTrickle n (by rintro _ ⟨⟩; exact hfire)

lemma namesQueued_takeNext (code : Code K U) (hm : m.NamesQueued) (s : Simulator K)
    (rest : List (Frame K U)) : (takeNext code s m rest).memory.NamesQueued := by
  rw [takeNext]
  split
  · exact hm
  · rcases s.scheduler.removeNext with ⟨_ | ⟨id, ev⟩, q⟩
    · exact hm
    · dsimp only
      rw [dispatch]
      split
      · exact hm
      · split
        · exact hm
        · show (notify code _ _ m).2.NamesQueued
          rw [(notify_unchanged code _ _ m).2]
          exact ⟨hm.watchdog, hm.trickle⟩

lemma namesQueued_stepFrame (code : Code K U) (hm : m.NamesQueued) (f : Frame K U)
    (s : Simulator K) (rest : List (Frame K U)) :
    (stepFrame code f s m rest).memory.NamesQueued := by
  cases f with
  | exec p =>
    cases p with
    | ask r next => exact hm.apply r s
    | done | perform => exact hm
    | run | destroy =>
      rw [stepFrame, exec]
      split <;> exact hm
  | task t => exact namesQueued_start code hm t s rest
  | next => exact namesQueued_takeNext code hm s rest
  | teardown =>
    rw [stepFrame, nextTeardown]
    dsimp only
    split <;> exact hm
  | rearmWatchdog w k =>
    refine hm.setWatchdog w fun d' hd' => ?_
    obtain ⟨d, hd, rfl⟩ := Option.map_eq_some_iff.mp hd'
    exact hm.watchdog w d hd
  | rearmTrickle n k =>
    refine hm.setTrickle n fun d' hd' => ?_
    obtain ⟨d, hd, rfl⟩ := Option.map_eq_some_iff.mp hd'
    exact ⟨(hm.trickle n d hd).interval, (hm.trickle n d hd).fire⟩
  | loop | restore | close | clear => exact hm

end Machine

end EventKernel
