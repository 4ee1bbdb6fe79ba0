import EventKernel.Proofs.Simulator.Agree
import EventKernel.Proofs.Timer.Trickle
import EventKernel.Proofs.Timer.Watchdog

/-!
# Timers on simulators that agree

A timer that is the same on two simulators, but for the slots of its events, does the same on both.
It cancels its own events only, on both sides.
-/

namespace EventKernel

open Simulator (Agree)

variable {K : Type} {C : Correspondence K} {w w' v v' : Matching} {s t : Simulator K}

/-! ### Watchdogs -/

namespace Watchdog

/-- Two watchdogs that are the same but for slots. Programs do not know the handles of timers. -/
inductive Matched (C : Correspondence K) (w v : Matching) : Watchdog K → Watchdog K → Prop where
  | intro (d : Watchdog K) {event : EventId} {function : Option K}
      (hevent : d.event.Matched v event) (hfunction : C.option.rel w d.function function) :
      Matched C w v d { d with event := event, function := function }

variable {d d' : Watchdog K}

lemma Matched.mono (h : d.Matched C w v d') (hle : w ≤ w') (hle' : v ≤ v') :
    d.Matched C w' v' d' := by
  obtain ⟨hevent, hfunction⟩ := h
  exact .intro d (hevent.mono hle') (C.option.mono hfunction hle)

lemma matched_create {k l : K} (h : C.rel w k l) : (create k).Matched C w v (create l) :=
  .intro (create k) (EventId.matched_detached v) (.some h)

lemma Matched.restore (h : d.Matched C w v d') {k l : K} (hk : C.rel w k l) :
    (d.restore k).Matched C w v (d'.restore l) := by
  obtain ⟨hevent, hfunction⟩ := h
  exact .intro (d.restore k) hevent (rel_option_or hfunction hk)

lemma Matched.scheduleExpiry (hd : d.Matched C w v d') (h : Agree C w v s t) (self : Nat)
    (delay : Time) :
    ∃ a e e' s' t' u, d.scheduleExpiry self delay s = (a, e, s') ∧
      d'.scheduleExpiry self delay t = (a, e', t') ∧ v ≤ u ∧ e.Matched C w u e' ∧
      e'.deadline = e.deadline ∧ Agree C w u s' t' := by
  obtain ⟨a, b, s', t', u, hs, ht, hle, hab, h'⟩ := h.schedule delay (.watchdog self)
  have hd' := hd.mono (le_refl w) hle
  obtain ⟨-, hfunction⟩ := hd
  rw [Watchdog.scheduleExpiry, Watchdog.scheduleExpiry, hs, ht]
  cases hab with
  | @ok id id' hids =>
    exact ⟨_, _, _, _, _, u, rfl, rfl, hle, .intro { d with event := id } hids hfunction, rfl, h'⟩
  | error e => exact ⟨_, _, _, _, _, u, rfl, rfl, hle, hd', rfl, h'⟩

lemma Matched.arm (hd : d.Matched C w v d') (h : Agree C w v s t) (self : Nat) (delay : Time) :
    ∃ a e e' s' t' u, d.arm self delay s = (a, e, s') ∧ d'.arm self delay t = (a, e', t') ∧
      v ≤ u ∧ e.Matched C w u e' ∧ Agree C w u s' t' := by
  obtain ⟨a, e, e', s', t', u, hs, ht, hle, he, -, h'⟩ := hd.scheduleExpiry h self delay
  rw [Watchdog.arm, Watchdog.arm, hs, ht, h.now_eq]
  cases a with
  | ok _ =>
    obtain ⟨hevent, hfunction⟩ := he
    exact ⟨_, _, _, _, _, u, rfl, rfl, hle,
      .intro { e with deadline := s.now + delay } hevent hfunction, h'⟩
  | error _ => exact ⟨_, _, _, _, _, u, rfl, rfl, hle, he, h'⟩

/-- A ping finds the same expiry pending on both sides. -/
lemma Matched.ping (hd : d.Matched C w v d') (h : Agree C w v s t) (self : Nat) (delay : Time)
    (hown : ∀ ev, s.find? d.event = some ev → ¬ev.task.IsPlain) :
    ∃ a e e' s' t' u, d.ping self delay s = (a, e, s') ∧ d'.ping self delay t = (a, e', t') ∧
      v ≤ u ∧ e.Matched C w u e' ∧ Agree C w u s' t' := by
  obtain @⟨event, function, hevent, hfunction⟩ := hd
  have hlive : ({ d with cancelled := false } : Watchdog K).Matched C w v
      { d with event := event, function := function, cancelled := false } :=
    .intro { d with cancelled := false } hevent hfunction
  have hlater : ∀ deadline, ({ d with cancelled := false, deadline } : Watchdog K).Matched C w v
      { d with event := event, function := function, cancelled := false, deadline } :=
    fun deadline => .intro { d with cancelled := false, deadline } hevent hfunction
  rw [Watchdog.ping, Watchdog.ping]
  dsimp only
  rw [h.isExpired_eq hevent, h.delayLeft_eq hevent, h.now_eq]
  split
  · exact ⟨_, _, _, _, _, v, rfl, rfl, le_refl v, .intro d hevent hfunction, h⟩
  · split
    · exact hlive.arm h self delay
    · split
      · exact ⟨_, _, _, _, _, v, rfl, rfl, le_refl v, hlater _, h⟩
      · split
        · obtain ⟨a, e, e', s', t', u, hs, ht, hle, he, -, h'⟩ :=
            (hlater (s.now + delay)).scheduleExpiry (h.cancel hevent hown).2 self delay
          exact ⟨a, e, e', s', t', u, hs, ht, hle, he, h'⟩
        · exact ⟨_, _, _, _, _, v, rfl, rfl, le_refl v, hlive, h⟩

lemma Matched.isPending_eq (hd : d.Matched C w v d') (h : Agree C w v s t) :
    d'.isPending t = d.isPending s ∧ d'.deadline = d.deadline := by
  obtain ⟨hevent, -⟩ := hd
  rw [isPending, isPending, h.isExpired_eq hevent]
  exact ⟨rfl, rfl⟩

lemma Matched.expire (hd : d.Matched C w v d') (h : Agree C w v s t) (self : Nat) :
    ∃ k l e e' s' t' u, d.expire self s = (k, e, s') ∧ d'.expire self t = (l, e', t') ∧
      v ≤ u ∧ C.option.rel w k l ∧ e.Matched C w u e' ∧ Agree C w u s' t' := by
  have hd' := hd
  obtain @⟨event, function, hevent, hfunction⟩ := hd
  rw [Watchdog.expire, Watchdog.expire]
  dsimp only
  rw [h.now_eq]
  split
  · exact ⟨_, _, _, _, _, _, v, rfl, rfl, le_refl v, .none, hd', h⟩
  · split
    · obtain ⟨a, e, e', s', t', u, hs, ht, hle, he, -, h'⟩ :=
        hd'.scheduleExpiry h self (d.deadline - s.now)
      rw [hs, ht]
      exact ⟨_, _, _, _, _, _, u, rfl, rfl, hle, .none, he, h'⟩
    · exact ⟨_, _, _, _, _, _, v, rfl, rfl, le_refl v, hfunction,
        .intro { d with function := none } hevent .none, h⟩

end Watchdog

/-! ### Trickle timers -/

namespace Trickle

/-- Two trickle timers that are the same but for slots. -/
inductive Matched (C : Correspondence K) (w v : Matching) : Trickle K → Trickle K → Prop where
  | intro (d : Trickle K) {interval fire : EventId} {function : Option K}
      (hinterval : d.intervalEvent.Matched v interval) (hfire : d.fireEvent.Matched v fire)
      (hfunction : C.option.rel w d.function function) :
      Matched C w v d
        { d with intervalEvent := interval, fireEvent := fire, function := function }

variable {d d' : Trickle K}

lemma Matched.mono (h : d.Matched C w v d') (hle : w ≤ w') (hle' : v ≤ v') :
    d.Matched C w' v' d' := by
  obtain ⟨hinterval, hfire, hfunction⟩ := h
  exact .intro d (hinterval.mono hle') (hfire.mono hle') (C.option.mono hfunction hle)

lemma matched_create (minInterval : Time) (doublings : Nat) (redundancy : UInt16) (seed : UInt64) :
    (create minInterval doublings redundancy seed : Trickle K).Matched C w v
      (create minInterval doublings redundancy seed) :=
  .intro (create minInterval doublings redundancy seed) (EventId.matched_detached v)
    (EventId.matched_detached v) .none

lemma Matched.restore (h : d.Matched C w v d') {k l : K} (hk : C.rel w k l) :
    (d.restore k).Matched C w v (d'.restore l) := by
  obtain ⟨hinterval, hfire, hfunction⟩ := h
  exact .intro (d.restore k) hinterval hfire (rel_option_or hfunction hk)

lemma Matched.beginInterval (hd : d.Matched C w v d') (h : Agree C w v s t) (self : Nat) :
    ∃ a e e' s' t' u, d.beginInterval self s = (a, e, s') ∧
      d'.beginInterval self t = (a, e', t') ∧ v ≤ u ∧ e.Matched C w u e' ∧ Agree C w u s' t' := by
  obtain ⟨hinterval, hfire, hfunction⟩ := hd
  obtain ⟨a, b, s₁, t₁, u, hs, ht, hle, hab, h₁⟩ := h.schedule d.interval (.trickleInterval self)
  obtain ⟨a', b', s₂, t₂, u', hs', ht', hle', hab', h₂⟩ :=
    h₁.schedule (d.interval.scaleBy d.generator.upperHalf.1) (.trickleFire self)
  rw [Trickle.beginInterval, Trickle.beginInterval]
  dsimp only
  rw [hs, ht]
  cases hab with
  | error e =>
    exact ⟨_, _, _, _, _, u, rfl, rfl, hle, .intro
      { d with generator := d.generator.upperHalf.2, counter := 0 } (hinterval.mono hle)
      (hfire.mono hle) hfunction, h₁⟩
  | @ok id id' hid =>
    dsimp only
    rw [hs', ht']
    cases hab' with
    | error e =>
      exact ⟨_, _, _, _, _, u', rfl, rfl, le_trans hle hle', .intro
        { d with generator := d.generator.upperHalf.2, counter := 0, intervalEvent := id }
        (hid.mono hle') (hfire.mono (le_trans hle hle')) hfunction, h₂⟩
    | @ok fire fire' hfire' =>
      exact ⟨_, _, _, _, _, u', rfl, rfl, le_trans hle hle', .intro
        { d with
          generator := d.generator.upperHalf.2, counter := 0, intervalEvent := id,
          fireEvent := fire }
        (hid.mono hle') hfire' hfunction, h₂⟩

lemma Matched.enable (hd : d.Matched C w v d') (h : Agree C w v s t) (self : Nat) :
    ∃ a e e' s' t' u, d.enable self s = (a, e, s') ∧ d'.enable self t = (a, e', t') ∧
      v ≤ u ∧ e.Matched C w u e' ∧ Agree C w u s' t' := by
  obtain ⟨hinterval, hfire, hfunction⟩ := hd
  rw [Trickle.enable, Trickle.enable]
  refine Matched.beginInterval ?_ h self
  exact .intro { d with generator := _, interval := _ } hinterval hfire hfunction

/-- The events of a timer are its own, as long as other events are cancelled or taken away. -/
lemma Matched.stop (hd : d.Matched C w v d') (h : Agree C w v s t) {self : Nat}
    (hkept : d.Kept self s) : Agree C w v (d.stop s) (d'.stop t) := by
  obtain ⟨hinterval, hfire, -⟩ := hd
  have hp := h.left.passage (s.course_cancel d.intervalEvent).course
  have h₁ := (h.cancel hinterval fun ev hev => by simp [hkept.interval.2 ev hev, Task.IsPlain]).2
  exact (h₁.cancel hfire fun ev hev => by
    simp [(hkept.fire.passage hp).2 ev hev, Task.IsPlain]).2

lemma Matched.reset (hd : d.Matched C w v d') (h : Agree C w v s t) {self : Nat}
    (hkept : d.Kept self s) :
    ∃ a e e' s' t' u, d.reset self s = (a, e, s') ∧ d'.reset self t = (a, e', t') ∧
      v ≤ u ∧ e.Matched C w u e' ∧ Agree C w u s' t' := by
  have h' := hd.stop h hkept
  obtain ⟨hinterval, hfire, hfunction⟩ := hd
  rw [Trickle.reset, Trickle.reset]
  refine Matched.beginInterval ?_ h' self
  exact .intro { d with interval := d.minInterval } hinterval hfire hfunction

lemma Matched.inconsistent (hd : d.Matched C w v d') (h : Agree C w v s t) {self : Nat}
    (hkept : d.Kept self s) :
    ∃ a e e' s' t' u, d.inconsistent self s = (a, e, s') ∧ d'.inconsistent self t = (a, e', t') ∧
      v ≤ u ∧ e.Matched C w u e' ∧ Agree C w u s' t' := by
  have hreset := hd.reset h hkept
  have hd' := hd
  obtain ⟨-, -, -⟩ := hd
  rw [Trickle.inconsistent, Trickle.inconsistent]
  dsimp only
  split
  · exact hreset
  · exact ⟨_, _, _, _, _, v, rfl, rfl, le_refl v, hd', h⟩

lemma Matched.isRunning_eq (hd : d.Matched C w v d') (h : Agree C w v s t) :
    d'.isRunning t = d.isRunning s := by
  obtain ⟨hinterval, -, -⟩ := hd
  rw [isRunning, isRunning, h.isExpired_eq hinterval]

lemma Matched.endInterval (hd : d.Matched C w v d') (h : Agree C w v s t) (self : Nat) :
    ∃ e e' s' t' u, d.endInterval self s = (e, s') ∧ d'.endInterval self t = (e', t') ∧
      v ≤ u ∧ e.Matched C w u e' ∧ Agree C w u s' t' := by
  obtain @⟨interval, fire, function, hinterval, hfire, hfunction⟩ := hd
  have hdoubled : ({ d with interval := (d.interval.scale 2).earlier d.maxInterval } :
      Trickle K).Matched C w v { d with
        intervalEvent := interval, fireEvent := fire, function := function,
        interval := (d.interval.scale 2).earlier d.maxInterval } :=
    .intro { d with interval := (d.interval.scale 2).earlier d.maxInterval } hinterval hfire
      hfunction
  obtain ⟨_, e, e', s', t', u, hs, ht, hle, he, h'⟩ := hdoubled.beginInterval h self
  rw [Trickle.endInterval, Trickle.endInterval]
  rw [hs, ht]
  exact ⟨_, _, _, _, u, rfl, rfl, hle, he, h'⟩

lemma Matched.fire (hd : d.Matched C w v d') :
    C.option.rel w d.fire.1 d'.fire.1 ∧ d.fire.2.Matched C w v d'.fire.2 := by
  obtain ⟨hinterval, hfire, hfunction⟩ := hd
  rw [Trickle.fire, Trickle.fire]
  dsimp only
  split
  · exact ⟨.none, .intro d hinterval hfire hfunction⟩
  · exact ⟨hfunction, .intro { d with function := none } hinterval hfire .none⟩

end Trickle

end EventKernel
