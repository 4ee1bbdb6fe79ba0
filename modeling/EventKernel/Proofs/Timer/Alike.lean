import EventKernel.Proofs.Simulator.Alike
import EventKernel.Timer.Trickle
import EventKernel.Timer.Watchdog

/-!
# Timers on simulators that differ in their queues

A timer does the same on both simulators, and is in the same state afterwards.
-/

namespace EventKernel

open Simulator (Alike)

variable {K : Type} {s t : Simulator K}

/-! ### Watchdogs -/

namespace Watchdog

lemma alike_scheduleExpiry (h : Alike s t) (self : Nat) (delay : Time) (w : Watchdog K) :
    ∃ a w' s' t', w.scheduleExpiry self delay s = (a, w', s') ∧
      w.scheduleExpiry self delay t = (a, w', t') ∧ Alike s' t' := by
  obtain ⟨a, s', t', hs, ht, h'⟩ := h.schedule delay (.watchdog self)
  rw [scheduleExpiry, scheduleExpiry]
  rw [hs, ht]
  cases a with
  | ok id => exact ⟨_, _, _, _, rfl, rfl, h'⟩
  | error e => exact ⟨_, _, _, _, rfl, rfl, h'⟩

lemma alike_arm (h : Alike s t) (self : Nat) (delay : Time) (w : Watchdog K) :
    ∃ a w' s' t', w.arm self delay s = (a, w', s') ∧ w.arm self delay t = (a, w', t') ∧
      Alike s' t' := by
  obtain ⟨a, w', s', t', hs, ht, h'⟩ := alike_scheduleExpiry h self delay w
  rw [arm, arm]
  rw [hs, ht, h.now_eq]
  cases a with
  | ok _ => exact ⟨_, _, _, _, rfl, rfl, h'⟩
  | error e => exact ⟨_, _, _, _, rfl, rfl, h'⟩

lemma alike_ping (h : Alike s t) (self : Nat) (delay : Time) (w : Watchdog K) :
    ∃ a w' s' t', w.ping self delay s = (a, w', s') ∧ w.ping self delay t = (a, w', t') ∧
      Alike s' t' := by
  obtain ⟨b, s₁, t₁, hs, ht, h'⟩ := h.cancel w.event
  rw [ping, ping]
  dsimp only
  rw [h.isExpired_eq, h.delayLeft_eq, h.now_eq, hs, ht]
  split
  · exact ⟨_, _, _, _, rfl, rfl, h⟩
  · split
    · exact alike_arm h self delay _
    · split
      · exact ⟨_, _, _, _, rfl, rfl, h⟩
      · split
        · exact alike_scheduleExpiry h' self delay _
        · exact ⟨_, _, _, _, rfl, rfl, h⟩

lemma isPending_eq (h : Alike s t) (w : Watchdog K) : w.isPending t = w.isPending s := by
  rw [isPending, isPending, h.isExpired_eq]

lemma alike_expire (h : Alike s t) (self : Nat) (w : Watchdog K) :
    ∃ k w' s' t', w.expire self s = (k, w', s') ∧ w.expire self t = (k, w', t') ∧
      Alike s' t' := by
  obtain ⟨a, w', s', t', hs, ht, h'⟩ := alike_scheduleExpiry h self (w.deadline - s.now) w
  rw [expire, expire]
  rw [h.now_eq, hs, ht]
  split
  · exact ⟨_, _, _, _, rfl, rfl, h⟩
  · split
    · exact ⟨_, _, _, _, rfl, rfl, h'⟩
    · exact ⟨_, _, _, _, rfl, rfl, h⟩

end Watchdog

/-! ### Trickle timers -/

namespace Trickle

lemma alike_beginInterval (h : Alike s t) (self : Nat) (d : Trickle K) :
    ∃ a d' s' t', d.beginInterval self s = (a, d', s') ∧ d.beginInterval self t = (a, d', t') ∧
      Alike s' t' := by
  obtain ⟨a, s₁, t₁, hs, ht, h₁⟩ := h.schedule d.interval (.trickleInterval self)
  obtain ⟨b, s₂, t₂, hs', ht', h₂⟩ :=
    h₁.schedule (d.interval.scaleBy d.generator.upperHalf.1) (.trickleFire self)
  rw [beginInterval, beginInterval]
  dsimp only
  rw [hs, ht]
  cases a with
  | error e => exact ⟨_, _, _, _, rfl, rfl, h₁⟩
  | ok id =>
    dsimp only
    rw [hs', ht']
    cases b with
    | error e => exact ⟨_, _, _, _, rfl, rfl, h₂⟩
    | ok id' => exact ⟨_, _, _, _, rfl, rfl, h₂⟩

lemma alike_enable (h : Alike s t) (self : Nat) (d : Trickle K) :
    ∃ a d' s' t', d.enable self s = (a, d', s') ∧ d.enable self t = (a, d', t') ∧
      Alike s' t' := by
  rw [enable]
  exact alike_beginInterval h self _

lemma alike_stop (h : Alike s t) (d : Trickle K) : Alike (d.stop s) (d.stop t) := by
  obtain ⟨_, s₁, t₁, hs, ht, h₁⟩ := h.cancel d.intervalEvent
  obtain ⟨_, s₂, t₂, hs', ht', h₂⟩ := h₁.cancel d.fireEvent
  rw [stop, stop]
  rw [hs, ht, hs', ht']
  exact h₂

lemma alike_reset (h : Alike s t) (self : Nat) (d : Trickle K) :
    ∃ a d' s' t', d.reset self s = (a, d', s') ∧ d.reset self t = (a, d', t') ∧
      Alike s' t' :=
  alike_beginInterval (alike_stop h d) self _

lemma alike_inconsistent (h : Alike s t) (self : Nat) (d : Trickle K) :
    ∃ a d' s' t', d.inconsistent self s = (a, d', s') ∧ d.inconsistent self t = (a, d', t') ∧
      Alike s' t' := by
  rw [inconsistent, inconsistent]
  split
  · exact alike_reset h self d
  · exact ⟨_, _, _, _, rfl, rfl, h⟩

lemma isRunning_eq (h : Alike s t) (d : Trickle K) : d.isRunning t = d.isRunning s := by
  rw [isRunning, isRunning, h.isExpired_eq]

lemma alike_endInterval (h : Alike s t) (self : Nat) (d : Trickle K) :
    ∃ d' s' t', d.endInterval self s = (d', s') ∧ d.endInterval self t = (d', t') ∧
      Alike s' t' := by
  obtain ⟨_, d', s', t', hs, ht, h'⟩ := alike_beginInterval h self
    { d with interval := (d.interval.scale 2).earlier d.maxInterval }
  rw [endInterval, endInterval]
  rw [hs, ht]
  exact ⟨_, _, _, rfl, rfl, h'⟩

end Trickle

end EventKernel
