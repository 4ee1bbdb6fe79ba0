import Mathlib.Tactic.Lemma
import EventKernel.Command.Relay

/-!
# Negative delays

A configuration states its stop in nanoseconds and a relay its latency in microseconds. Whether such
a delay is negative is asked only after it has been converted to ticks, which truncates toward zero:
a negative delay is refused if it is at least as long as a tick, and a shorter one counts as zero.
The check of the configuration itself asks the nanoseconds.
-/

namespace EventKernel

/-- The number of units `u` in a tick of one unit `r`; one, if the tick is not the longer one. -/
def TimeUnit.perTick (r u : TimeUnit) : Nat := powerOfTen (r.exponent - u.exponent).toNat

example : TimeUnit.all.map (·.perTick .nanos) = [1000000000, 1000000, 1000, 1, 1, 1] := by decide

/-! ### The sign of a conversion -/

lemma powerOfTen_pos (k : Nat) : 0 < powerOfTen k := Nat.pow_pos (by omega)

lemma TimeUnit.perTick_of_le {r u : TimeUnit} (h : r.exponent ≤ u.exponent) : r.perTick u = 1 := by
  rw [perTick, Int.toNat_of_nonpos (by omega)]
  rfl

/-- A quotient that is truncated toward zero is negative only from one whole divisor on. -/
lemma tdiv_neg_iff {n d : Int} (hd : 0 < d) : n.tdiv d < 0 ↔ n ≤ -d := by
  obtain ⟨m, rfl⟩ : ∃ m, n = -m := ⟨-n, (Int.neg_neg n).symm⟩
  rw [Int.neg_tdiv]
  rcases Int.le_total 0 m with hm | hm
  · have hle : 1 ≤ m / d ↔ 1 * d ≤ m := Int.le_ediv_iff_mul_le hd
    rw [Int.tdiv_eq_ediv_of_nonneg hm]
    omega
  · have hneg : 0 ≤ (-m).tdiv d := Int.tdiv_nonneg (by omega) (by omega)
    rw [Int.neg_tdiv] at hneg
    omega

namespace Time

variable {r u : TimeUnit} {n : Int}

lemma isNegative_clamp_iff : (clamp n).isNegative = true ↔ n < 0 := by
  rw [isNegative, decide_eq_true_iff, ticks_clamp]
  omega

/-- A converted delay is negative if it is at least as long as a tick. -/
lemma isNegative_ofUnit_iff : (ofUnit r n u).isNegative = true ↔ n ≤ -(r.perTick u : Int) := by
  rw [ofUnit, isNegative_clamp_iff, scaleByTen]
  split
  · rename_i hs
    have hpos : (0 : Int) < powerOfTen (u.exponent - r.exponent).toNat :=
      Int.natCast_pos.mpr (powerOfTen_pos _)
    rw [TimeUnit.perTick_of_le (by omega)]
    rcases Int.lt_or_le n 0 with hn | hn
    · have := Int.mul_neg_of_neg_of_pos hn hpos
      omega
    · have := Int.mul_nonneg hn (Int.le_of_lt hpos)
      omega
  · rw [tdiv_neg_iff (Int.natCast_pos.mpr (powerOfTen_pos _)), TimeUnit.perTick, Int.neg_sub]

/-- A negative delay shorter than a tick is converted to zero. -/
lemma ofUnit_eq_zero (h₁ : -(r.perTick u : Int) < n) (h₂ : n < 0) : ofUnit r n u = zero := by
  have hs : ¬0 ≤ u.exponent - r.exponent := by
    intro hs
    rw [TimeUnit.perTick_of_le (by omega)] at h₁
    omega
  rw [ofUnit, scaleByTen, if_neg hs]
  rw [TimeUnit.perTick, ← Int.neg_sub] at h₁
  have hq : n.tdiv (powerOfTen (-(u.exponent - r.exponent)).toNat) = 0 := by
    rw [← Int.neg_neg n, Int.neg_tdiv, Int.tdiv_eq_zero_of_lt (by omega) (by omega)]
    rfl
  rw [hq]
  rfl

end Time

/-! ### Building from a configuration -/

lemma Resolution.choose_eq_ok_iff {r : Resolution} {u : TimeUnit} :
    r.choose u = (.ok (), some u) ↔ r = none ∨ r = some u := by
  cases r with
  | none => exact ⟨fun _ => Or.inl rfl, fun _ => rfl⟩
  | some current => simp [choose]

namespace Simulator

variable {K : Type} {identity : Nat} {c : Config} {r : Resolution} {nanos : Int64}

lemma ofConfig_of_none (h : r.choose c.resolution = (.ok (), some c.resolution))
    (hstop : c.stopAfterNanos = none) :
    ofConfig (K := K) identity c r =
      (.ok (create identity c.kind c.calendarBuckets.toNat c.sync), some c.resolution) := by
  simp only [ofConfig, h, hstop]

/-- A simulator is refused if the stop delay in ticks is negative, and otherwise built. -/
lemma ofConfig_of_some (h : r.choose c.resolution = (.ok (), some c.resolution))
    (hstop : c.stopAfterNanos = some nanos) {delay : Time}
    (hdelay : Time.ofUnit c.resolution nanos.toInt .nanos = delay) :
    ofConfig (K := K) identity c r =
      if delay.isNegative = true then (.error (.negativeDelay delay), some c.resolution)
      else
        (.ok ((create identity c.kind c.calendarBuckets.toNat c.sync).insert .none delay .stop).2,
          some c.resolution) := by
  have hphase : (create (K := K) identity c.kind c.calendarBuckets.toNat c.sync).phase ≠
      .destroyed := nofun
  simp only [ofConfig, h, hstop, stopAfter, scheduleWith, if_neg hphase, Resolution.unit,
    Option.getD_some, hdelay]
  by_cases hd : delay.isNegative = true
  · rw [if_pos hd, if_pos hd]
  · rw [if_neg hd, if_neg hd]

/-- What building comes to, once the choice of the unit is accepted. -/
lemma ofConfig_cases (identity : Nat)
    (h : r.choose c.resolution = (.ok (), some c.resolution)) :
    (∃ nanos, c.stopAfterNanos = some nanos ∧
      nanos.toInt ≤ -(c.resolution.perTick .nanos : Int) ∧
      (ofConfig (K := K) identity c r).1 =
        .error (.negativeDelay (.ofUnit c.resolution nanos.toInt .nanos))) ∨
    (∀ nanos, c.stopAfterNanos = some nanos →
        -(c.resolution.perTick .nanos : Int) < nanos.toInt) ∧
      ∃ s, ofConfig (K := K) identity c r = (.ok s, some c.resolution) := by
  cases hstop : c.stopAfterNanos with
  | none => exact Or.inr ⟨nofun, _, ofConfig_of_none h hstop⟩
  | some nanos =>
    have hbuild : ofConfig (K := K) identity c r = _ := ofConfig_of_some h hstop rfl
    by_cases hd : (Time.ofUnit c.resolution nanos.toInt .nanos).isNegative = true
    · refine Or.inl ⟨nanos, rfl, Time.isNegative_ofUnit_iff.mp hd, ?_⟩
      rw [hbuild, if_pos hd]
    · refine Or.inr ⟨?_, _, hbuild.trans (if_neg hd)⟩
      intro n hn
      cases hn
      exact Int.not_le.mp (fun hle => hd (Time.isNegative_ofUnit_iff.mpr hle))

/-- A negative stop delay shorter than a tick counts as zero. -/
lemma ofConfig_of_within_tick (h : r.choose c.resolution = (.ok (), some c.resolution))
    (hstop : c.stopAfterNanos = some nanos)
    (h₁ : -(c.resolution.perTick .nanos : Int) < nanos.toInt) (h₂ : nanos.toInt < 0) :
    ofConfig (K := K) identity c r =
      ofConfig identity { c with stopAfterNanos := some 0 } r := by
  have hzero : Time.ofUnit c.resolution (0 : Int64).toInt .nanos = .zero := by
    cases c.resolution <;> decide
  rw [ofConfig_of_some h hstop (Time.ofUnit_eq_zero h₁ h₂),
    ofConfig_of_some (c := { c with stopAfterNanos := some 0 }) h rfl hzero]

end Simulator

/-! ### The check of a configuration and the relay -/

namespace Config

lemma validate_eq_negativeStop_iff {c : Config} {nanos : Int64} :
    c.validate = .error (.negativeStop nanos) ↔
      c.calendarBuckets ≠ 0 ∧ c.bufferSize ≠ 0 ∧ c.stopAfterNanos = some nanos ∧
        nanos.toInt < 0 := by
  have hlt (n : Int64) : n < 0 ↔ n.toInt < 0 := Int64.lt_iff_toInt_lt
  rw [validate]
  by_cases hb : c.calendarBuckets = 0
  · simp [hb]
  · by_cases hs : c.bufferSize = 0
    · simp [hb, hs]
    · rw [if_neg hb, if_neg hs]
      cases hn : c.stopAfterNanos with
      | none => simp
      | some n =>
        by_cases hneg : n < 0
        · simp only [if_pos hneg, Except.error.injEq, ConfigError.negativeStop.injEq, ne_eq, hb, hs,
            not_false_eq_true, true_and, Option.some.injEq, ← hlt]
          exact ⟨fun h => ⟨h, h ▸ hneg⟩, And.left⟩
        · simp only [if_neg hneg, reduceCtorEq, ne_eq, hb, hs, not_false_eq_true, true_and,
            Option.some.injEq, ← hlt, false_iff, not_and]
          exact fun h => h ▸ hneg

end Config

namespace Relay

variable {c : Config} {latency : Int} {context : ContextId} {rounds : List (List (List UInt8))}
  {last : List (List UInt8)}

/-- A relay is refused for its configuration, or for a latency that is at least a tick below
zero. -/
lemma relay_cases (c : Config) (latency : Int) (context : ContextId)
    (rounds : List (List (List UInt8))) (last : List (List UInt8)) :
    ((∃ e, (Simulator.ofConfig (K := RelayCode) 0 c none).1 = .error e) ∧
      ∃ message, relay c latency context rounds last = .error (.noSimulator message)) ∨
    (∃ s, (Simulator.ofConfig (K := RelayCode) 0 c none).1 = .ok s) ∧
      ((latency ≤ -(c.resolution.perTick .micros : Int) ∧
        relay c latency context rounds last = .error .negativeLatency) ∨
      (-(c.resolution.perTick .micros : Int) < latency ∧
        ∃ text, relay c latency context rounds last = .ok text)) := by
  rcases Simulator.ofConfig_cases (K := RelayCode) (c := c) (r := none) 0 rfl with
    ⟨nanos, -, -, he⟩ | ⟨-, s, hs⟩
  · refine Or.inl ⟨⟨_, he⟩, ?_⟩
    rw [relay]
    split
    · exact ⟨_, rfl⟩
    · rename_i hok
      rw [hok] at he
      cases he
  · refine Or.inr ⟨⟨s, by rw [hs]⟩, ?_⟩
    by_cases hd : (Time.ofUnit c.resolution latency .micros).isNegative = true
    · refine Or.inl ⟨Time.isNegative_ofUnit_iff.mp hd, ?_⟩
      simp only [relay, hs, Resolution.unit, Option.getD_some]
      exact if_pos hd
    · refine Or.inr ⟨?_, ?_⟩
      · exact Int.not_le.mp (fun hle => hd (Time.isNegative_ofUnit_iff.mpr hle))
      · simp only [relay, hs, Resolution.unit, Option.getD_some]
        exact ⟨_, if_neg hd⟩

lemma relay_of_within_tick (h₁ : -(c.resolution.perTick .micros : Int) < latency)
    (h₂ : latency < 0) : relay c latency context rounds last = relay c 0 context rounds last := by
  have hzero : Time.ofUnit c.resolution 0 .micros = .zero := by
    cases c.resolution <;> decide
  rcases Simulator.ofConfig_cases (K := RelayCode) (c := c) (r := none) 0 rfl with
    ⟨nanos, -, -, he⟩ | ⟨-, s, hs⟩
  · rw [relay, relay]
    split
    · rfl
    · rename_i hok
      rw [hok] at he
      cases he
  · simp only [relay, hs, Resolution.unit, Option.getD_some, Time.ofUnit_eq_zero h₁ h₂, hzero]

end Relay

/-! ### When negative delays are refused -/

/-- Once the unit of a configuration is accepted, a stop delay is refused exactly if it is at least
a tick below zero, and a relay likewise refuses its latency. A negative delay that is shorter counts
as zero. The check of the configuration alone refuses every negative stop delay. -/
theorem negative_delay_refused_iff {K : Type} (identity : Nat) (c : Config) (r : Resolution)
    (hr : r = none ∨ r = some c.resolution) :
    ((∃ d, (Simulator.ofConfig (K := K) identity c r).1 = .error (.negativeDelay d)) ↔
      ∃ nanos, c.stopAfterNanos = some nanos ∧
        nanos.toInt ≤ -(c.resolution.perTick .nanos : Int)) ∧
    ((∃ s, (Simulator.ofConfig (K := K) identity c r).1 = .ok s) ↔
      ∀ nanos, c.stopAfterNanos = some nanos →
        -(c.resolution.perTick .nanos : Int) < nanos.toInt) ∧
    (∀ nanos, c.stopAfterNanos = some nanos →
      -(c.resolution.perTick .nanos : Int) < nanos.toInt → nanos.toInt < 0 →
      Simulator.ofConfig (K := K) identity c r =
        Simulator.ofConfig identity { c with stopAfterNanos := some 0 } r) ∧
    ((∃ nanos, c.validate = .error (.negativeStop nanos)) ↔
      c.calendarBuckets ≠ 0 ∧ c.bufferSize ≠ 0 ∧
        ∃ nanos, c.stopAfterNanos = some nanos ∧ nanos.toInt < 0) ∧
    ∀ latency context rounds last,
      (Relay.relay c latency context rounds last = .error .negativeLatency ↔
        (∃ s, (Simulator.ofConfig (K := Relay.RelayCode) 0 c none).1 = .ok s) ∧
          latency ≤ -(c.resolution.perTick .micros : Int)) ∧
      (-(c.resolution.perTick .micros : Int) < latency → latency < 0 →
        Relay.relay c latency context rounds last = Relay.relay c 0 context rounds last) := by
  have hc := Resolution.choose_eq_ok_iff.mpr hr
  have hcases := Simulator.ofConfig_cases (K := K) identity hc
  refine ⟨?_, ?_, fun nanos hn h₁ h₂ => Simulator.ofConfig_of_within_tick hc hn h₁ h₂, ?_, ?_⟩
  · rcases hcases with ⟨nanos, hn, hle, he⟩ | ⟨hall, s, hs⟩
    · exact iff_of_true ⟨_, he⟩ ⟨nanos, hn, hle⟩
    · refine iff_of_false ?_ ?_
      · rintro ⟨d, hd⟩
        rw [hs] at hd
        cases hd
      · rintro ⟨nanos, hn, hle⟩
        exact Int.not_le.mpr (hall nanos hn) hle
  · rcases hcases with ⟨nanos, hn, hle, he⟩ | ⟨hall, s, hs⟩
    · refine iff_of_false ?_ ?_
      · rintro ⟨s, hs⟩
        rw [he] at hs
        cases hs
      · exact fun hall => Int.not_le.mpr (hall nanos hn) hle
    · exact iff_of_true ⟨s, by rw [hs]⟩ hall
  · simp only [Config.validate_eq_negativeStop_iff, exists_and_left]
  · intro latency context rounds last
    refine ⟨?_, Relay.relay_of_within_tick⟩
    rcases Relay.relay_cases c latency context rounds last with
      ⟨⟨e, he⟩, message, hm⟩ | ⟨hs, ⟨hle, hrel⟩ | ⟨hlt, text, hrel⟩⟩
    · refine iff_of_false (by rw [hm]; nofun) ?_
      rintro ⟨⟨s, hs⟩, -⟩
      rw [he] at hs
      cases hs
    · exact iff_of_true hrel ⟨hs, hle⟩
    · refine iff_of_false (by rw [hrel]; nofun) ?_
      exact fun h => Int.not_le.mpr hlt h.2

/-- With ticks of a microsecond, a thousand nanoseconds below zero are refused and one less is
not. -/
theorem negative_delay_refused_iff_micros :
    let c (nanos : Int64) : Config := { resolution := .micros, stopAfterNanos := some nanos }
    let r : Resolution := some .micros
    (r = none ∨ r = some (c (-1000)).resolution) ∧ (r = none ∨ r = some (c (-999)).resolution) ∧
    (∃ d, (Simulator.ofConfig (K := Unit) 0 (c (-1000)) r).1 = .error (.negativeDelay d)) ∧
    ∃ s, (Simulator.ofConfig (K := Unit) 0 (c (-999)) r).1 = .ok s := by
  intro c r
  refine ⟨Or.inr rfl, Or.inr rfl, ?_, ?_⟩
  · exact (negative_delay_refused_iff 0 (c (-1000)) r (Or.inr rfl)).1.mpr
      ⟨_, rfl, by decide⟩
  · refine (negative_delay_refused_iff 0 (c (-999)) r (Or.inr rfl)).2.1.mpr ?_
    rintro nanos ⟨⟩
    decide

/-- One nanosecond below zero is refused by the check of a configuration and accepted for the stop
of a simulator with ticks of a microsecond; so is one microsecond below zero for a relay with ticks
of a millisecond. -/
theorem negative_delay_accepted_within_tick :
    let c : Config := { resolution := .micros, stopAfterNanos := some (-1) }
    (c.validate = .error (.negativeStop (-1)) ∧
      ∃ s, (Simulator.ofConfig (K := Unit) 0 c none).1 = .ok s) ∧
    ∃ text, Relay.relay { resolution := .millis } (-1) ⟨1⟩ [] [[120]] = .ok text :=
  ⟨⟨rfl, _, rfl⟩, _, rfl⟩

end EventKernel
