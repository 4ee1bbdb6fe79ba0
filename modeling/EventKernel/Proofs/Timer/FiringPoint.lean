import EventKernel.Proofs.Number.Rounding
import EventKernel.Timer.Trickle

/-!
# The firing point of an interval

The firing point is a random part of the interval, computed with binary floating-point numbers and
rounded to whole ticks. It never lies behind the end of the interval, but it can coincide with it.
As long as the length of the interval has at most 53 bits, the firing point lies in the second half;
beyond that it can lie in front of it by as much as the length is rounded.
-/

namespace EventKernel

open Binary64 (IsRounding finite magnitude)

/-- A draw lies between one half and the greatest number below one. -/
lemma Generator.upperHalf_spec (g : Generator) :
    (∃ m e, g.upperHalf.1 = finite false m e) ∧ 1 / 2 ≤ g.upperHalf.1.magnitude ∧
      g.upperHalf.1.magnitude ≤ 1 - 1 / 2 ^ 53 := by
  rw [upperHalf]
  have hword : g.draw.1.toNat / 4096 < 2 ^ 52 :=
    Nat.div_lt_of_lt_mul (UInt64.toNat_lt g.draw.1)
  dsimp only
  generalize g.draw.1.toNat / 4096 = k at hword ⊢
  have hk : (0 : ℚ) ≤ k ∧ (k : ℚ) + 1 ≤ 2 ^ 52 := ⟨Nat.cast_nonneg k, by exact_mod_cast hword⟩
  have hq : ((Binary64.leadingBit + k : ℕ) : ℚ) / (2 * Binary64.leadingBit : ℕ) =
      (2 ^ 52 + k) / 2 ^ 53 := by
    rw [show Binary64.leadingBit = 2 ^ 52 from rfl]
    push_cast
    norm_num
  have hhalf : (1 : ℚ) / 2 ≤ (2 ^ 52 + k) / 2 ^ 53 := by linarith [hk.1]
  have hone : (2 ^ 52 + k : ℚ) / 2 ^ 53 ≤ 1 - 1 / 2 ^ 53 := by linarith [hk.2]
  have hnearest := @Binary64.nearest_spec (Binary64.leadingBit + k) (2 * Binary64.leadingBit)
    (by rw [Binary64.leadingBit]; omega) (by decide)
  rw [hq] at hnearest
  obtain ⟨hfinite, hround⟩ := hnearest (by linarith) (by linarith)
  refine ⟨hfinite, ?_, ?_⟩
  · refine le_trans ?_ (hround.ge_of_ge (n := 1) (e := -1) (by norm_num) ?_)
    · norm_num
    · exact le_trans (by norm_num) hhalf
  · refine le_trans (hround.le_of_le (n := 2 ^ 53 - 1) (e := -53) (by norm_num) ?_) ?_
    · exact hone.trans (by norm_num)
    · norm_num

namespace Time

/-- A length is rounded by at most half of the distance of its neighbours. -/
lemma ofInt_spec {t : Time} (ht : 0 < t.ticks) :
    (∃ m e, Binary64.ofInt t.ticks = finite false m e) ∧
      IsRounding t.ticks (Binary64.ofInt t.ticks).magnitude ∧
      ∃ (e : ℤ) (m : ℕ), e ≤ 10 ∧ 2 ^ 52 * (2 : ℚ) ^ e ≤ t.ticks ∧ (t.ticks : ℚ) < 2 ^ 53 * 2 ^ e ∧
        |(m : ℚ) - t.ticks / 2 ^ e| ≤ 1 / 2 ∧ (Binary64.ofInt t.ticks).magnitude = m * 2 ^ e := by
  obtain ⟨hfinite, hround⟩ := Binary64.ofInt_spec ht t.ticks_lt
  refine ⟨hfinite, hround, ?_⟩
  obtain ⟨e, m, hle, hlt, hnear, hvalue⟩ := hround
  refine ⟨e, m, ?_, hle, hlt, hnear, hvalue⟩
  have h : (2 : ℚ) ^ (e + 52) < 2 ^ (63 : ℤ) := by
    rw [zpow_add₀ two_ne_zero, mul_comm]
    refine lt_of_le_of_lt hle ?_
    exact_mod_cast t.ticks_lt
  have := (zpow_lt_zpow_iff_right₀ one_lt_two).mp h
  omega

section

variable {t : Time} {x : Binary64}

/-- A part of a length that is less than the whole is not rounded to more than the whole, even if
the length itself was rounded up. -/
lemma magnitude_mul_le (ht : 0 < t.ticks) (hx : ∃ m e, x = finite false m e)
    (hhalf : 1 / 2 ≤ x.magnitude) (hone : x.magnitude ≤ 1 - 1 / 2 ^ 53) :
    (∃ m e, (Binary64.ofInt t.ticks).mul x = finite false m e) ∧
      ((Binary64.ofInt t.ticks).mul x).magnitude ≤ t.ticks ∧
      (Binary64.ofInt t.ticks).magnitude / 2 ≤ ((Binary64.ofInt t.ticks).mul x).magnitude := by
  obtain ⟨hfinite, hround, e, m, -, hle, hlt, hnear, hvalue⟩ := ofInt_spec ht
  have hone' : (1 : ℚ) ≤ (Binary64.ofInt t.ticks).magnitude := by
    have hticks : (1 : ℚ) ≤ t.ticks := by exact_mod_cast ht
    simpa using hround.ge_of_ge (n := 1) (e := 0) (by norm_num) (by simpa using hticks)
  have hmax : (Binary64.ofInt t.ticks).magnitude ≤ 2 ^ 63 := by
    have hticks : (t.ticks : ℚ) ≤ 2 ^ 63 := by exact_mod_cast t.ticks_lt.le
    simpa using hround.le_of_le (n := 1) (e := 63) (by norm_num) (by simpa using hticks)
  obtain ⟨hresult, hproduct⟩ := Binary64.mul_spec hfinite hx
    (by nlinarith only [hone', hhalf]) (by nlinarith only [hone', hmax, hone, hhalf])
  have hpos : (0 : ℚ) < 2 ^ e := zpow_pos two_pos e
  have hbits : m ≤ 2 ^ 53 := by
    rw [← div_lt_iff₀ hpos] at hlt
    have hm : (m : ℚ) < 2 ^ 53 + 1 := by linarith [(abs_le.mp hnear).2]
    exact Nat.lt_succ_iff.mp (by exact_mod_cast hm)
  have hnear : (m - 1 / 2 : ℚ) * 2 ^ e ≤ t.ticks := by
    rw [← le_div_iff₀ hpos]
    linarith [(abs_le.mp hnear).2]
  rw [hvalue] at hproduct ⊢
  refine ⟨hresult, ?_, ?_⟩
  · rcases le_or_gt (m * 2 ^ e : ℚ) t.ticks with hdown | hup
    · refine (hproduct.le_of_le hbits ?_).trans hdown
      nlinarith only [hone, show (0 : ℚ) ≤ m * 2 ^ e by positivity]
    · -- the length was rounded up, so its significand is not the least one
      have hleast : (2 ^ 52 : ℚ) < m := by
        by_contra hnot
        nlinarith only [hnot, hup, hle, hpos]
      have hleast : 2 ^ 52 < m := by exact_mod_cast hleast
      obtain ⟨n, rfl⟩ : ∃ n, m = n + 1 := ⟨m - 1, by omega⟩
      have hn : (2 ^ 52 : ℚ) ≤ n := by exact_mod_cast Nat.lt_succ_iff.mp hleast
      push_cast at hproduct hnear
      refine (hproduct.le_of_lt_midpoint (n := n) (e := e) (by omega) (by omega) ?_).trans ?_
      · calc (n + 1 : ℚ) * 2 ^ e * x.magnitude ≤ (n + 1) * 2 ^ e * (1 - 1 / 2 ^ 53) := by gcongr
          _ < (n + 1 / 2) * 2 ^ e := by nlinarith only [hn, hpos]
      · nlinarith only [hnear, hpos]
  · have hlow : (m * 2 ^ e : ℚ) / 2 = m * 2 ^ (e - 1) := by
      rw [zpow_sub_one₀ two_ne_zero]
      ring
    rw [hlow]
    refine hproduct.ge_of_ge hbits ?_
    rw [← hlow]
    nlinarith only [hhalf, show (0 : ℚ) ≤ m * 2 ^ e by positivity]

/-- The part of a length lies within the length, and in its second half up to the rounding of the
length itself. -/
lemma scaleBy_spec (ht : 0 ≤ t.ticks) (hx : ∃ m e, x = finite false m e)
    (hhalf : 1 / 2 ≤ x.magnitude) (hone : x.magnitude ≤ 1 - 1 / 2 ^ 53) :
    0 ≤ (t.scaleBy x).ticks ∧ t.scaleBy x ≤ t ∧ t.ticks ≤ 2 * (t.scaleBy x).ticks + 512 ∧
      (t.ticks ≤ 2 ^ 53 → t.ticks ≤ 2 * (t.scaleBy x).ticks) := by
  rcases ht.eq_or_lt with hzero | hpos
  · obtain rfl : t = zero := Time.ext hzero.symm
    obtain ⟨m, e, rfl⟩ := hx
    have hscale : zero.scaleBy (finite false m e) = zero := by
      have hfactor : Binary64.ofInt zero.ticks = finite false 0 (-1074) := rfl
      have hproduct : (finite false 0 (-1074)).mul (finite false m e) = finite false 0 (-1074) := by
        simp only [Binary64.mul, Nat.zero_mul]
        rfl
      rw [scaleBy, hfactor, hproduct]
      decide +kernel
    rw [hscale]
    decide
  · obtain ⟨⟨m, e, hm⟩, hle, hge⟩ := magnitude_mul_le hpos hx hhalf hone
    obtain ⟨hfloor, hceil⟩ := Binary64.roundHalfAway_spec m e
    obtain ⟨-, hround, e', m', he', hlow, -, hnear, hvalue⟩ := ofInt_spec hpos
    rw [hm, magnitude] at hle hge
    have hupper : Binary64.roundHalfAway false m e ≤ t.ticks := by
      have h : (Binary64.roundHalfAway false m e : ℚ) < t.ticks + 1 := by linarith
      exact Int.lt_add_one_iff.mp (by exact_mod_cast h)
    have hlower : ∀ k : ℤ, (k : ℚ) ≤ (Binary64.ofInt t.ticks).magnitude →
        k ≤ 2 * Binary64.roundHalfAway false m e := by
      intro k hk
      have h : (k : ℚ) < 2 * Binary64.roundHalfAway false m e + 1 := by linarith
      exact Int.lt_add_one_iff.mp (by exact_mod_cast h)
    have hpow : (0 : ℚ) < 2 ^ e' := zpow_pos two_pos e'
    have hnonneg : 0 ≤ 2 * Binary64.roundHalfAway false m e := by
      refine hlower 0 ?_
      rw [hvalue]
      positivity
    have hloose : t.ticks - 512 ≤ 2 * Binary64.roundHalfAway false m e := by
      refine hlower _ ?_
      have hulp : (2 : ℚ) ^ e' ≤ 2 ^ (10 : ℤ) := zpow_le_zpow_right₀ one_le_two he'
      have hdiff : (t.ticks : ℚ) ≤ (m' + 1 / 2) * 2 ^ e' := by
        rw [← div_le_iff₀ hpow]
        linarith [(abs_le.mp hnear).1]
      rw [hvalue]
      push_cast
      norm_num at hulp
      linarith
    have hexact : t.ticks ≤ 2 ^ 53 → t.ticks ≤ 2 * Binary64.roundHalfAway false m e := by
      intro hbits
      refine hlower _ ?_
      rw [hround.eq_of_eq (n := t.ticks.toNat) (e := 0) (by omega)]
      rw [zpow_zero, mul_one, ← Int.cast_natCast, Int.toNat_of_nonneg ht]
    have hscale : (t.scaleBy x).ticks = Binary64.roundHalfAway false m e := by
      have hlt := t.ticks_lt
      rw [scaleBy, hm, nearest, ticks_clamp]
      omega
    rw [le_iff, hscale]
    exact ⟨by omega, hupper, by omega, hexact⟩

/-- The firing point of an interval that is drawn lies within the interval. -/
lemma firingPoint_spec (ht : 0 ≤ t.ticks) (g : Generator) :
    0 ≤ (t.scaleBy g.upperHalf.1).ticks ∧ t.scaleBy g.upperHalf.1 ≤ t ∧
      t.ticks ≤ 2 * (t.scaleBy g.upperHalf.1).ticks + 512 ∧
      (t.ticks ≤ 2 ^ 53 → t.ticks ≤ 2 * (t.scaleBy g.upperHalf.1).ticks) := by
  obtain ⟨hfinite, hhalf, hone⟩ := g.upperHalf_spec
  exact scaleBy_spec ht hfinite hhalf hone

end

end Time

end EventKernel
