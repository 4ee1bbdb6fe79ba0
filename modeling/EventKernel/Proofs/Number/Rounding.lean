import Mathlib.Algebra.Order.Field.Power
import Mathlib.Data.Rat.Cast.Order
import Mathlib.Tactic.FieldSimp
import Mathlib.Tactic.Linarith
import Mathlib.Tactic.Positivity
import Mathlib.Tactic.Ring
import EventKernel.Number.Binary64

/-!
# Rounding to the binary format

What is rounded to 53 bits moves by at most half a unit in the last place. So rounding never goes
past a number that has at most 53 bits, and what lies below the midpoint of two neighbours is not
rounded up to the greater one.
-/

namespace EventKernel.Binary64

/-! ### Exponents and significands -/

lemma powerOfTwo_spec (e : Int) :
    0 < (powerOfTwo e).1 ∧ 0 < (powerOfTwo e).2 ∧
      ((powerOfTwo e).1 : ℚ) / (powerOfTwo e).2 = 2 ^ e := by
  rw [powerOfTwo]
  split
  · next h =>
    refine ⟨Nat.two_pow_pos _, Nat.one_pos, ?_⟩
    obtain ⟨k, rfl⟩ := Int.eq_ofNat_of_zero_le h
    simp
  · next h =>
    refine ⟨Nat.one_pos, Nat.two_pow_pos _, ?_⟩
    obtain ⟨k, hk⟩ := Int.eq_ofNat_of_zero_le (show 0 ≤ -e by omega)
    obtain rfl : e = -(k : Int) := by omega
    simp [zpow_neg]

/-- Rounding to a whole number moves by at most a half. -/
lemma abs_roundHalfEven_sub (num : Nat) {den : Nat} (hden : 0 < den) :
    |(roundHalfEven num den : ℚ) - num / den| ≤ 1 / 2 := by
  have hdiv := Nat.div_add_mod num den
  have hmod := Nat.mod_lt num hden
  have hpos : (0 : ℚ) < den := by exact_mod_cast hden
  have hq : (num : ℚ) / den = (num / den : Nat) + (num % den : Nat) / den := by
    rw [eq_comm, ← mul_right_inj' hpos.ne']
    field_simp
    exact_mod_cast hdiv
  have hr : ((num % den : Nat) : ℚ) / den < 1 := by
    rw [div_lt_one hpos]
    exact_mod_cast hmod
  have hr0 : (0 : ℚ) ≤ ((num % den : Nat) : ℚ) / den := by positivity
  rw [hq, roundHalfEven]
  have hlow : 2 * (num % den) ≤ den → ((num % den : Nat) : ℚ) / den ≤ 1 / 2 := by
    intro h
    rw [div_le_iff₀ hpos]
    have : (2 : ℚ) * (num % den : Nat) ≤ den := by exact_mod_cast h
    linarith
  have hhigh : den ≤ 2 * (num % den) → 1 / 2 ≤ ((num % den : Nat) : ℚ) / den := by
    intro h
    rw [le_div_iff₀ hpos]
    have : (den : ℚ) ≤ 2 * (num % den : Nat) := by exact_mod_cast h
    linarith
  split
  · next h =>
    rw [abs_le]
    have := hlow h.le
    constructor <;> linarith
  · next h =>
    rw [not_lt] at h
    have hup := hhigh h
    split
    · push_cast
      rw [abs_le]
      constructor <;> linarith
    · next h' =>
      have := hlow (not_lt.mp h')
      split
      · rw [abs_le]
        constructor <;> linarith
      · push_cast
        rw [abs_le]
        constructor <;> linarith


/-- The exponent gives a significand of 53 bits. -/
lemma exponentOf_spec {num den : Nat} (hnum : 0 < num) (hden : 0 < den) :
    (2 : ℚ) ^ 52 * 2 ^ exponentOf num den ≤ num / den ∧
      (num / den : ℚ) < 2 ^ 53 * 2 ^ exponentOf num den := by
  have hpos : (0 : ℚ) < den := by exact_mod_cast hden
  have hn : (2 : ℚ) ^ (num.log2 : ℤ) ≤ num ∧ (num : ℚ) < 2 ^ ((num.log2 : ℤ) + 1) := by
    constructor
    · exact_mod_cast Nat.log2_self_le hnum.ne'
    · exact_mod_cast Nat.lt_log2_self (n := num)
  have hd : (2 : ℚ) ^ (den.log2 : ℤ) ≤ den ∧ (den : ℚ) < 2 ^ ((den.log2 : ℤ) + 1) := by
    constructor
    · exact_mod_cast Nat.log2_self_le hden.ne'
    · exact_mod_cast Nat.lt_log2_self (n := den)
  have hsplit : ∀ e : ℤ,
      (2 : ℚ) ^ 52 * 2 ^ e = 2 ^ (e + 52) ∧ (2 : ℚ) ^ 53 * 2 ^ e = 2 ^ (e + 53) := by
    intro e
    rw [zpow_add₀ two_ne_zero, zpow_add₀ two_ne_zero, mul_comm, mul_comm ((2 : ℚ) ^ 53)]
    exact ⟨rfl, rfl⟩
  rw [(hsplit _).1, (hsplit _).2, exponentOf]
  set e : ℤ := (num.log2 : ℤ) - den.log2 - 52 with he
  obtain ⟨hp, hq, hpow⟩ := powerOfTwo_spec (-(e + 52))
  have hp' : (0 : ℚ) < (powerOfTwo (-(e + 52))).1 := by exact_mod_cast hp
  -- the comparison tells the quotient from a power of two
  have hcompare : num * (powerOfTwo (-(e + 52))).1 < den * (powerOfTwo (-(e + 52))).2 ↔
      (num / den : ℚ) < 2 ^ (e + 52) := by
    rw [← inv_inv ((2 : ℚ) ^ (e + 52)), ← zpow_neg, ← hpow, inv_div, div_lt_div_iff₀ hpos hp',
      mul_comm ((powerOfTwo (-(e + 52))).2 : ℚ)]
    exact_mod_cast Iff.rfl
  dsimp only
  split
  · next h =>
    rw [hcompare] at h
    constructor
    · rw [le_div_iff₀ hpos]
      calc (2 : ℚ) ^ (e - 1 + 52) * den ≤ 2 ^ (e - 1 + 52) * 2 ^ ((den.log2 : ℤ) + 1) := by
            gcongr
            exact hd.2.le
        _ = 2 ^ (num.log2 : ℤ) := by
            rw [← zpow_add₀ two_ne_zero]
            congr 1
            omega
        _ ≤ num := hn.1
    · rwa [show e - 1 + 53 = e + 52 by ring]
  · next h =>
    rw [hcompare, not_lt] at h
    refine ⟨h, ?_⟩
    rw [div_lt_iff₀ hpos]
    calc (num : ℚ) < 2 ^ ((num.log2 : ℤ) + 1) := hn.2
      _ = 2 ^ (e + 53) * 2 ^ (den.log2 : ℤ) := by
          rw [← zpow_add₀ two_ne_zero]
          congr 1
          omega
      _ ≤ 2 ^ (e + 53) * den := by
          gcongr
          exact hd.1

/-! ### The nearest number -/

/-- The value of a number that is finite and not negative. -/
def magnitude : Binary64 → ℚ
  | finite _ m e => m * 2 ^ e
  | nan | infinite _ => 0

/-- A value that arises from a positive number by rounding its significand to 53 bits. -/
def IsRounding (q v : ℚ) : Prop :=
  ∃ (e : ℤ) (m : ℕ), 2 ^ 52 * 2 ^ e ≤ q ∧ q < 2 ^ 53 * 2 ^ e ∧ |(m : ℚ) - q / 2 ^ e| ≤ 1 / 2 ∧
    v = m * 2 ^ e

/-- Numbers that are far from the ends of the range of the format are rounded to 53 bits. -/
lemma nearest_spec {num den : Nat} (hnum : 0 < num) (hden : 0 < den)
    (hlow : (1 : ℚ) / 4 ≤ num / den) (hhigh : (num / den : ℚ) < 2 ^ 64) :
    (∃ m e, nearest false num den = finite false m e) ∧
      IsRounding (num / den) (nearest false num den).magnitude := by
  obtain ⟨hle, hlt⟩ := exponentOf_spec hnum hden
  have hupper : exponentOf num den ≤ 970 := by
    have h : (2 : ℚ) ^ (exponentOf num den + 52) < 2 ^ (64 : ℤ) := by
      rw [zpow_add₀ two_ne_zero, mul_comm]
      exact lt_of_le_of_lt hle hhigh
    have := (zpow_lt_zpow_iff_right₀ one_lt_two).mp h
    omega
  have hlower : -1074 ≤ exponentOf num den := by
    have h : (2 : ℚ) ^ (-2 : ℤ) < 2 ^ (exponentOf num den + 53) := by
      rw [zpow_add₀ two_ne_zero, mul_comm]
      exact lt_of_le_of_lt (le_trans (by norm_num) hlow) hlt
    have := (zpow_lt_zpow_iff_right₀ one_lt_two).mp h
    omega
  have hmax : max (exponentOf num den) (-1074) = exponentOf num den := by omega
  obtain ⟨hp, hq, hpow⟩ := powerOfTwo_spec (-exponentOf num den)
  have hround := abs_roundHalfEven_sub (num * (powerOfTwo (-exponentOf num den)).1)
    (Nat.mul_pos hden hq)
  have hscaled : ((num * (powerOfTwo (-exponentOf num den)).1 : Nat) : ℚ) /
      (den * (powerOfTwo (-exponentOf num den)).2 : Nat) =
      num / den / 2 ^ exponentOf num den := by
    push_cast
    rw [mul_div_mul_comm, hpow, zpow_neg, ← div_eq_mul_inv]
  rw [hscaled] at hround
  have hresult : ∃ m e', nearest false num den = finite false m e' ∧
      (m : ℚ) * 2 ^ e' = roundHalfEven (num * (powerOfTwo (-exponentOf num den)).1)
        (den * (powerOfTwo (-exponentOf num den)).2) * 2 ^ exponentOf num den := by
    rw [nearest, if_neg hnum.ne', hmax]
    dsimp only
    split
    · next hcarry =>
      refine ⟨leadingBit, _, if_neg (by omega), ?_⟩
      rw [hcarry, zpow_add_one₀ two_ne_zero]
      push_cast
      ring
    · exact ⟨_, _, if_neg (by omega), rfl⟩
  obtain ⟨m, e', hnearest, hvalue⟩ := hresult
  refine ⟨⟨m, e', hnearest⟩, _, _, hle, hlt, hround, ?_⟩
  rw [hnearest, magnitude, hvalue]

/-- The next binade begins where 53 bits of the one below end. -/
lemma two_pow_mul_zpow_le {e e' : ℤ} (h : e < e') :
    (2 : ℚ) ^ 53 * 2 ^ e ≤ 2 ^ 52 * 2 ^ e' := by
  calc (2 : ℚ) ^ 53 * 2 ^ e = 2 ^ 52 * 2 ^ (e + 1) := by
        rw [zpow_add_one₀ two_ne_zero]
        ring
    _ ≤ 2 ^ 52 * 2 ^ e' := by
        gcongr
        · exact one_le_two
        · exact h

section

variable {q v : ℚ} {n : ℕ} {e : ℤ}

/-- Rounding does not go past a number that has at most 53 bits. -/
lemma IsRounding.le_of_le (h : IsRounding q v) (hn : n ≤ 2 ^ 53) (hq : q ≤ n * 2 ^ e) :
    v ≤ n * 2 ^ e := by
  obtain ⟨e', m, hle, hlt, hround, rfl⟩ := h
  have hpos : (0 : ℚ) < 2 ^ e' := zpow_pos two_pos e'
  -- what has the same exponent is a bound for the significand
  have hbound : ∀ l : ℕ, q ≤ l * 2 ^ e' → m ≤ l := by
    intro l hl
    rw [← div_le_iff₀ hpos] at hl
    have hm : (m : ℚ) < l + 1 := by linarith [(abs_le.mp hround).2]
    exact Nat.lt_succ_iff.mp (by exact_mod_cast hm)
  rcases le_or_gt e' e with he | he
  · obtain ⟨k, rfl⟩ := Int.le.dest he
    have hshift : (n : ℚ) * 2 ^ (e' + k) = (n * 2 ^ k : ℕ) * 2 ^ e' := by
      rw [zpow_add₀ two_ne_zero, zpow_natCast]
      push_cast
      ring
    rw [hshift] at hq ⊢
    gcongr
    exact hbound _ hq
  · have hn : (n : ℚ) ≤ 2 ^ 53 := by exact_mod_cast hn
    have hm : m ≤ 2 ^ 52 := by
      refine hbound _ ?_
      push_cast
      calc q ≤ n * 2 ^ e := hq
        _ ≤ 2 ^ 53 * 2 ^ e := by gcongr
        _ ≤ 2 ^ 52 * 2 ^ e' := two_pow_mul_zpow_le he
    have hm : (m : ℚ) ≤ 2 ^ 52 := by exact_mod_cast hm
    calc (m : ℚ) * 2 ^ e' ≤ 2 ^ 52 * 2 ^ e' := by gcongr
      _ ≤ q := hle
      _ ≤ n * 2 ^ e := hq

lemma IsRounding.ge_of_ge (h : IsRounding q v) (hn : n ≤ 2 ^ 53) (hq : n * 2 ^ e ≤ q) :
    n * 2 ^ e ≤ v := by
  obtain ⟨e', m, hle, hlt, hround, rfl⟩ := h
  have hpos : (0 : ℚ) < 2 ^ e' := zpow_pos two_pos e'
  have hbound : ∀ l : ℕ, (l : ℚ) * 2 ^ e' ≤ q → l ≤ m := by
    intro l hl
    rw [← le_div_iff₀ hpos] at hl
    have hm : (l : ℚ) < m + 1 := by linarith [(abs_le.mp hround).1]
    exact Nat.lt_succ_iff.mp (by exact_mod_cast hm)
  rcases le_or_gt e' e with he | he
  · obtain ⟨k, rfl⟩ := Int.le.dest he
    have hshift : (n : ℚ) * 2 ^ (e' + k) = (n * 2 ^ k : ℕ) * 2 ^ e' := by
      rw [zpow_add₀ two_ne_zero, zpow_natCast]
      push_cast
      ring
    rw [hshift] at hq ⊢
    gcongr
    exact hbound _ hq
  · have hn : (n : ℚ) ≤ 2 ^ 53 := by exact_mod_cast hn
    have hm : 2 ^ 52 ≤ m := hbound _ (by exact_mod_cast hle)
    have hm : (2 ^ 52 : ℚ) ≤ m := by exact_mod_cast hm
    calc (n : ℚ) * 2 ^ e ≤ 2 ^ 53 * 2 ^ e := by gcongr
      _ ≤ 2 ^ 52 * 2 ^ e' := two_pow_mul_zpow_le he
      _ ≤ m * 2 ^ e' := by gcongr

/-- What has at most 53 bits stays as it is. -/
lemma IsRounding.eq_of_eq (h : IsRounding q v) (hn : n ≤ 2 ^ 53) (hq : q = n * 2 ^ e) : v = q := by
  rw [hq]
  exact le_antisymm (h.le_of_le hn hq.le) (h.ge_of_ge hn hq.ge)

/-- What lies below the midpoint of two neighbours is not rounded up. -/
lemma IsRounding.le_of_lt_midpoint (h : IsRounding q v) (hle : 2 ^ 52 ≤ n) (hlt : n < 2 ^ 53)
    (hq : q < (n + 1 / 2) * 2 ^ e) : v ≤ n * 2 ^ e := by
  by_cases hsmall : q ≤ n * 2 ^ e
  · exact h.le_of_le hlt.le hsmall
  have hn : (2 ^ 52 : ℚ) ≤ n := by exact_mod_cast hle
  have hn' : (n : ℚ) + 1 ≤ 2 ^ 53 := by exact_mod_cast hlt
  obtain ⟨e', m, hle', hlt', hround, rfl⟩ := h
  have hpos : ∀ e : ℤ, (0 : ℚ) < 2 ^ e := zpow_pos two_pos
  -- the number has the same exponent as its neighbours
  obtain rfl : e' = e := by
    rcases lt_trichotomy e' e with he | he | he
    · refine absurd ?_ hsmall
      calc q ≤ 2 ^ 53 * 2 ^ e' := hlt'.le
        _ ≤ 2 ^ 52 * 2 ^ e := two_pow_mul_zpow_le he
        _ ≤ n * 2 ^ e := by
            have := hpos e
            gcongr
    · exact he
    · have hlow : q < 2 ^ 53 * 2 ^ e :=
        hq.trans_le (mul_le_mul_of_nonneg_right (by linarith) (hpos e).le)
      exact absurd (hlow.trans_le (two_pow_mul_zpow_le he)) (not_lt.mpr hle')
  have hm : (m : ℚ) < n + 1 := by
    rw [← div_lt_iff₀ (hpos e')] at hq
    linarith [(abs_le.mp hround).2]
  have hm : m ≤ n := Nat.lt_succ_iff.mp (by exact_mod_cast hm)
  gcongr

end

/-! ### Whole numbers -/

lemma ofInt_spec {n : Int} (hpos : 0 < n) (hlt : n < 2 ^ 63) :
    (∃ m e, ofInt n = finite false m e) ∧ IsRounding n (ofInt n).magnitude := by
  obtain ⟨k, rfl⟩ := Int.eq_ofNat_of_zero_le hpos.le
  have hk : 0 < k := by omega
  have hone : (1 : ℚ) ≤ k := by exact_mod_cast hk
  have hlow : (1 : ℚ) / 4 ≤ (k : ℚ) / (1 : ℕ) := by
    rw [Nat.cast_one, div_one]
    linarith
  have hhigh : (k : ℚ) / (1 : ℕ) < 2 ^ 64 := by
    have hlt : (k : ℚ) < 2 ^ 63 := by exact_mod_cast hlt
    rw [Nat.cast_one, div_one]
    linarith
  have h := nearest_spec hk Nat.one_pos hlow hhigh
  have hsign : decide ((k : Int) < 0) = false := by simp
  rw [ofInt, Int.natAbs_natCast, hsign, Int.cast_natCast]
  rwa [Nat.cast_one, div_one] at h

/-- Halves are rounded up. -/
lemma roundHalfAway_spec (m : Nat) (e : Int) :
    (roundHalfAway false m e : ℚ) ≤ m * 2 ^ e + 1 / 2 ∧
      (m * 2 ^ e + 1 / 2 : ℚ) < roundHalfAway false m e + 1 := by
  obtain ⟨-, hq, hpow⟩ := powerOfTwo_spec e
  rw [← hpow, roundHalfAway]
  generalize powerOfTwo e = r at hq ⊢
  obtain ⟨p, q⟩ := r
  have hpos : (0 : ℚ) < q := by exact_mod_cast hq
  have hvalue : (m : ℚ) * (p / q) + 1 / 2 = (2 * m * p + q : ℕ) / (2 * q : ℕ) := by
    push_cast
    field_simp
  have hden : 0 < 2 * q := Nat.mul_pos Nat.two_pos hq
  have hden' : (0 : ℚ) < (2 * q : ℕ) := by exact_mod_cast hden
  dsimp only
  rw [hvalue, if_neg Bool.false_ne_true, Int.cast_natCast]
  constructor
  · rw [le_div_iff₀ hden']
    exact_mod_cast Nat.div_mul_le_self _ _
  · rw [div_lt_iff₀ hden']
    exact_mod_cast Nat.lt_mul_of_div_lt (Nat.lt_succ_self _) hden

/-- The product of two positive numbers is rounded once. -/
lemma mul_spec {x y : Binary64} (hx : ∃ m e, x = finite false m e)
    (hy : ∃ m e, y = finite false m e)
    (hlow : 1 / 4 ≤ x.magnitude * y.magnitude) (hhigh : x.magnitude * y.magnitude < 2 ^ 64) :
    (∃ m e, x.mul y = finite false m e) ∧
      IsRounding (x.magnitude * y.magnitude) (x.mul y).magnitude := by
  obtain ⟨m, e, rfl⟩ := hx
  obtain ⟨n, f, rfl⟩ := hy
  obtain ⟨hp, hq, hpow⟩ := powerOfTwo_spec (e + f)
  have hvalue : (finite false m e).magnitude * (finite false n f).magnitude =
      (m * n * (powerOfTwo (e + f)).1 : ℕ) / (powerOfTwo (e + f)).2 := by
    push_cast
    rw [mul_div_assoc, hpow, zpow_add₀ two_ne_zero, magnitude, magnitude]
    ring
  rw [hvalue] at hlow hhigh ⊢
  have hpos : 0 < m * n * (powerOfTwo (e + f)).1 := by
    have hq' : (0 : ℚ) < (powerOfTwo (e + f)).2 := by exact_mod_cast hq
    have hpos := lt_of_lt_of_le (show (0 : ℚ) < 1 / 4 by norm_num) hlow
    rw [div_pos_iff_of_pos_right hq'] at hpos
    exact_mod_cast hpos
  exact nearest_spec hpos hq hlow hhigh

end EventKernel.Binary64
