import Mathlib.Algebra.Order.Field.Power
import Mathlib.Data.Rat.Floor
import Mathlib.Tactic.Linarith
import Mathlib.Tactic.NormNum
import EventKernel.Time.Resolution

/-!
# Conversion between units

A number of units is converted by a power of ten, which is exact as a rational number, then
truncated toward zero and clamped to the range of times. All this can be computed in words of 128
bits. Converting to finer units and back changes nothing, unless the range was left in between;
converting to coarser ones loses less than one of them.
-/

namespace EventKernel

/-! ### Truncation toward zero -/

/-- The whole number next to a rational one, in the direction of zero. -/
def towardZero (q : ℚ) : ℤ := if 0 ≤ q then ⌊q⌋ else ⌈q⌉

lemma towardZero_intCast (n : ℤ) : towardZero n = n := by
  rw [towardZero, Int.floor_intCast, Int.ceil_intCast, ite_self]

lemma towardZero_of_nonpos {q : ℚ} (hq : q ≤ 0) : towardZero q = ⌈q⌉ := by
  rw [towardZero]
  split
  · next h => rw [le_antisymm hq h, Int.floor_zero, Int.ceil_zero]
  · rfl

lemma towardZero_neg (q : ℚ) : towardZero (-q) = -towardZero q := by
  rcases le_total 0 q with hq | hq
  · rw [towardZero_of_nonpos (neg_nonpos.mpr hq), towardZero, if_pos hq, Int.ceil_neg]
  · rw [towardZero, if_pos (neg_nonneg.mpr hq), towardZero_of_nonpos hq, Int.floor_neg]

lemma towardZero_mono {p q : ℚ} (hpq : p ≤ q) : towardZero p ≤ towardZero q := by
  rcases le_or_gt 0 p with hp | hp
  · rw [towardZero, if_pos hp, towardZero, if_pos (hp.trans hpq)]
    exact Int.floor_mono hpq
  · rw [towardZero_of_nonpos hp.le]
    rcases le_total 0 q with hq | hq
    · rw [towardZero, if_pos hq]
      exact (Int.ceil_nonpos.mpr hp.le).trans (Int.floor_nonneg.mpr hq)
    · rw [towardZero_of_nonpos hq]
      exact Int.ceil_mono hpq

lemma towardZero_div (n : ℤ) (d : ℕ) : towardZero (n / d) = n.tdiv d := by
  have hdiv : ∀ m : ℕ, towardZero ((m : ℤ) / d) = (m : ℤ).tdiv d := by
    intro m
    rw [towardZero, if_pos (by positivity), Rat.floor_intCast_div_natCast,
      Int.tdiv_eq_ediv_of_nonneg (Int.natCast_nonneg m)]
  obtain ⟨m, rfl | rfl⟩ := n.eq_nat_or_neg
  · exact hdiv m
  · rw [Int.cast_neg, neg_div, towardZero_neg, hdiv, Int.neg_tdiv]

/-- Truncation to a multiple goes toward zero by less than the divisor. -/
lemma tdiv_mul_spec (n : ℤ) {d : ℕ} (hd : 0 < d) :
    n.tdiv d * d ∈ Set.uIcc 0 n ∧ |n - n.tdiv d * d| < d := by
  have hmod : n - n.tdiv d * d = n.tmod d := by
    rw [mul_comm, Int.tmod_def]
  have habs : (n.tmod d).natAbs < d := by
    rw [Int.natAbs_tmod, Int.natAbs_natCast]
    exact Nat.mod_lt _ hd
  rw [Set.mem_uIcc, hmod, abs_lt]
  rcases le_total 0 n with hn | hn
  · have hmod' : 0 ≤ n.tmod d := Int.tmod_nonneg _ hn
    have hdiv : 0 ≤ n.tdiv d * d := mul_nonneg (Int.tdiv_nonneg hn (by omega)) (by omega)
    omega
  · have hmod' : 0 ≤ (-n).tmod d := Int.tmod_nonneg _ (by omega)
    have hdiv : 0 ≤ (-n).tdiv d * d := mul_nonneg (Int.tdiv_nonneg (by omega) (by omega)) (by omega)
    rw [Int.neg_tmod] at hmod'
    rw [Int.neg_tdiv, neg_mul] at hdiv
    omega

/-! ### Scaling -/

lemma scaleByTen_eq (n shift : ℤ) : scaleByTen n shift = towardZero (n * 10 ^ shift) := by
  have hpower (k : ℕ) : (powerOfTen k : ℚ) = 10 ^ k := Nat.cast_pow 10 k
  rw [scaleByTen]
  split
  · next h =>
    obtain ⟨k, rfl⟩ := Int.eq_ofNat_of_zero_le h
    have hwhole : (n * 10 ^ k : ℚ) = (n * powerOfTen k : ℤ) := by
      rw [Int.cast_mul, Int.cast_natCast, hpower]
    rw [Int.toNat_natCast, zpow_natCast, hwhole, towardZero_intCast]
  · next h =>
    obtain ⟨k, hk⟩ := Int.eq_ofNat_of_zero_le (a := -shift) (by omega)
    obtain rfl : shift = -k := by omega
    rw [neg_neg, Int.toNat_natCast, zpow_neg, zpow_natCast, ← hpower, ← div_eq_mul_inv,
      towardZero_div]

/-- Scaling in words of 128 bits, which wrap around. -/
def scaleWord (n shift : ℤ) : BitVec 128 :=
  if 0 ≤ shift then .ofInt 128 n * .ofInt 128 (powerOfTen shift.toNat)
  else (BitVec.ofInt 128 n).sdiv (.ofInt 128 (powerOfTen (-shift).toNat))

/-- Words of 128 bits hold every number that comes up. -/
lemma toInt_scaleWord {n shift : ℤ} (hn : -2 ^ 63 ≤ n ∧ n < 2 ^ 63) (hshift : |shift| ≤ 15) :
    (scaleWord n shift).toInt = scaleByTen n shift := by
  have hword {i : ℤ} (hi : -2 ^ 127 ≤ i ∧ i < 2 ^ 127) : i.bmod (2 ^ 128) = i :=
    Int.bmod_eq_of_le (by omega) (by omega)
  have hpower {k : ℕ} (hk : k ≤ 15) : 0 < powerOfTen k ∧ powerOfTen k ≤ 10 ^ 15 :=
    ⟨Nat.pow_pos (by decide), Nat.pow_le_pow_right (by decide) hk⟩
  have hn' : n.bmod (2 ^ 128) = n := hword (by omega)
  rw [abs_le] at hshift
  rw [scaleWord, scaleByTen]
  split
  · obtain ⟨hpos, hle⟩ := hpower (k := shift.toNat) (by omega)
    generalize powerOfTen shift.toNat = p at hpos hle
    have hp : (p : ℤ).bmod (2 ^ 128) = p := hword (by omega)
    have hmul : -2 ^ 127 ≤ n * p ∧ n * p < 2 ^ 127 := by
      constructor <;> nlinarith
    rw [BitVec.toInt_mul, BitVec.toInt_ofInt, BitVec.toInt_ofInt, hn', hp, hword hmul]
  · obtain ⟨hpos, hle⟩ := hpower (k := (-shift).toNat) (by omega)
    generalize powerOfTen (-shift).toNat = p at hpos hle
    have hp : (p : ℤ).bmod (2 ^ 128) = p := hword (by omega)
    have hdiv : (n.tdiv p).natAbs ≤ n.natAbs := Int.natAbs_tdiv_le_natAbs n p
    rw [BitVec.toInt_sdiv, BitVec.toInt_ofInt, BitVec.toInt_ofInt, hn', hp, hword (by omega)]

/-! ### Units -/

/-- So many units `u`, counted in units `v`. -/
def TimeUnit.convert (u v : TimeUnit) (n : ℤ) : ℚ := n * 10 ^ (u.exponent - v.exponent)

namespace TimeUnit

variable {u v : TimeUnit} {m n : ℤ}

lemma abs_exponent_sub_le (u v : TimeUnit) : |u.exponent - v.exponent| ≤ 15 := by
  cases u <;> cases v <;> decide

lemma convert_mono (h : m ≤ n) : u.convert v m ≤ u.convert v n :=
  mul_le_mul_of_nonneg_right (Int.cast_le.mpr h) (zpow_nonneg (by norm_num) _)

/-- Units are whole numbers of finer ones. -/
lemma convert_eq_of_le (h : v.exponent ≤ u.exponent) (n : ℤ) :
    u.convert v n = (n * powerOfTen (u.exponent - v.exponent).toNat : ℤ) := by
  obtain ⟨k, hk⟩ := Int.eq_ofNat_of_zero_le (a := u.exponent - v.exponent) (by omega)
  rw [convert, hk, zpow_natCast, Int.toNat_natCast, Int.cast_mul, Int.cast_natCast]
  exact congrArg _ (Nat.cast_pow 10 k).symm

/-- Nothing is lost on the way to finer units, so the way back is exact. -/
lemma convert_back (h : v.exponent ≤ u.exponent) (n : ℤ) :
    v.convert u (towardZero (u.convert v n)) = n := by
  have hwhole : (towardZero (u.convert v n) : ℚ) = u.convert v n := by
    rw [convert_eq_of_le h, towardZero_intCast]
  rw [convert, hwhole, convert, mul_assoc, ← zpow_add₀ (by norm_num), sub_add_sub_cancel, sub_self,
    zpow_zero, mul_one]

end TimeUnit

namespace Time

variable {r u : TimeUnit} {n : ℤ} {t : Time}

/-- A number of which the whole part is a time: clamping does not change it. -/
def Fits (q : ℚ) : Prop := (clamp (towardZero q)).ticks = towardZero q

lemma clamp_mono {m n : ℤ} (h : m ≤ n) : clamp m ≤ clamp n := by
  rw [le_iff, ticks_clamp, ticks_clamp]
  omega

lemma ticks_clamp_of_mem (h : n ∈ Set.uIcc 0 t.ticks) : (clamp n).ticks = n := by
  have h₁ := t.le_ticks
  have h₂ := t.ticks_lt
  rw [Set.mem_uIcc] at h
  rw [ticks_clamp]
  omega

lemma ofUnit_eq (r u : TimeUnit) (n : ℤ) : ofUnit r n u = clamp (towardZero (u.convert r n)) := by
  rw [ofUnit, scaleByTen_eq, TimeUnit.convert]

lemma inUnit_eq (r u : TimeUnit) (t : Time) :
    inUnit r t u = (clamp (towardZero (r.convert u t.ticks))).ticks := by
  rw [inUnit, scaleByTen_eq, TimeUnit.convert]

lemma inUnit_ofUnit (h : r.exponent ≤ u.exponent) (hfits : Fits (u.convert r t.ticks)) :
    inUnit r (ofUnit r t.ticks u) u = t.ticks := by
  rw [inUnit_eq, ofUnit_eq, hfits, TimeUnit.convert_back h, towardZero_intCast, clamp_ticks]

lemma ofUnit_inUnit (h : u.exponent ≤ r.exponent) (hfits : Fits (r.convert u t.ticks)) :
    ofUnit r (inUnit r t u) u = t := by
  rw [ofUnit_eq, inUnit_eq, hfits, TimeUnit.convert_back h, towardZero_intCast, clamp_ticks]

/-- Truncated to coarser units, a time is moved toward zero by less than one of them. -/
lemma ofUnit_inUnit_of_lt (h : r.exponent < u.exponent) (t : Time) :
    (ofUnit r (inUnit r t u) u).ticks ∈ Set.uIcc 0 t.ticks ∧
      |(t.ticks - (ofUnit r (inUnit r t u) u).ticks : ℚ)| < u.convert r 1 := by
  have hshift : -(r.exponent - u.exponent) = u.exponent - r.exponent := by omega
  have hunit := TimeUnit.convert_eq_of_le (Int.le_of_lt h)
  have hback := ofUnit_eq r u (inUnit r t u)
  rw [hunit, towardZero_intCast] at hback
  have hpos : 0 < powerOfTen (u.exponent - r.exponent).toNat := Nat.pow_pos (by decide)
  have hin : inUnit r t u =
      (clamp (t.ticks.tdiv (powerOfTen (u.exponent - r.exponent).toNat))).ticks := by
    rw [inUnit, scaleByTen, if_neg (by omega), hshift]
  rw [hunit, one_mul]
  generalize powerOfTen (u.exponent - r.exponent).toNat = d at hback hpos hin
  obtain ⟨hmem, hlt⟩ := tdiv_mul_spec t.ticks hpos
  have hquotient : t.ticks.tdiv d ∈ Set.uIcc 0 t.ticks := by
    rw [Set.mem_uIcc] at hmem ⊢
    have hd : (1 : ℤ) ≤ d := by omega
    rcases le_total 0 (t.ticks.tdiv d) with hq | hq
    · have := le_mul_of_one_le_right hq hd
      omega
    · have := mul_le_of_one_le_right hq hd
      omega
  rw [ticks_clamp_of_mem hquotient] at hin
  rw [hback, hin, ticks_clamp_of_mem hmem]
  exact ⟨hmem, by exact_mod_cast hlt⟩

/-- Conversion between units is exact, whatever the unit of a tick: a conversion is a scaling by a
power of ten, truncated toward zero and clamped, and words of 128 bits hold all that comes up on the
way. It is monotone. Converting to units that are not coarser and back changes nothing unless the
range was left in between. Converting to coarser ones moves a time toward zero by less than one of
them. -/
theorem unit_conversion_exact (r u : TimeUnit) :
    (∀ n : Int64,
      (scaleWord n.toInt (u.exponent - r.exponent)).toInt = towardZero (u.convert r n.toInt) ∧
        ofUnit r n.toInt u = clamp (towardZero (u.convert r n.toInt))) ∧
    (∀ t : Time,
      (scaleWord t.ticks (r.exponent - u.exponent)).toInt = towardZero (r.convert u t.ticks) ∧
        inUnit r t u = (clamp (towardZero (r.convert u t.ticks))).ticks) ∧
    (∀ m n : Int64, m ≤ n → ofUnit r m.toInt u ≤ ofUnit r n.toInt u) ∧
    (∀ s t : Time, s ≤ t → inUnit r s u ≤ inUnit r t u) ∧
    (r.exponent ≤ u.exponent → ∀ n : Int64, Fits (u.convert r n.toInt) →
      inUnit r (ofUnit r n.toInt u) u = n.toInt) ∧
    (u.exponent ≤ r.exponent → ∀ t : Time, Fits (r.convert u t.ticks) →
      ofUnit r (inUnit r t u) u = t) ∧
    (r.exponent < u.exponent → ∀ t : Time,
      (ofUnit r (inUnit r t u) u).ticks ∈ Set.uIcc 0 t.ticks ∧
        |(t.ticks - (ofUnit r (inUnit r t u) u).ticks : ℚ)| < u.convert r 1) := by
  have hword (n : Int64) : -2 ^ 63 ≤ n.toInt ∧ n.toInt < 2 ^ 63 := ⟨n.le_toInt, n.toInt_lt⟩
  refine ⟨fun n => ⟨?_, ofUnit_eq r u n.toInt⟩, fun t => ⟨?_, inUnit_eq r u t⟩, fun m n h => ?_,
    fun s t h => ?_, fun h n hfits => ?_, fun h t hfits => ofUnit_inUnit h hfits,
    fun h t => ofUnit_inUnit_of_lt h t⟩
  · rw [toInt_scaleWord (hword n) (TimeUnit.abs_exponent_sub_le u r), scaleByTen_eq]
    rfl
  · rw [toInt_scaleWord ⟨t.le_ticks, t.ticks_lt⟩ (TimeUnit.abs_exponent_sub_le r u), scaleByTen_eq]
    rfl
  · rw [ofUnit_eq, ofUnit_eq]
    exact clamp_mono (towardZero_mono (TimeUnit.convert_mono (Int64.le_iff_toInt_le.mp h)))
  · rw [inUnit_eq, inUnit_eq]
    exact clamp_mono (towardZero_mono (TimeUnit.convert_mono h))
  · exact inUnit_ofUnit (t := ⟨n.toInt, n.le_toInt, n.toInt_lt⟩) h hfits

end Time

end EventKernel
