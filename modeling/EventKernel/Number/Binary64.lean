/-!
# Binary floating-point numbers of 64 bits

A finite number is `± significand · 2 ^ exponent`. Every operation computes its exact rational
result and rounds it once, to the nearest number and to the even one of two equally near ones.
-/

namespace EventKernel

/-- A value of the 64-bit binary format. -/
inductive Binary64 where
  | nan
  | infinite (negative : Bool)
  | finite (negative : Bool) (significand : Nat) (exponent : Int)
  deriving DecidableEq, Repr

namespace Binary64

/-- The power of two with a whole exponent, as a pair of numerator and denominator. -/
def powerOfTwo (e : Int) : Nat × Nat :=
  if 0 ≤ e then (Nat.pow 2 e.toNat, 1) else (1, Nat.pow 2 (-e).toNat)

/-- The least significand of 53 bits, `2 ^ 52`. -/
def leadingBit : Nat := 4503599627370496

/-- The quotient `num / den` rounded to a whole number, a tie going to the even one. -/
def roundHalfEven (num den : Nat) : Nat :=
  let q := num / den
  let r := num % den
  if 2 * r < den then q
  else if den < 2 * r then q + 1
  else if q % 2 = 0 then q else q + 1

/-- The exponent at which `num / den` has a significand of 53 bits. -/
def exponentOf (num den : Nat) : Int :=
  let e : Int := (Nat.log2 num : Int) - (Nat.log2 den : Int) - 52
  let (n, d) := powerOfTwo (-(e + 52))
  if num * n < den * d then e - 1 else e

/-- The number with the given significand and exponent, infinite if the exponent is too large. -/
def ofParts (negative : Bool) (significand : Nat) (exponent : Int) : Binary64 :=
  if 971 < exponent then infinite negative else finite negative significand exponent

/-- The number nearest to `± num / den`, for a positive `den`. -/
def nearest (negative : Bool) (num den : Nat) : Binary64 :=
  if num = 0 then finite negative 0 (-1074)
  else
    let e := max (exponentOf num den) (-1074)
    let (n, d) := powerOfTwo (-e)
    let m := roundHalfEven (num * n) (den * d)
    if m = 2 * leadingBit then ofParts negative leadingBit (e + 1) else ofParts negative m e

/-- The number with the given bits. -/
def ofBits (bits : UInt64) : Binary64 :=
  let negative : Bool := bits.toNat / (2048 * leadingBit) = 1
  let biased : Nat := bits.toNat / leadingBit % 2048
  let fraction : Nat := bits.toNat % leadingBit
  if biased = 0 then finite negative fraction (-1074)
  else if biased = 2047 then if fraction = 0 then infinite negative else nan
  else finite negative (leadingBit + fraction) ((biased : Int) - 1075)

def signBit (negative : Bool) : Nat :=
  if negative then 2048 * leadingBit else 0

/-- The bits of a number. -/
def toBits : Binary64 → UInt64
  | nan => UInt64.ofNat (2047 * leadingBit + leadingBit / 2)
  | infinite s => UInt64.ofNat (signBit s + 2047 * leadingBit)
  | finite s m e =>
    if m < leadingBit then UInt64.ofNat (signBit s + m)
    else UInt64.ofNat (signBit s + (e + 1075).toNat * leadingBit + (m - leadingBit))

/-- The number nearest to a whole number. -/
def ofInt (n : Int) : Binary64 :=
  nearest (n < 0) n.natAbs 1

/-- The rounded product. -/
def mul : Binary64 → Binary64 → Binary64
  | nan, _ => nan
  | _, nan => nan
  | infinite s, infinite t => infinite (s != t)
  | infinite s, finite t m _ => if m = 0 then nan else infinite (s != t)
  | finite s m _, infinite t => if m = 0 then nan else infinite (s != t)
  | finite s m e, finite t n f =>
    let (p, q) := powerOfTwo (e + f)
    nearest (s != t) (m * n * p) q

/-- The rounded sum. Of two zeros with different signs, and of two numbers that cancel, the sum is
the positive zero. -/
def add : Binary64 → Binary64 → Binary64
  | nan, _ => nan
  | _, nan => nan
  | infinite s, infinite t => if s = t then infinite s else nan
  | infinite s, finite _ _ _ => infinite s
  | finite _ _ _, infinite t => infinite t
  | finite s m e, finite t n f =>
    let low := min e f
    let signed (negative : Bool) (k : Nat) : Int := if negative then -(k : Int) else k
    let sum := signed s (m * Nat.pow 2 (e - low).toNat) + signed t (n * Nat.pow 2 (f - low).toNat)
    let (p, q) := powerOfTwo low
    if sum = 0 then finite (s && t) 0 (-1074) else nearest (sum < 0) (sum.natAbs * p) q

/-- The whole number nearest to `± m · 2 ^ e`, halves going away from zero. -/
def roundHalfAway (negative : Bool) (m : Nat) (e : Int) : Int :=
  let (p, q) := powerOfTwo e
  let n := (2 * m * p + q) / (2 * q)
  if negative then -(n : Int) else n

end Binary64

end EventKernel
