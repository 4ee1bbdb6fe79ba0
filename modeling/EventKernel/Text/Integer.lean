/-!
# Reading whole numbers

A number is written in decimal ASCII digits, with a plus sign in front if one likes and a minus
sign if the range holds negative numbers. Nothing else is allowed: no blanks, no empty digits, no
value outside the range.
-/

namespace EventKernel

/-- A range of whole numbers, both ends included. -/
structure IntRange where
  low : Int
  high : Int

/-- Whether a number lies in a range. -/
def IntRange.holds (r : IntRange) (n : Int) : Bool :=
  r.low ≤ n && n ≤ r.high

/-- The unsigned 32-bit range. -/
def IntRange.word32 : IntRange := ⟨0, 4294967295⟩

/-- The unsigned 64-bit range. -/
def IntRange.word64 : IntRange := ⟨0, 18446744073709551615⟩

def IntRange.signed64 : IntRange := ⟨-9223372036854775808, 9223372036854775807⟩

/-- The value of decimal digits read behind `acc`. -/
def digitsFrom? (acc : Nat) : List Char → Option Nat
  | [] => some acc
  | c :: cs => if c.isDigit then digitsFrom? (acc * 10 + (c.toNat - 48)) cs else none

/-- The value of a non-empty text of decimal digits. -/
def digits? (cs : List Char) : Option Nat :=
  if cs.isEmpty then none else digitsFrom? 0 cs

/-- The value of a number with an optional sign, whatever its size. -/
def signed? : List Char → Option Int
  | '+' :: cs => (digits? cs).map Int.ofNat
  | '-' :: cs => (digits? cs).map fun n => -(n : Int)
  | cs => (digits? cs).map Int.ofNat

/-- Read a number of a range; a range without negative numbers knows no minus sign. -/
def IntRange.read? (r : IntRange) (s : String) : Option Int :=
  if r.low = 0 ∧ s.startsWith "-" then none
  else (signed? s.toList).filter r.holds

end EventKernel
