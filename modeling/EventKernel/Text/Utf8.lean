/-!
# Reading UTF-8

Bytes are decoded from the front. Where no well-formed sequence starts, the longest run of bytes
that could have begun one is taken as a single fault, and decoding goes on behind it. A strict
reader refuses a text with a fault; a lenient one writes U+FFFD for it.
-/

namespace EventKernel

/-- The first item of a byte sequence: a character, or a fault. -/
abbrev Decoded := Option Char

/-- What the leading byte of a longer sequence asks for: the bits it gives, the range of the second
byte, and the number of bytes behind the second. -/
structure Lead where
  bits : Nat
  low : Nat
  high : Nat
  further : Nat

/-- The leading bytes of well-formed sequences of two to four bytes. -/
def lead? (b : Nat) : Option Lead :=
  if 0xC2 ≤ b ∧ b ≤ 0xDF then some ⟨b - 0xC0, 0x80, 0xBF, 0⟩
  else if b = 0xE0 then some ⟨0, 0xA0, 0xBF, 1⟩
  else if b = 0xED then some ⟨0xD, 0x80, 0x9F, 1⟩
  else if 0xE1 ≤ b ∧ b ≤ 0xEF then some ⟨b - 0xE0, 0x80, 0xBF, 1⟩
  else if b = 0xF0 then some ⟨0, 0x90, 0xBF, 2⟩
  else if 0xF1 ≤ b ∧ b ≤ 0xF3 then some ⟨b - 0xF0, 0x80, 0xBF, 2⟩
  else if b = 0xF4 then some ⟨4, 0x80, 0x8F, 2⟩
  else none

/-- Read `n` continuation bytes behind the bits `acc`; the bytes that are left are returned too. -/
def continued : Nat → Nat → List UInt8 → Decoded × List UInt8
  | 0, acc, bs => (some (Char.ofNat acc), bs)
  | _ + 1, _, [] => (none, [])
  | n + 1, acc, b :: bs =>
    if 0x80 ≤ b.toNat ∧ b.toNat ≤ 0xBF then continued n (acc * 64 + (b.toNat - 0x80)) bs
    else (none, b :: bs)

/-- Read the second byte of a sequence with the leading byte `l`. -/
def continuedFrom (l : Lead) : List UInt8 → Decoded × List UInt8
  | [] => (none, [])
  | b :: bs =>
    if l.low ≤ b.toNat ∧ b.toNat ≤ l.high then
      continued l.further (l.bits * 64 + (b.toNat - 0x80)) bs
    else (none, b :: bs)

def decodeItem (b : UInt8) (bs : List UInt8) : Decoded × List UInt8 :=
  if b.toNat < 0x80 then (some (Char.ofNat b.toNat), bs)
  else match lead? b.toNat with
    | none => (none, bs)
    | some l => continuedFrom l bs

theorem continued_length_le (n acc : Nat) (bs : List UInt8) :
    (continued n acc bs).2.length ≤ bs.length := by
  induction n generalizing acc bs with
  | zero => simp [continued]
  | succ n ih =>
    cases bs with
    | nil => simp [continued]
    | cons b bs =>
      unfold continued
      split
      · exact Nat.le_succ_of_le (ih _ _)
      · simp

theorem continuedFrom_length_le (l : Lead) (bs : List UInt8) :
    (continuedFrom l bs).2.length ≤ bs.length := by
  cases bs with
  | nil => simp [continuedFrom]
  | cons b bs =>
    simp only [continuedFrom]
    split
    · exact Nat.le_succ_of_le (continued_length_le _ _ _)
    · simp

theorem decodeItem_length_le (b : UInt8) (bs : List UInt8) :
    (decodeItem b bs).2.length ≤ bs.length := by
  unfold decodeItem
  split
  · simp
  · split
    · simp
    · exact continuedFrom_length_le _ _

/-- The characters and faults of a byte sequence, in order. -/
def decodeItems : List UInt8 → List Decoded
  | [] => []
  | b :: bs => (decodeItem b bs).1 :: decodeItems (decodeItem b bs).2
termination_by bs => bs.length
decreasing_by exact Nat.lt_succ_of_le (decodeItem_length_le b bs)

/-- The text of a well-formed byte sequence. -/
def decodeStrict? (bs : List UInt8) : Option (List Char) :=
  (decodeItems bs).mapM id

/-- The text of any byte sequence, each fault written as U+FFFD. -/
def decodeLenient (bs : List UInt8) : List Char :=
  (decodeItems bs).map (·.getD '\ufffd')

end EventKernel
