import EventKernel.Number.Binary64
import EventKernel.Random.ChaCha

/-!
# Random numbers

A generator is fixed by its seed. From its numbers of 64 bits one gets numbers of a range, without
favour for any of them but for a deviation too small to be seen, and fractions.
-/

namespace EventKernel

/-- A generator of random numbers. -/
structure Generator where
  key : ChaCha.Key
  /-- The number of the next block. -/
  next : UInt64
  /-- The numbers of the current block that are left. -/
  left : List UInt64

namespace Generator

def ofSeed (seed : UInt64) : Generator := ⟨ChaCha.keyOfSeed seed, 0, []⟩

/-- Draw a number of 64 bits. -/
def draw (g : Generator) : UInt64 × Generator :=
  match g.left with
  | x :: xs => (x, { g with left := xs })
  | [] =>
    match ChaCha.pairs (ChaCha.block g.key g.next).toList with
    | x :: xs => (x, ⟨g.key, g.next + 1, xs⟩)
    | [] => (0, g)

/-- How many numbers a draw can give, `2 ^ 64`. -/
def wordCount : Nat := 18446744073709551616

/-- Draw one of the `range` numbers from `low` on. The product of a draw and the range has the
number in its upper half; if the lower half is so large that a finer draw could still carry into the
upper half, a second draw decides. -/
def below (low range : Nat) (g : Generator) : Nat × Generator :=
  let (x, g) := g.draw
  let product := x.toNat * range
  let high := product / wordCount
  let rest := product % wordCount
  if wordCount - range < rest then
    let (y, g) := g.draw
    let carry := (rest + y.toNat * range / wordCount) / wordCount
    (low + high + carry, g)
  else (low + high, g)

/-- Draw a fraction from zero up to, but not including, one. -/
def fraction (g : Generator) : Binary64 × Generator :=
  let (x, g) := g.draw
  (.nearest false (x.toNat / 2048) (2 * Binary64.leadingBit), g)

/-- Draw a fraction from one half up to, but not including, one. -/
def upperHalf (g : Generator) : Binary64 × Generator :=
  let (x, g) := g.draw
  (.nearest false (Binary64.leadingBit + x.toNat / 4096) (2 * Binary64.leadingBit), g)

end Generator

end EventKernel
