/-!
# Sequence numbers

Insertions are numbered from one on, and no number is given out twice.
-/

namespace EventKernel

/-- Where sequence numbers come from. -/
structure SequenceSource where
  /-- The number that is given out next. -/
  next : Nat := 1
  deriving DecidableEq, Repr

namespace SequenceSource

/-- Give out a number. -/
def draw (c : SequenceSource) : Nat × SequenceSource := (c.next, ⟨c.next + 1⟩)

/-- Give out `n` numbers in turn. -/
def drawMany : Nat → SequenceSource → List Nat × SequenceSource
  | 0, c => ([], c)
  | n + 1, c =>
    let (number, c) := c.draw
    let (numbers, c) := drawMany n c
    (number :: numbers, c)

end SequenceSource

end EventKernel
