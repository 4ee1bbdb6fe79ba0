/-!
# Virtual time

A time is a signed number of ticks within 64 bits, both a point and a span. Arithmetic saturates
at the ends of the range; the largest time also stands for "never".
-/

namespace EventKernel

/-- A number of ticks that fits into a signed word of 64 bits. -/
@[ext] structure Time where
  ticks : Int
  le_ticks : -9223372036854775808 ≤ ticks
  ticks_lt : ticks < 9223372036854775808
  deriving DecidableEq

namespace Time

/-- The time nearest to a number of ticks. -/
def clamp (n : Int) : Time where
  ticks := max (-9223372036854775808) (min n 9223372036854775807)
  le_ticks := by omega
  ticks_lt := by omega

/-- The start of a simulation. -/
def zero : Time := ⟨0, by omega, by omega⟩

/-- The largest time, which stands for "never". -/
def never : Time := ⟨9223372036854775807, by omega, by omega⟩

/-- The smallest time. -/
def least : Time := ⟨-9223372036854775808, by omega, by omega⟩

instance : Inhabited Time := ⟨zero⟩
instance : Repr Time := ⟨fun t p => reprPrec t.ticks p⟩

instance : LE Time := ⟨fun t u => t.ticks ≤ u.ticks⟩
instance : LT Time := ⟨fun t u => t.ticks < u.ticks⟩
instance (t u : Time) : Decidable (t ≤ u) := inferInstanceAs (Decidable (t.ticks ≤ u.ticks))
instance (t u : Time) : Decidable (t < u) := inferInstanceAs (Decidable (t.ticks < u.ticks))
instance : Ord Time := ⟨fun t u => compare t.ticks u.ticks⟩

/-- Sum, saturating. -/
instance : Add Time := ⟨fun t u => clamp (t.ticks + u.ticks)⟩
/-- Difference, saturating. -/
instance : Sub Time := ⟨fun t u => clamp (t.ticks - u.ticks)⟩
/-- Negation, saturating. -/
instance : Neg Time := ⟨fun t => clamp (-t.ticks)⟩

/-- The `n`-fold of a time, saturating. -/
def scale (t : Time) (n : Int) : Time := clamp (t.ticks * n)

/-- The time with exactly `n` ticks, if there is one. -/
def ofTicks? (n : Int) : Option Time :=
  if h : -9223372036854775808 ≤ n ∧ n < 9223372036854775808 then some ⟨n, h.1, h.2⟩ else none

/-- The sum, if it does not overflow. -/
def checkedAdd (t u : Time) : Option Time := ofTicks? (t.ticks + u.ticks)

/-- The span from `u` to `t`, unless `u` is the later one. -/
def since (t u : Time) : Option Time := if t < u then none else some (t - u)

/-- Whether a time lies before zero. -/
def isNegative (t : Time) : Bool := t.ticks < 0

def isZero (t : Time) : Bool := t.ticks = 0

def isNever (t : Time) : Bool := t = never

/-- The earlier of two times. -/
def earlier (t u : Time) : Time := if t ≤ u then t else u

/-- The later of two times. -/
def later (t u : Time) : Time := if t ≤ u then u else t

theorem le_iff {t u : Time} : t ≤ u ↔ t.ticks ≤ u.ticks := Iff.rfl

theorem lt_iff {t u : Time} : t < u ↔ t.ticks < u.ticks := Iff.rfl

theorem ticks_clamp (n : Int) :
    (clamp n).ticks = max (-9223372036854775808) (min n 9223372036854775807) := rfl

theorem ticks_add (t u : Time) : (t + u).ticks = (clamp (t.ticks + u.ticks)).ticks := rfl

theorem ticks_sub (t u : Time) : (t - u).ticks = (clamp (t.ticks - u.ticks)).ticks := rfl

theorem clamp_ticks (t : Time) : clamp t.ticks = t := by
  have h₁ := t.le_ticks
  have h₂ := t.ticks_lt
  ext
  rw [ticks_clamp]
  omega

end Time

end EventKernel
