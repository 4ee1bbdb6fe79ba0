import EventKernel.Number.Binary64
import EventKernel.Time.Basic
import EventKernel.Time.Unit

/-!
# The length of a tick

How long a tick lasts is decided once: by the first request for a unit, or, if a conversion or a
printed time comes first, by falling back to nanoseconds. Conversions between units are exact
rational scalings, truncated toward zero and clamped to the range of times.
-/

namespace EventKernel

/-! ### The choice of the unit -/

/-- The unit of a tick, while nothing has been chosen `none`. -/
abbrev Resolution := Option TimeUnit

/-- The refusal of a second, different choice. -/
structure ResolutionFrozen where
  current : TimeUnit
  deriving DecidableEq, Repr

namespace Resolution

/-- The unit in effect: the chosen one, or nanoseconds. -/
def unit (r : Resolution) : TimeUnit :=
  r.getD .nanos

/-- The choice once the unit was needed. -/
def settle (r : Resolution) : Resolution :=
  some r.unit

/-- Choose a unit; only the unit already in effect can be chosen again. -/
def choose (r : Resolution) (u : TimeUnit) : Except ResolutionFrozen PUnit × Resolution :=
  match r with
  | none => (.ok (), some u)
  | some current => (if current = u then .ok () else .error ⟨current⟩, some current)

end Resolution

/-- The text of a refused choice. -/
def ResolutionFrozen.message (e : ResolutionFrozen) : String :=
  "Time resolution already fixed to " ++ e.current.suffix ++ ", cannot change it"

/-- The text about a word that names no unit. -/
def TimeUnit.invalidMessage (word : String) : String :=
  "Invalid time unit: " ++ word

/-! ### Conversion -/

def powerOfTen (k : Nat) : Nat := Nat.pow 10 k

/-- The value `n · 10 ^ shift`, truncated toward zero. -/
def scaleByTen (n : Int) (shift : Int) : Int :=
  if 0 ≤ shift then n * powerOfTen shift.toNat else n.tdiv (powerOfTen (-shift).toNat)

namespace Time

/-- The time of `n` units `u`, where a tick is one unit `r`. -/
def ofUnit (r : TimeUnit) (n : Int) (u : TimeUnit) : Time :=
  clamp (scaleByTen n (u.exponent - r.exponent))

/-- The number of whole units `u` in a time, where a tick is one unit `r`; clamped like a time. -/
def inUnit (r : TimeUnit) (t : Time) (u : TimeUnit) : Int :=
  (clamp (scaleByTen t.ticks (r.exponent - u.exponent))).ticks

/-- The time nearest to a number of ticks, halves going away from zero; no number gives zero. -/
def nearest : Binary64 → Time
  | .nan => zero
  | .infinite negative => if negative then least else never
  | .finite negative m e => clamp (Binary64.roundHalfAway negative m e)

/-- The time of a number of seconds, where a tick is one unit `r`. -/
def ofSeconds (r : TimeUnit) (x : Binary64) : Time :=
  nearest (x.mul (.ofInt (powerOfTen (-r.exponent).toNat)))

def inSeconds (r : TimeUnit) (t : Time) : Binary64 :=
  (Binary64.ofInt t.ticks).mul (.nearest false 1 (powerOfTen (-r.exponent).toNat))

/-- A time scaled by a factor. -/
def scaleBy (t : Time) (x : Binary64) : Time :=
  nearest ((Binary64.ofInt t.ticks).mul x)

/-! ### Printing -/

/-- A number with its sign, plus signs included. -/
def signedText (n : Int) : String :=
  if 0 ≤ n then "+" ++ toString n else toString n

/-- The text of a time, where a tick is one unit `r`. -/
def text (r : TimeUnit) (t : Time) : String :=
  if t.isNever then "+inf" else signedText t.ticks ++ r.suffix

/-- Print a time. This needs the unit of a tick, except for "never". -/
def print (t : Time) (r : Resolution) : String × Resolution :=
  (t.text r.unit, if t.isNever then r else r.settle)

end Time

end EventKernel
