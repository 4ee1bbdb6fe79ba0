import EventKernel.Queue.SortedList

/-!
# Calendar queues

Time is cut into days of `width` ticks, and the days are dealt out in turn to the buckets, so that
the entry at tick `t` stands in bucket `t / width` modulo the number of buckets; one round through
the buckets is a year. The least entry is looked for from the day of the last one taken out: a
bucket whose head lies before the end of the day in turn has it. If a whole year has none, the heads
of all buckets are compared.

The number of buckets doubles when there are more than two entries for each, and halves when there
is less than one entry for two. Both sample the first entries to choose a new width. Ticks and ends
of days are words of 64 bits that saturate.
-/

namespace EventKernel

/-- A calendar queue. -/
structure Calendar where
  /-- The buckets, each in ascending order. -/
  buckets : Array (List Entry)
  /-- The length of a day in ticks. -/
  width : Nat
  /-- The bucket of the day from which the next entry is looked for. -/
  bucket : Nat
  /-- The tick at which that day ends. -/
  top : Nat
  /-- A key no entry comes before. -/
  lastKey : EventKey
  /-- The number of entries. -/
  size : Nat

namespace Calendar

/-- The smallest number of buckets. -/
def minBuckets : Nat := 2

/-- The number of entries sampled for a new width. -/
def sampleSize : Nat := 25

/-- The largest word of 64 bits. -/
def maxWord : Nat := 18446744073709551615

/-- The tick of a time; what lies before zero counts as zero. -/
def tickOf (t : Time) : Nat := t.ticks.toNat

def tick (e : Entry) : Nat := tickOf e.key.time

def empty (n : Nat) : Calendar where
  buckets := Array.replicate (max n minBuckets) []
  width := 1
  bucket := 0
  top := 1
  lastKey := ⟨Time.zero, 0⟩
  size := 0

/-- The number of buckets. -/
def bucketCount (c : Calendar) : Nat := c.buckets.size

def entriesAt (c : Calendar) (i : Nat) : List Entry := c.buckets.getD i []

/-- The bucket of a tick. -/
def bucketOf (c : Calendar) (t : Nat) : Nat := t / c.width % c.bucketCount

/-- The end of the day of a tick. -/
def topAfter (c : Calendar) (t : Nat) : Nat :=
  min maxWord (min maxWord (t / c.width + 1) * c.width)

/-- Look for the next entry from the day of `t` on. -/
def reposition (c : Calendar) (t : Nat) : Calendar :=
  { c with bucket := c.bucketOf t, top := c.topAfter t }

/-- Put an entry into its bucket. -/
def place (c : Calendar) (e : Entry) : Calendar :=
  let i := c.bucketOf (tick e)
  { c with buckets := c.buckets.modify i (SortedList.insert e) }

/-- Walk through `n` days from bucket `i` with the end `top`: the first bucket whose head lies in
its day, and the end of that day. -/
def scanYear (c : Calendar) : Nat → Nat → Nat → Option (Nat × Nat)
  | 0, _, _ => none
  | n + 1, i, top =>
    match c.entriesAt i with
    | e :: _ =>
      if tick e < top then some (i, top)
      else scanYear c n ((i + 1) % c.bucketCount) (min maxWord (top + c.width))
    | [] => scanYear c n ((i + 1) % c.bucketCount) (min maxWord (top + c.width))

/-- The least of two heads with their buckets, the first one if they are equal. -/
def leastHead (best : Option (Nat × Entry)) (i : Nat) : List Entry → Option (Nat × Entry)
  | [] => best
  | e :: _ =>
    match best with
    | none => some (i, e)
    | some (j, b) => if e.before b then some (i, e) else some (j, b)

/-- The least head from bucket `i` on, given the best one so far. -/
def searchFrom (i : Nat) (best : Option (Nat × Entry)) : List (List Entry) → Option (Nat × Entry)
  | [] => best
  | es :: rest => searchFrom (i + 1) (leastHead best i es) rest

/-- The bucket with the least entry, found by comparing all heads, and the end of its day. -/
def searchAll (c : Calendar) : Option (Nat × Nat) :=
  (searchFrom 0 none c.buckets.toList).map fun (i, e) => (i, c.topAfter (tick e))

/-- The bucket with the least entry, and the end of the day in which it was found. -/
def locate (c : Calendar) : Option (Nat × Nat) :=
  if c.size = 0 then none
  else (c.scanYear c.bucketCount c.bucket c.top).or c.searchAll

/-! ### The width of a day -/

/-- The gaps between neighbours. -/
def gaps : List Nat → List Nat
  | t :: u :: ts => (u - t) :: gaps (u :: ts)
  | _ => []

/-- The sum of numbers. -/
def total (ns : List Nat) : Nat := ns.foldr (· + ·) 0

/-- Three times the mean gap between the first entries, gaps over twice the overall mean left
out; at least one. -/
def sampleWidth (sorted : List Entry) : Nat :=
  let ds := gaps ((sorted.take sampleSize).map tick)
  if ds.isEmpty then 1
  else
    let mean := total ds / ds.length
    let close := ds.filter (· ≤ min maxWord (mean * 2))
    if close.isEmpty then 1
    else max 1 (min maxWord (total close / close.length * 3))

/-- Deal all entries out anew to `n` buckets, with a new width. -/
def resize (c : Calendar) (n : Nat) : Calendar :=
  let sorted := SortedList.sort c.buckets.toList.flatten
  let bare : Calendar :=
    { c with buckets := Array.replicate (max n minBuckets) [], width := sampleWidth sorted }
  (sorted.foldl place bare).reposition (tickOf c.lastKey.time)

/-! ### Operations -/

/-- Step back to a key that comes before the last one. -/
def stepBack (c : Calendar) (k : EventKey) : Calendar :=
  if k.cmp c.lastKey = .lt then { c with lastKey := k }.reposition (tickOf k.time) else c

/-- Count an entry that was put in, and grow if there are too many for the buckets. -/
def grow (c : Calendar) : Calendar :=
  let c := { c with size := c.size + 1 }
  if c.bucketCount * 2 < c.size then c.resize (c.bucketCount * 2) else c

/-- Add an entry. -/
def insert (e : Entry) (c : Calendar) : Calendar :=
  ((c.stepBack e.key).place e).grow

def least? (c : Calendar) : Option Entry :=
  c.locate.bind fun (i, _) => (c.entriesAt i).head?

/-- Shrink if there are too few entries for the buckets. -/
def shrink (c : Calendar) : Calendar :=
  if minBuckets < c.bucketCount ∧ c.size < c.bucketCount / 2 then c.resize (c.bucketCount / 2)
  else c

/-- Take out the least entry. -/
def pop? (c : Calendar) : Option (Entry × Calendar) :=
  match c.locate with
  | none => none
  | some (i, top) =>
    match c.entriesAt i with
    | [] => none
    | e :: es =>
      some (e, { c with
        buckets := c.buckets.setIfInBounds i es
        bucket := i
        top := top
        lastKey := e.key
        size := c.size - 1 }.shrink)

/-- Take out one copy of an entry; `none` if there is none. -/
def remove (e : Entry) (c : Calendar) : Option Calendar :=
  let i := c.bucketOf (tick e)
  (SortedList.remove e (c.entriesAt i)).map fun es =>
    { c with buckets := c.buckets.setIfInBounds i es, size := c.size - 1 }

/-! ### The number of entries -/

theorem size_foldl_place (es : List Entry) (c : Calendar) : (es.foldl place c).size = c.size := by
  induction es generalizing c with
  | nil => rfl
  | cons e es ih => simp only [List.foldl_cons, ih]; rfl

theorem size_resize (c : Calendar) (n : Nat) : (c.resize n).size = c.size := by
  simp only [resize, reposition, size_foldl_place]

theorem size_shrink (c : Calendar) : c.shrink.size = c.size := by
  unfold shrink
  split
  · exact size_resize _ _
  · rfl

theorem size_of_pop? {c d : Calendar} {e : Entry} (h : c.pop? = some (e, d)) :
    d.size < c.size := by
  unfold pop? at h
  split at h
  · simp at h
  · rename_i i top hl
    split at h
    · simp at h
    · simp only [Option.some.injEq, Prod.mk.injEq] at h
      obtain ⟨rfl, rfl⟩ := h
      rw [size_shrink]
      unfold locate at hl
      split at hl
      · simp at hl
      · simp only; omega

end Calendar

end EventKernel
