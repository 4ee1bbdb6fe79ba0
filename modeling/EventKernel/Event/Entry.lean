import EventKernel.Time.Basic

/-!
# Keys and queue entries

Events are ordered by time and, at the same time, by the sequence number of their insertion. A queue
holds an entry for each event: its key and the slot of its record. Both orders are total, and only
equal keys or entries compare as equal.
-/

namespace EventKernel

/-- What decides the order of events: the time, then the order of insertion. -/
structure EventKey where
  time : Time
  sequence : Nat
  deriving DecidableEq

/-- Keys are compared by time first. -/
def EventKey.cmp (a b : EventKey) : Ordering :=
  (compare a.time.ticks b.time.ticks).then (compare a.sequence b.sequence)

/-- What a queue holds for an event: its key and the slot of its record. -/
structure Entry where
  key : EventKey
  slot : Nat
  deriving DecidableEq

/-- Entries are compared by key, then by slot. -/
def Entry.cmp (a b : Entry) : Ordering :=
  (a.key.cmp b.key).then (compare a.slot b.slot)

/-- Whether one entry comes before another. -/
def Entry.before (a b : Entry) : Bool := a.cmp b == .lt

instance : Std.TransCmp EventKey.cmp :=
  inferInstanceAs (Std.TransCmp (compareLex
    (compareOn fun k : EventKey => k.time.ticks) (compareOn fun k : EventKey => k.sequence)))

instance : Std.LawfulEqCmp EventKey.cmp where
  eq_of_compare {a b} h := by
    obtain ⟨⟨t, _, _⟩, m⟩ := a
    obtain ⟨⟨u, _, _⟩, n⟩ := b
    simp [EventKey.cmp, Ordering.then_eq_eq] at h
    simp [h]

instance : Std.TransCmp Entry.cmp :=
  inferInstanceAs (Std.TransCmp (compareLex
    (compareLex (compareOn fun e : Entry => e.key.time.ticks)
      (compareOn fun e : Entry => e.key.sequence))
    (compareOn fun e : Entry => e.slot)))

instance : Std.LawfulEqCmp Entry.cmp where
  eq_of_compare {a b} h := by
    obtain ⟨k, m⟩ := a
    obtain ⟨l, n⟩ := b
    simp [Entry.cmp, Ordering.then_eq_eq] at h
    simp [h]

end EventKernel
