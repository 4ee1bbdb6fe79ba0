import EventKernel.Queue.Calendar
import EventKernel.Queue.Heap
import EventKernel.Queue.Kind
import EventKernel.Queue.OrderedSet

/-!
# Queues of entries

A queue of any kind gives back the least entry first.
-/

namespace EventKernel

/-- The entries of a queue, kept in one of four ways. -/
inductive Queue where
  | heap (h : Heap)
  | map (s : OrderedSet)
  | calendar (c : Calendar)
  | list (es : List Entry)

namespace Queue

/-- The empty queue of a kind; a calendar starts with `buckets` buckets. -/
def empty (buckets : Nat) : QueueKind → Queue
  | .heap => heap .leaf
  | .map => map ∅
  | .calendar => calendar (.empty buckets)
  | .list => list []

def kind : Queue → QueueKind
  | heap _ => .heap
  | map _ => .map
  | calendar _ => .calendar
  | list _ => .list

/-- Add an entry. -/
def insert (e : Entry) : Queue → Queue
  | heap h => heap (h.insert e)
  | map s => map (s.insert e)
  | calendar c => calendar (c.insert e)
  | list es => list (SortedList.insert e es)

def least? : Queue → Option Entry
  | heap h => h.least?
  | map s => s.min?
  | calendar c => c.least?
  | list es => es.head?

/-- Take out the least entry. -/
def pop? : Queue → Option (Entry × Queue)
  | heap h => h.pop?.map fun (e, h) => (e, heap h)
  | map s => (OrderedSet.pop? s).map fun (e, s) => (e, map s)
  | calendar c => c.pop?.map fun (e, c) => (e, calendar c)
  | list [] => none
  | list (e :: es) => some (e, list es)

/-- Take out a given entry; `none` if it is not there. -/
def remove (e : Entry) : Queue → Option Queue
  | heap h => (h.remove e).map heap
  | map s => (OrderedSet.remove e s).map map
  | calendar c => (c.remove e).map calendar
  | list es => (SortedList.remove e es).map list

/-- The number of entries. -/
def size : Queue → Nat
  | heap h => h.size
  | map s => s.size
  | calendar c => c.size
  | list es => es.length

/-- Whether there are no entries. -/
def isEmpty (q : Queue) : Bool :=
  match q with
  | heap .leaf => true
  | heap _ => false
  | q => q.size = 0

def bucketCount? : Queue → Option Nat
  | calendar c => some c.bucketCount
  | _ => none

theorem size_of_pop? {q r : Queue} {e : Entry} (h : q.pop? = some (e, r)) : r.size < q.size := by
  cases q with
  | heap a =>
    simp only [pop?, Option.map_eq_some_iff, Prod.mk.injEq] at h
    obtain ⟨⟨x, b⟩, hx, rfl, rfl⟩ := h
    exact Heap.size_of_pop? hx
  | map s =>
    simp only [pop?, Option.map_eq_some_iff, Prod.mk.injEq] at h
    obtain ⟨⟨x, t⟩, hx, rfl, rfl⟩ := h
    exact OrderedSet.size_of_pop? hx
  | calendar c =>
    simp only [pop?, Option.map_eq_some_iff, Prod.mk.injEq] at h
    obtain ⟨⟨x, d⟩, hx, rfl, rfl⟩ := h
    exact Calendar.size_of_pop? hx
  | list es =>
    cases es with
    | nil => simp [pop?] at h
    | cons x xs =>
      simp only [pop?, Option.some.injEq, Prod.mk.injEq] at h
      obtain ⟨rfl, rfl⟩ := h
      simp [size]

/-- Take out all entries, the least first, and put them into another queue. -/
def moveInto (q into : Queue) : Queue :=
  match _h : q.pop? with
  | none => into
  | some (e, q) => q.moveInto (into.insert e)
termination_by q.size
decreasing_by exact size_of_pop? _h

/-- Take out all entries and drop them. -/
def drained (q : Queue) : Queue :=
  match _h : q.pop? with
  | none => q
  | some (_, q) => q.drained
termination_by q.size
decreasing_by exact size_of_pop? _h

end Queue

end EventKernel
