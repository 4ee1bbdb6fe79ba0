import EventKernel.Event.Entry

/-!
# Sorted lists of entries

A list in ascending order is a queue by itself: the least entry is its head. Equal entries may
stand in it several times, and one removal takes one of them.
-/

namespace EventKernel.SortedList

/-- Put an entry in front of the first one that does not come before it. -/
def insert (e : Entry) : List Entry → List Entry
  | [] => [e]
  | x :: xs => if x.before e then x :: insert e xs else e :: x :: xs

/-- Take out one copy of an entry; `none` if there is none. -/
def remove (e : Entry) : List Entry → Option (List Entry)
  | [] => none
  | x :: xs => if x = e then some xs else (remove e xs).map (x :: ·)

/-- Sort entries in ascending order. -/
def sort (es : List Entry) : List Entry :=
  es.mergeSort fun a b => !b.before a

end EventKernel.SortedList
