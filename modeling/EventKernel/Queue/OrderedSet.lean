import Std.Data.TreeSet.Lemmas
import EventKernel.Event.Entry

/-!
# Ordered sets of entries

A balanced search tree keyed by the whole entry. Being a set, it holds equal entries once.
-/

namespace EventKernel

/-- A search tree of entries. -/
abbrev OrderedSet := Std.TreeSet Entry Entry.cmp

namespace OrderedSet

/-- Take out the least entry. -/
def pop? (s : OrderedSet) : Option (Entry × OrderedSet) :=
  s.min?.map fun e => (e, s.erase e)

/-- Take out an entry; `none` if it is not there. -/
def remove (e : Entry) (s : OrderedSet) : Option OrderedSet :=
  if s.contains e then some (s.erase e) else none

theorem size_of_pop? {s t : OrderedSet} {e : Entry} (h : pop? s = some (e, t)) :
    t.size < s.size := by
  simp only [pop?, Option.map_eq_some_iff, Prod.mk.injEq] at h
  obtain ⟨x, hx, rfl, rfl⟩ := h
  have hmem := Std.TreeSet.contains_min? hx
  have hne := Std.TreeSet.isEmpty_eq_false_of_contains hmem
  rw [Std.TreeSet.isEmpty_eq_size_eq_zero] at hne
  rw [Std.TreeSet.size_erase, if_pos hmem]
  simp only [beq_eq_false_iff_ne] at hne
  omega

end OrderedSet

end EventKernel
