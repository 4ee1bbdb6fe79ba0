import Mathlib.Data.List.Nodup
import EventKernel.Proofs.Event.Order
import EventKernel.Scheduler.Arena

/-!
# What arenas hold

The operations of an arena, told by the record in each slot. An arena is tidy if its list of empty
slots and its count of records agree with the slots; all operations keep it so.
-/

namespace EventKernel.Arena

open scoped List

variable {α : Type} {a : Arena α} {ev : Event α} {e : Entry} {slot sequence i : Nat}

/-- The entries of the records: the key of each and its slot. -/
def entries (a : Arena α) : List Entry :=
  (List.range a.slots.size).filterMap fun i => (a.at? i).map fun ev => ⟨ev.key, i⟩

/-- The empty slots are listed, each once, and the records are counted. -/
structure Tidy (a : Arena α) : Prop where
  nodup_free : a.free.Nodup
  mem_free_iff : ∀ i, i ∈ a.free ↔ i < a.slots.size ∧ a.at? i = none
  live_eq : a.live = a.entries.length

/-! ### Slots and entries -/

lemma lt_size_of_at? (h : a.at? i = some ev) : i < a.slots.size := by
  by_contra hi
  rw [at?, Array.getElem?_eq_none (by omega)] at h
  simp at h

lemma mem_entries_iff : e ∈ a.entries ↔ ∃ ev, a.at? e.slot = some ev ∧ ev.key = e.key := by
  obtain ⟨key, slot⟩ := e
  simp only [entries, List.mem_filterMap, List.mem_range, Option.map_eq_some_iff, Entry.mk.injEq]
  constructor
  · rintro ⟨i, -, ev, hev, hkey, rfl⟩
    exact ⟨ev, hev, hkey⟩
  · rintro ⟨ev, hev, hkey⟩
    exact ⟨slot, lt_size_of_at? hev, ev, hev, hkey, rfl⟩

lemma nodup_entries (a : Arena α) : a.entries.Nodup := by
  refine List.Nodup.filterMap ?_ List.nodup_range
  intro i j e hi hj
  rw [Option.mem_def, Option.map_eq_some_iff] at hi hj
  obtain ⟨_, -, rfl⟩ := hi
  obtain ⟨_, -, hj⟩ := hj
  exact (congrArg Entry.slot hj).symm

lemma length_entries (a : Arena α) :
    a.entries.length = a.slots.toList.countP Option.isSome := by
  have hslots : a.slots.toList = (List.range a.slots.size).map fun i => a.at? i := by
    refine List.ext_getElem (by simp) ?_
    intro i hi _
    rw [Array.length_toList] at hi
    simp [at?, hi]
  rw [entries, List.length_filterMap_eq_countP, hslots, List.countP_map]
  refine List.countP_congr ?_
  intro i _
  simp

/-- A record more in an empty slot is an entry more. -/
lemma perm_entries_cons {b : Arena α} (hslot : a.at? slot = none) (hself : b.at? slot = some ev)
    (hne : ∀ i, i ≠ slot → b.at? i = a.at? i) : b.entries ~ ⟨ev.key, slot⟩ :: a.entries := by
  have hmem : (⟨ev.key, slot⟩ : Entry) ∉ a.entries := by
    rw [mem_entries_iff]
    rintro ⟨_, h, -⟩
    rw [hslot] at h
    cases h
  rw [List.perm_ext_iff_of_nodup b.nodup_entries (List.nodup_cons.mpr ⟨hmem, a.nodup_entries⟩)]
  rintro ⟨key, i⟩
  rw [List.mem_cons, mem_entries_iff, mem_entries_iff, Entry.mk.injEq]
  by_cases hi : i = slot
  · subst hi
    simp only [hself, hslot, Option.some.injEq, exists_eq_left', reduceCtorEq, false_and,
      exists_false, or_false, and_true, eq_comm]
  · rw [hne i hi]
    simp [hi]

/-! ### The record a handle names -/

lemma get?_eq_some_iff :
    a.get? slot sequence = some ev ↔ a.at? slot = some ev ∧ ev.key.sequence = sequence := by
  rw [get?, Option.filter_eq_some_iff, decide_eq_true_iff]

lemma get?_of_mem_entries (h : e ∈ a.entries) :
    ∃ ev, a.get? e.slot e.key.sequence = some ev ∧ ev.key = e.key := by
  obtain ⟨ev, hev, hkey⟩ := mem_entries_iff.mp h
  exact ⟨ev, get?_eq_some_iff.mpr ⟨hev, by rw [hkey]⟩, hkey⟩

lemma mem_entries_of_get? (h : a.get? slot sequence = some ev) :
    (⟨ev.key, slot⟩ : Entry) ∈ a.entries :=
  mem_entries_iff.mpr ⟨ev, (get?_eq_some_iff.mp h).1, rfl⟩

lemma take_of_get? (h : a.get? slot sequence = some ev) :
    a.take slot sequence = (some ev, a.release slot) := by
  rw [take, h]

lemma take_of_get?_none (h : a.get? slot sequence = none) : a.take slot sequence = (none, a) := by
  rw [take, h]

/-! ### The empty arena -/

@[simp] lemma at?_empty (i : Nat) : ({} : Arena α).at? i = none := rfl

@[simp] lemma entries_empty : ({} : Arena α).entries = [] := rfl

lemma tidy_empty : ({} : Arena α).Tidy where
  nodup_free := List.nodup_nil
  mem_free_iff i := by simp
  live_eq := rfl

/-! ### Insertion -/

/-- A new record gets an empty slot. -/
lemma Tidy.at?_insert (h : a.Tidy) (ev : Event α) :
    a.at? (a.insert ev).1 = none ∧ (a.insert ev).2.at? (a.insert ev).1 = some ev := by
  obtain ⟨slots, free, live⟩ := a
  cases free with
  | nil => simp [insert, at?]
  | cons slot free =>
    obtain ⟨hlt, hslot⟩ := (h.mem_free_iff slot).mp List.mem_cons_self
    refine ⟨hslot, ?_⟩
    simp only [insert, at?, Array.getElem?_setIfInBounds_self_of_lt hlt, Option.join_some]

lemma at?_insert_of_ne (ev : Event α) (h : i ≠ (a.insert ev).1) :
    (a.insert ev).2.at? i = a.at? i := by
  obtain ⟨slots, free, live⟩ := a
  cases free with
  | nil =>
    simp only [insert, at?, Array.getElem?_push] at h ⊢
    rw [if_neg h]
  | cons slot free =>
    simp only [insert, at?] at h ⊢
    rw [Array.getElem?_setIfInBounds_ne h.symm]

lemma Tidy.perm_insert (h : a.Tidy) (ev : Event α) :
    (a.insert ev).2.entries ~ ⟨ev.key, (a.insert ev).1⟩ :: a.entries :=
  perm_entries_cons (h.at?_insert ev).1 (h.at?_insert ev).2 fun _ => at?_insert_of_ne ev

lemma Tidy.insert (h : a.Tidy) (ev : Event α) : (a.insert ev).2.Tidy := by
  have hself := (h.at?_insert ev).2
  have hlen := (h.perm_insert ev).length_eq
  rw [List.length_cons, ← h.live_eq] at hlen
  obtain ⟨slots, free, live⟩ := a
  cases free with
  | nil =>
    refine ⟨List.nodup_nil, ?_, hlen.symm⟩
    intro i
    by_cases hi : i = slots.size
    · subst hi
      rw [show (Arena.insert ev _).2.at? slots.size = some ev from hself]
      simp [Arena.insert]
    · have hfree := h.mem_free_iff i
      rw [at?_insert_of_ne ev hi]
      simp only [Arena.insert, Array.size_push, List.not_mem_nil, false_iff] at hfree ⊢
      exact fun hn => hfree ⟨by omega, hn.2⟩
  | cons slot free =>
    obtain ⟨hnot, hnodup⟩ := List.nodup_cons.mp h.nodup_free
    refine ⟨hnodup, ?_, hlen.symm⟩
    intro i
    by_cases hi : i = slot
    · subst hi
      rw [show (Arena.insert ev _).2.at? i = some ev from hself]
      simp [Arena.insert, hnot]
    · have hfree := h.mem_free_iff i
      rw [at?_insert_of_ne ev hi]
      simp only [Arena.insert, Array.size_setIfInBounds, List.mem_cons, hi, false_or] at hfree ⊢
      exact hfree

/-! ### Changing a record -/

lemma at?_set_self (h : slot < a.slots.size) : (a.set slot ev).at? slot = some ev := by
  simp only [set, at?, Array.getElem?_setIfInBounds_self_of_lt h, Option.join_some]

lemma at?_set_of_ne (h : i ≠ slot) : (a.set slot ev).at? i = a.at? i := by
  simp only [set, at?, Array.getElem?_setIfInBounds_ne h.symm]

lemma entries_set {old : Event α} (h : a.at? slot = some old) (hkey : ev.key = old.key) :
    (a.set slot ev).entries = a.entries := by
  have hsize : (a.set slot ev).slots.size = a.slots.size := Array.size_setIfInBounds
  rw [entries, entries, hsize]
  refine List.filterMap_congr ?_
  intro i _
  by_cases hi : i = slot
  · rw [hi, at?_set_self (lt_size_of_at? h), h, Option.map_some, Option.map_some, hkey]
  · rw [at?_set_of_ne hi]

lemma Tidy.set {old : Event α} (h : a.Tidy) (hold : a.at? slot = some old)
    (hkey : ev.key = old.key) : (a.set slot ev).Tidy where
  nodup_free := h.nodup_free
  mem_free_iff i := by
    have hsize : (a.set slot ev).slots.size = a.slots.size := Array.size_setIfInBounds
    rw [hsize]
    refine (h.mem_free_iff i).trans (and_congr_right ?_)
    intro _
    by_cases hi : i = slot
    · rw [hi, at?_set_self (lt_size_of_at? hold), hold]
      simp
    · rw [at?_set_of_ne hi]
  live_eq := by
    rw [entries_set hold hkey]
    exact h.live_eq

/-! ### Emptying a slot -/

@[simp] lemma at?_release_self (slot : Nat) (a : Arena α) : (a.release slot).at? slot = none := by
  by_cases h : slot < a.slots.size
  · simp only [release, at?, Array.getElem?_setIfInBounds_self_of_lt h, Option.join_some]
  · simp only [release, at?, Array.getElem?_setIfInBounds_self, if_neg h, Option.join_none]

lemma at?_release_of_ne (h : i ≠ slot) : (a.release slot).at? i = a.at? i := by
  simp only [release, at?, Array.getElem?_setIfInBounds_ne h.symm]

lemma perm_release (h : a.at? slot = some ev) :
    a.entries ~ ⟨ev.key, slot⟩ :: (a.release slot).entries :=
  perm_entries_cons (at?_release_self slot a) h fun _ hi => (at?_release_of_ne hi).symm

lemma Tidy.release (h : a.Tidy) (hslot : a.at? slot = some ev) : (a.release slot).Tidy where
  nodup_free := by
    refine List.nodup_cons.mpr ⟨?_, h.nodup_free⟩
    intro hmem
    rw [h.mem_free_iff, hslot] at hmem
    cases hmem.2
  mem_free_iff i := by
    have hsize : (a.release slot).slots.size = a.slots.size := Array.size_setIfInBounds
    rw [hsize, show (a.release slot).free = slot :: a.free from rfl, List.mem_cons,
      h.mem_free_iff]
    by_cases hi : i = slot
    · rw [hi, at?_release_self]
      simp [lt_size_of_at? hslot]
    · rw [at?_release_of_ne hi]
      simp [hi]
  live_eq := by
    have hlen := (perm_release hslot).length_eq
    rw [List.length_cons, ← h.live_eq] at hlen
    rw [show (a.release slot).live = a.live - 1 from rfl, hlen, Nat.add_sub_cancel]

end EventKernel.Arena
