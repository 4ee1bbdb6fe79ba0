import Mathlib.Data.List.Perm.Basic
import EventKernel.Proofs.Queue.SortedList
import EventKernel.Queue.Calendar

/-!
# The buckets of a calendar

What a calendar holds is told bucket by bucket. A change of one bucket leaves the entries of the
others alone, which is said by splitting the entries into those of the bucket and the rest. A
calendar is filed if each entry stands, in ascending order, in the bucket of its day.
-/

namespace EventKernel.Calendar

open scoped List

variable {c : Calendar} {e x : Entry} {es : List Entry} {i j t : Nat}

/-- All entries, bucket by bucket. -/
def entries (c : Calendar) : List Entry := c.buckets.toList.flatten

/-- The entries outside a bucket. -/
def others (c : Calendar) (i : Nat) : List Entry := (c.buckets.toList.eraseIdx i).flatten

/-- The calendar with other entries in a bucket. -/
def setBucket (c : Calendar) (i : Nat) (es : List Entry) : Calendar :=
  { c with buckets := c.buckets.setIfInBounds i es }

/-! ### Entries of buckets -/

lemma entriesAt_eq_getElem (hi : i < c.bucketCount) : c.entriesAt i = c.buckets[i] := by
  rw [entriesAt, Array.getD_eq_getD_getElem?, Array.getElem?_eq_getElem hi, Option.getD_some]

lemma entriesAt_of_le (hi : c.bucketCount ≤ i) : c.entriesAt i = [] := by
  rw [entriesAt, Array.getD_eq_getD_getElem?, Array.getElem?_eq_none hi, Option.getD_none]

lemma mem_entries : e ∈ c.entries ↔ ∃ i, e ∈ c.entriesAt i := by
  rw [entries, List.mem_flatten]
  constructor
  · rintro ⟨es, hes, he⟩
    obtain ⟨i, hi, rfl⟩ := Array.mem_iff_getElem.mp (Array.mem_toList_iff.mp hes)
    exact ⟨i, by rwa [entriesAt_eq_getElem hi]⟩
  · rintro ⟨i, he⟩
    by_cases hi : i < c.bucketCount
    · rw [entriesAt_eq_getElem hi] at he
      exact ⟨_, Array.mem_toList_iff.mpr (Array.getElem_mem hi), he⟩
    · rw [entriesAt_of_le (not_lt.mp hi)] at he
      simp at he

lemma perm_entries (hi : i < c.bucketCount) : c.entries ~ c.entriesAt i ++ c.others i := by
  have hi' : i < c.buckets.toList.length := by rwa [Array.length_toList]
  have h := (List.getElem_cons_eraseIdx_perm hi').flatten
  rw [List.flatten_cons, Array.getElem_toList] at h
  rw [entriesAt_eq_getElem hi]
  exact h.symm

/-! ### Change of a bucket -/

@[simp] lemma bucketCount_setBucket (c : Calendar) (i : Nat) (es : List Entry) :
    (c.setBucket i es).bucketCount = c.bucketCount :=
  Array.size_setIfInBounds

lemma entriesAt_setBucket_self (hi : i < c.bucketCount) : (c.setBucket i es).entriesAt i = es := by
  have hi' : i < (c.setBucket i es).bucketCount := by simpa using hi
  rw [entriesAt_eq_getElem hi']
  exact Array.getElem_setIfInBounds_self hi'

lemma entriesAt_setBucket_ne (hij : i ≠ j) : (c.setBucket i es).entriesAt j = c.entriesAt j := by
  simp only [entriesAt, setBucket, Array.getD_eq_getD_getElem?,
    Array.getElem?_setIfInBounds_ne hij]

lemma others_setBucket : (c.setBucket i es).others i = c.others i := by
  simp only [others, setBucket, Array.toList_setIfInBounds, List.eraseIdx_set_eq]

lemma perm_setBucket (hi : i < c.bucketCount) : (c.setBucket i es).entries ~ es ++ c.others i := by
  have h := perm_entries (c := c.setBucket i es) (i := i) (by simpa using hi)
  rwa [entriesAt_setBucket_self hi, others_setBucket] at h

/-! ### Filing -/

/-- Each entry stands in the bucket of its day, and each bucket is in ascending order. -/
structure Filed (c : Calendar) : Prop where
  two_le_bucketCount : 2 ≤ c.bucketCount
  width_pos : 1 ≤ c.width
  pairwise : ∀ i, (c.entriesAt i).Pairwise (· ≤ ·)
  home : ∀ i, ∀ e ∈ c.entriesAt i, c.bucketOf (tick e) = i

lemma Filed.bucketOf_lt (h : c.Filed) (t : Nat) : c.bucketOf t < c.bucketCount :=
  Nat.mod_lt _ (by have := h.two_le_bucketCount; omega)

lemma Filed.mem_home (h : c.Filed) (he : e ∈ c.entries) :
    e ∈ c.entriesAt (c.bucketOf (tick e)) := by
  obtain ⟨i, hi⟩ := mem_entries.mp he
  rwa [h.home i e hi]

lemma Filed.setBucket (h : c.Filed) (hs : es.Pairwise (· ≤ ·))
    (hes : ∀ x ∈ es, c.bucketOf (tick x) = i) : (c.setBucket i es).Filed where
  two_le_bucketCount := by simpa using h.two_le_bucketCount
  width_pos := h.width_pos
  pairwise := by
    intro j
    by_cases hij : i = j
    · by_cases hi : i < c.bucketCount
      · rwa [← hij, entriesAt_setBucket_self hi]
      · rw [← hij, entriesAt_of_le (by simpa using hi)]
        exact List.Pairwise.nil
    · rw [entriesAt_setBucket_ne hij]
      exact h.pairwise j
  home := by
    intro j x hx
    rw [bucketOf, bucketCount_setBucket]
    by_cases hij : i = j
    · by_cases hi : i < c.bucketCount
      · rw [← hij, entriesAt_setBucket_self hi] at hx
        exact (hes x hx).trans hij
      · rw [← hij, entriesAt_of_le (by simpa using hi)] at hx
        simp at hx
    · rw [entriesAt_setBucket_ne hij] at hx
      exact h.home j x hx

/-- Only buckets, width and number of buckets matter. -/
lemma Filed.congr {d : Calendar} (h : c.Filed) (hb : d.buckets = c.buckets)
    (hw : d.width = c.width) : d.Filed := by
  obtain ⟨buckets, width, _, _, _, _⟩ := c
  obtain ⟨_, _, _, _, _, _⟩ := d
  cases hb
  cases hw
  exact ⟨h.two_le_bucketCount, h.width_pos, h.pairwise, h.home⟩

lemma bucketOf_congr {d : Calendar} (hn : d.bucketCount = c.bucketCount)
    (hw : d.width = c.width) (t : Nat) : d.bucketOf t = c.bucketOf t := by
  rw [bucketOf, hw, hn, bucketOf]

/-! ### Putting entries in -/

lemma place_eq (c : Calendar) (e : Entry) :
    c.place e = c.setBucket (c.bucketOf (tick e))
      (SortedList.insert e (c.entriesAt (c.bucketOf (tick e)))) := by
  have h : ∀ (bs : Array (List Entry)) (i : Nat) (f : List Entry → List Entry),
      bs.modify i f = bs.setIfInBounds i (f (bs.getD i [])) := by
    intro bs i f
    apply Array.ext_getElem?
    intro j
    rw [Array.getElem?_modify, Array.getElem?_setIfInBounds, Array.getD_eq_getD_getElem?]
    split_ifs with hij hi
    · rw [← hij, Array.getElem?_eq_getElem hi, Option.map_some, Option.getD_some]
    · rw [← hij, Array.getElem?_eq_none (not_lt.mp hi), Option.map_none]
    · rfl
  simp only [place, setBucket, entriesAt, h]

lemma perm_place (hc : 0 < c.bucketCount) (e : Entry) : (c.place e).entries ~ e :: c.entries := by
  have hi : c.bucketOf (tick e) < c.bucketCount := Nat.mod_lt _ hc
  rw [place_eq]
  calc _ ~ SortedList.insert e _ ++ c.others _ := perm_setBucket hi
    _ ~ (e :: c.entriesAt _) ++ c.others _ := (SortedList.perm_insert e _).append_right _
    _ ~ e :: c.entries := (perm_entries hi).symm.cons e

lemma Filed.place (h : c.Filed) (e : Entry) : (c.place e).Filed := by
  rw [place_eq]
  refine h.setBucket (SortedList.pairwise_insert e (h.pairwise _)) ?_
  intro x hx
  rcases SortedList.mem_insert.mp hx with rfl | hx
  · rfl
  · exact h.home _ x hx

@[simp] lemma bucketCount_place (c : Calendar) (e : Entry) :
    (c.place e).bucketCount = c.bucketCount :=
  Array.size_modify

lemma perm_foldl_place (es : List Entry) (hc : 0 < c.bucketCount) :
    (es.foldl Calendar.place c).entries ~ es ++ c.entries := by
  induction es generalizing c with
  | nil => exact List.Perm.refl _
  | cons e es ih =>
    refine (ih (by simpa using hc)).trans ?_
    exact ((perm_place hc e).append_left es).trans List.perm_middle

lemma Filed.foldl_place (h : c.Filed) (es : List Entry) : (es.foldl Calendar.place c).Filed := by
  induction es generalizing c with
  | nil => exact h
  | cons e es ih => exact ih (h.place e)

/-- Dealing entries out changes nothing but the buckets. -/
lemma foldl_place_eq (es : List Entry) (c : Calendar) :
    es.foldl Calendar.place c = { c with buckets := (es.foldl Calendar.place c).buckets } := by
  induction es generalizing c with
  | nil => rfl
  | cons e es ih => rw [List.foldl_cons, ih]; rfl

/-! ### Empty buckets -/

lemma entries_of_replicate {n : Nat} (h : c.buckets = Array.replicate n []) : c.entries = [] := by
  rw [entries, h, Array.toList_replicate, List.flatten_eq_nil_iff]
  exact fun es hes => List.eq_of_mem_replicate hes

lemma filed_of_replicate {n : Nat} (hn : 2 ≤ n) (hw : 1 ≤ c.width)
    (h : c.buckets = Array.replicate n []) : c.Filed := by
  have hnil : ∀ i, c.entriesAt i = [] := by
    intro i
    by_contra hne
    obtain ⟨x, hx⟩ := List.exists_mem_of_ne_nil _ hne
    have := mem_entries.mpr ⟨i, hx⟩
    rw [entries_of_replicate h] at this
    simp at this
  refine ⟨by simpa [bucketCount, h] using hn, hw, fun i => ?_, fun i x hx => ?_⟩
  · rw [hnil]
    exact List.Pairwise.nil
  · rw [hnil] at hx
    simp at hx

end EventKernel.Calendar
