import EventKernel.Proofs.Queue.Calendar.Scan

/-!
# The invariant of calendars

In every calendar that its operations build, the entries are filed, no entry comes before the last
key, and the scan stands on the day of the last key. The scan then starts no later than the first
day with entries, so that the calendar gives back its least entry.
-/

namespace EventKernel.Calendar

open scoped List

variable {c d : Calendar} {e x : Entry} {k : EventKey} {i top : Nat}

/-- A calendar that looks in the right place. -/
structure Valid (c : Calendar) : Prop extends c.Filed where
  size_eq : c.size = c.entries.length
  lastKey_le : ∀ e ∈ c.entries, c.lastKey ≤ e.key
  bucket_eq : c.bucket = c.bucketOf (tickOf c.lastKey.time)
  top_eq : c.top = c.topAfter (tickOf c.lastKey.time)

/-! ### The empty calendar -/

lemma entries_empty (n : Nat) : (empty n).entries = [] :=
  entries_of_replicate rfl

lemma valid_empty (n : Nat) : (empty n).Valid where
  toFiled := filed_of_replicate (le_max_right n minBuckets) (le_refl 1) rfl
  size_eq := by rw [entries_empty]; rfl
  lastKey_le := by simp [entries_empty]
  bucket_eq := by simp [empty, bucketOf, tickOf, Time.zero]
  top_eq := by simp [empty, topAfter, tickOf, Time.zero, maxWord]

/-! ### Growing and shrinking -/

lemma one_le_sampleWidth (es : List Entry) : 1 ≤ sampleWidth es := by
  rw [sampleWidth]
  dsimp only
  split_ifs
  · exact le_refl 1
  · exact le_refl 1
  · exact le_max_left 1 _

/-- Resizing loses no entry and doubles none. -/
lemma perm_resize (c : Calendar) (n : Nat) : (c.resize n).entries ~ c.entries := by
  refine (perm_foldl_place _ ?_).trans ?_
  · simp [bucketCount, minBuckets]
  · rw [entries_of_replicate rfl, List.append_nil]
    exact SortedList.perm_sort _

/-- Resizing finds the position of the scan again, whatever the new width. -/
lemma valid_resize (n : Nat) (hs : c.size = c.entries.length)
    (hl : ∀ e ∈ c.entries, c.lastKey ≤ e.key) : (c.resize n).Valid := by
  have hp := c.perm_resize n
  have hf : (c.resize n).Filed :=
    ((filed_of_replicate (le_max_right n minBuckets) (one_le_sampleWidth _) rfl).foldl_place
      _).congr rfl rfl
  have hk : (c.resize n).lastKey = c.lastKey := by
    simp only [resize, reposition]
    rw [foldl_place_eq]
  refine
    { toFiled := hf, size_eq := ?_, lastKey_le := fun e he => ?_, bucket_eq := ?_, top_eq := ?_ }
  · rw [size_resize, hs, hp.length_eq]
  · rw [hk]
    exact hl e (hp.mem_iff.mp he)
  · rw [hk]
    rfl
  · rw [hk]
    rfl

lemma perm_shrink (c : Calendar) : c.shrink.entries ~ c.entries := by
  rw [shrink]
  split_ifs
  · exact perm_resize c _
  · exact List.Perm.refl _

lemma Valid.shrink (h : c.Valid) : c.shrink.Valid := by
  rw [Calendar.shrink]
  split_ifs
  · exact valid_resize _ h.size_eq h.lastKey_le
  · exact h

/-! ### Insertion -/

lemma entries_stepBack (c : Calendar) (k : EventKey) : (c.stepBack k).entries = c.entries := by
  rw [stepBack]
  split_ifs <;> rfl

/-- An earlier key takes the scan back to its day. -/
lemma Valid.stepBack (h : c.Valid) (k : EventKey) :
    (c.stepBack k).Valid ∧ (c.stepBack k).lastKey ≤ k := by
  rw [Calendar.stepBack]
  split_ifs with hlt
  · rw [EventKey.cmp_eq_lt] at hlt
    refine ⟨?_, le_refl k⟩
    exact { toFiled := h.toFiled.congr rfl rfl, size_eq := h.size_eq, bucket_eq := rfl, top_eq := rfl,
            lastKey_le := fun e he => hlt.le.trans (h.lastKey_le e he) }
  · rw [EventKey.cmp_eq_lt, not_lt] at hlt
    exact ⟨h, hlt⟩

lemma perm_grow (c : Calendar) : c.grow.entries ~ c.entries := by
  simp only [grow]
  split_ifs
  · exact perm_resize _ _
  · exact List.Perm.refl _

lemma Valid.grow_place (h : c.Valid) (he : c.lastKey ≤ e.key) : (c.place e).grow.Valid := by
  have hc : 0 < c.bucketCount := by have := h.two_le_bucketCount; omega
  have hp := perm_place hc e
  have hs : c.size + 1 = (c.place e).entries.length := by
    rw [hp.length_eq, List.length_cons, h.size_eq]
  have hl : ∀ x ∈ (c.place e).entries, c.lastKey ≤ x.key := by
    intro x hx
    rcases List.mem_cons.mp (hp.mem_iff.mp hx) with rfl | hx
    · exact he
    · exact h.lastKey_le x hx
  simp only [grow]
  split_ifs
  · exact valid_resize _ hs hl
  · refine { toFiled := (h.toFiled.place e).congr rfl rfl, size_eq := hs, lastKey_le := hl,
             bucket_eq := ?_, top_eq := h.top_eq }
    exact h.bucket_eq.trans (bucketOf_congr (bucketCount_place c e) rfl _).symm

lemma Valid.insert (h : c.Valid) (e : Entry) : (c.insert e).Valid :=
  (h.stepBack e.key).1.grow_place (h.stepBack e.key).2

lemma Valid.perm_insert (h : c.Valid) (e : Entry) : (c.insert e).entries ~ e :: c.entries := by
  have hc : 0 < (c.stepBack e.key).bucketCount := by
    have := (h.stepBack e.key).1.two_le_bucketCount
    omega
  refine (perm_grow _).trans ((perm_place hc e).trans ?_)
  rw [entries_stepBack]

/-! ### The least entry -/

lemma Valid.day_le (h : c.Valid) (hx : x ∈ c.entries) :
    tickOf c.lastKey.time / c.width ≤ tick x / c.width := by
  have hk := EventKey.ticks_le (h.lastKey_le x hx)
  refine Nat.div_le_div_right ?_
  unfold tick tickOf
  omega

/-- The scan starts no later than the first day with entries. -/
lemma Valid.isNext_of_hit (h : c.Valid)
    (hl : c.scanYear c.bucketCount c.bucket c.top = some (i, top)) : c.IsNext i top := by
  rw [h.bucket_eq, h.top_eq, bucketOf, topAfter_eq_dayEnd h.width_pos] at hl
  exact h.isNext_of_scanYear (fun x hx => h.day_le hx) hl

lemma Valid.isNext_of_locate (h : c.Valid) (hl : c.locate = some (i, top)) : c.IsNext i top := by
  rw [locate] at hl
  split_ifs at hl
  rcases Option.or_eq_some_iff.mp hl with hl | ⟨-, hl⟩
  · exact h.isNext_of_hit hl
  · exact h.isNext_of_searchAll hl

lemma Valid.locate_eq_none_iff (h : c.Valid) : c.locate = none ↔ c.entries = [] := by
  rw [← List.length_eq_zero_iff, ← h.size_eq, locate]
  split_ifs with hs
  · simp [hs]
  · rw [h.size_eq, List.length_eq_zero_iff] at hs
    rw [Option.or_eq_none_iff, h.size_eq, List.length_eq_zero_iff]
    exact iff_of_false (fun hn => hs (h.entries_of_searchAll hn.2)) hs

lemma Valid.least?_eq_none_iff (h : c.Valid) : c.least? = none ↔ c.entries = [] := by
  rw [← h.locate_eq_none_iff, least?]
  cases hl : c.locate with
  | none => simp
  | some p =>
    obtain ⟨e, es, hes, -, -⟩ := h.isNext_of_locate hl
    simp [hes]

lemma Valid.least?_le (h : c.Valid) (he : c.least? = some e) :
    e ∈ c.entries ∧ ∀ x ∈ c.entries, e ≤ x := by
  obtain ⟨⟨i, top⟩, hl, he⟩ := Option.bind_eq_some_iff.mp he
  obtain ⟨f, es, hes, hle, -, -⟩ := h.isNext_of_locate hl
  simp only [hes, List.head?_cons, Option.some.injEq] at he
  subst he
  exact ⟨mem_entries.mpr ⟨i, by rw [hes]; exact List.mem_cons_self⟩, hle⟩

lemma Valid.pop?_eq_none_iff (h : c.Valid) : c.pop? = none ↔ c.entries = [] := by
  rw [← h.locate_eq_none_iff, pop?]
  cases hl : c.locate with
  | none => simp
  | some p =>
    obtain ⟨e, es, hes, -, -⟩ := h.isNext_of_locate hl
    simp [hes]

lemma Valid.of_pop? (h : c.Valid) (hp : c.pop? = some (e, d)) :
    c.least? = some e ∧ c.entries ~ e :: d.entries ∧ d.Valid := by
  rw [pop?] at hp
  cases hl : c.locate with
  | none => simp [hl] at hp
  | some p =>
    obtain ⟨i, top⟩ := p
    obtain ⟨f, es, hes, hle, hi, htop⟩ := h.isNext_of_locate hl
    simp only [hl, hes, Option.some.injEq, Prod.mk.injEq] at hp
    obtain ⟨rfl, rfl⟩ := hp
    have hi' : i < c.bucketCount := hi ▸ h.bucketOf_lt _
    have hperm : c.entries ~ f :: (c.setBucket i es).entries := by
      refine (perm_entries hi').trans ?_
      rw [hes]
      exact (perm_setBucket hi').symm.cons f
    refine ⟨by simp [least?, hl, hes], hperm.trans (List.Perm.cons f ?_), Valid.shrink ?_⟩
    · exact (perm_shrink { c.setBucket i es with
        bucket := i, top := top, lastKey := f.key, size := c.size - 1 }).symm
    have hfiled : (c.setBucket i es).Filed := by
      refine h.setBucket ?_ fun x hx => h.home i x (by rw [hes]; exact List.mem_cons_of_mem f hx)
      have hpw := h.pairwise i
      rw [hes] at hpw
      exact (List.pairwise_cons.mp hpw).2
    refine { toFiled := hfiled.congr rfl rfl, size_eq := ?_, lastKey_le := fun x hx => ?_,
             bucket_eq := ?_, top_eq := htop }
    · have hlen := hperm.length_eq
      rw [List.length_cons, ← h.size_eq] at hlen
      exact Nat.sub_eq_of_eq_add hlen
    · exact Entry.key_le (hle x (hperm.mem_iff.mpr (List.mem_cons_of_mem f hx)))
    · exact hi.trans (bucketOf_congr (bucketCount_setBucket c i es) rfl _).symm

/-! ### Removal -/

lemma Valid.remove_eq_none_iff (h : c.Valid) : c.remove e = none ↔ e ∉ c.entries := by
  rw [remove]
  rw [Option.map_eq_none_iff, SortedList.remove_eq_none_iff]
  exact not_congr ⟨fun he => mem_entries.mpr ⟨_, he⟩, h.mem_home⟩

/-- One copy of the entry goes. -/
lemma Valid.of_remove (h : c.Valid) (hr : c.remove e = some d) :
    c.entries ~ e :: d.entries ∧ d.Valid := by
  simp only [remove, Option.map_eq_some_iff] at hr
  obtain ⟨es, hes, rfl⟩ := hr
  have hi := h.bucketOf_lt (tick e)
  have hperm : c.entries ~ e :: (c.setBucket (c.bucketOf (tick e)) es).entries := by
    refine (perm_entries hi).trans ?_
    exact ((SortedList.perm_of_remove hes).append_right _).trans ((perm_setBucket hi).symm.cons e)
  have hfiled : (c.setBucket (c.bucketOf (tick e)) es).Filed := by
    refine h.setBucket (SortedList.pairwise_of_remove (h.pairwise _) hes) fun x hx => h.home _ x ?_
    exact (SortedList.perm_of_remove hes).mem_iff.mpr (List.mem_cons_of_mem e hx)
  refine ⟨hperm, { toFiled := hfiled.congr rfl rfl, size_eq := ?_, lastKey_le := fun x hx => ?_,
                   bucket_eq := ?_, top_eq := h.top_eq }⟩
  · have hlen := hperm.length_eq
    rw [List.length_cons, ← h.size_eq] at hlen
    exact Nat.sub_eq_of_eq_add hlen
  · exact h.lastKey_le x (hperm.mem_iff.mpr (List.mem_cons_of_mem e hx))
  · exact h.bucket_eq.trans (bucketOf_congr (bucketCount_setBucket c _ es) rfl _).symm

end EventKernel.Calendar
