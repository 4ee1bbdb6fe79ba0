import EventKernel.Proofs.Queue.Calendar.Bucket

/-!
# Looking for the least entry of a calendar

The year scan walks from day to day. As long as no entry lies before the day it stands on, a head
that lies in its day is the least entry, and if the head of the bucket does not lie in the day, no
entry does. The direct search compares the heads of all buckets. Both find the same: the bucket of
the least entry, and the end of the day of that entry.
-/

namespace EventKernel.Calendar

variable {c : Calendar} {e x : Entry} {i day top n : Nat}

/-! ### Days -/

/-- The tick at which a day ends. -/
def dayEnd (c : Calendar) (day : Nat) : Nat := min maxWord ((day + 1) * c.width)

lemma tick_lt_maxWord (e : Entry) : tick e < maxWord := by
  have h := e.key.time.ticks_lt
  unfold tick tickOf maxWord
  omega

lemma tick_le_of_le (h : e ≤ x) : tick e ≤ tick x := by
  have hk := EventKey.ticks_le (Entry.key_le h)
  unfold tick tickOf
  omega

lemma topAfter_eq_dayEnd (hw : 1 ≤ c.width) (t : Nat) : c.topAfter t = c.dayEnd (t / c.width) := by
  unfold topAfter dayEnd
  rcases le_total (t / c.width + 1) maxWord with h | h
  · rw [min_eq_right h]
  · have hp : maxWord ≤ maxWord * c.width := Nat.le_mul_of_pos_right _ hw
    rw [min_eq_left h, min_eq_left hp, min_eq_left (hp.trans (Nat.mul_le_mul_right _ h))]

/-- The end of the next day; saturated ends stay saturated. -/
lemma dayEnd_succ (c : Calendar) (day : Nat) :
    min maxWord (c.dayEnd day + c.width) = c.dayEnd (day + 1) := by
  rw [dayEnd, dayEnd]
  rw [Nat.succ_mul (day + 1)]
  omega

/-- No tick is as large as a saturated end. -/
lemma tick_lt_dayEnd_iff (hw : 1 ≤ c.width) :
    tick e < c.dayEnd day ↔ tick e / c.width ≤ day := by
  rw [dayEnd, Nat.lt_min, and_iff_right (tick_lt_maxWord e), ← Nat.div_lt_iff_lt_mul hw,
    Nat.lt_succ_iff]

/-! ### The year scan -/

/-- The bucket `i` has the least entry at its head, and `top` is the end of the day of that
entry. -/
def IsNext (c : Calendar) (i top : Nat) : Prop :=
  ∃ e es, c.entriesAt i = e :: es ∧ (∀ x ∈ c.entries, e ≤ x) ∧
    i = c.bucketOf (tick e) ∧ top = c.topAfter (tick e)

/-- An entry of the day stands in the bucket of the day, behind its head. -/
lemma Filed.head_le_of_day (hf : c.Filed) (hx : x ∈ c.entries) (hday : tick x / c.width = day) :
    ∃ e es, c.entriesAt (day % c.bucketCount) = e :: es ∧ e ≤ x := by
  have hmem := hf.mem_home hx
  rw [bucketOf, hday] at hmem
  obtain ⟨e, es, hes⟩ := List.exists_cons_of_ne_nil (List.ne_nil_of_mem hmem)
  refine ⟨e, es, hes, ?_⟩
  have hp := hf.pairwise (day % c.bucketCount)
  rw [hes] at hp hmem
  rcases List.mem_cons.mp hmem with rfl | hmem
  · exact le_refl _
  · exact (List.pairwise_cons.mp hp).1 x hmem

/-- A head that lies in the first day with entries is the least entry. -/
lemma Filed.isNext_of_head (hf : c.Filed) (hday : ∀ x ∈ c.entries, day ≤ tick x / c.width)
    {es : List Entry} (hes : c.entriesAt (day % c.bucketCount) = e :: es)
    (he : tick e < c.dayEnd day) : c.IsNext (day % c.bucketCount) (c.dayEnd day) := by
  have hmem : e ∈ c.entries := mem_entries.mpr ⟨_, by rw [hes]; exact List.mem_cons_self⟩
  have hd : tick e / c.width = day :=
    le_antisymm ((tick_lt_dayEnd_iff hf.width_pos).mp he) (hday e hmem)
  refine ⟨e, es, hes, fun x hx => ?_, by rw [bucketOf, hd], ?_⟩
  · by_contra hlt
    have hxe := lt_of_not_ge hlt
    have hdx : tick x / c.width = day :=
      le_antisymm (hd ▸ Nat.div_le_div_right (tick_le_of_le hxe.le)) (hday x hx)
    obtain ⟨f, fs, hfs, hfx⟩ := hf.head_le_of_day hx hdx
    rw [hes] at hfs
    cases hfs
    exact hlt hfx
  · rw [topAfter_eq_dayEnd hf.width_pos, hd]

lemma Filed.isNext_of_scanYear (hf : c.Filed) (hday : ∀ x ∈ c.entries, day ≤ tick x / c.width)
    (h : c.scanYear n (day % c.bucketCount) (c.dayEnd day) = some (i, top)) : c.IsNext i top := by
  induction n generalizing day with
  | zero => simp [scanYear] at h
  | succ n ih =>
    -- if the head does not lie in the day, then no entry does
    have next (hno : ∀ e es, c.entriesAt (day % c.bucketCount) = e :: es → ¬tick e < c.dayEnd day)
        (h : c.scanYear n ((day % c.bucketCount + 1) % c.bucketCount)
          (min maxWord (c.dayEnd day + c.width)) = some (i, top)) : c.IsNext i top := by
      rw [dayEnd_succ, Nat.mod_add_mod] at h
      refine ih (fun x hx => Nat.lt_of_le_of_ne (hday x hx) ?_) h
      intro heq
      obtain ⟨e, es, hes, hex⟩ := hf.head_le_of_day hx heq.symm
      have hx' : tick x < c.dayEnd day := (tick_lt_dayEnd_iff hf.width_pos).mpr heq.ge
      exact hno e es hes ((tick_le_of_le hex).trans_lt hx')
    simp only [scanYear] at h
    split at h
    · rename_i e es hes
      split_ifs at h with he
      · simp only [Option.some.injEq, Prod.mk.injEq] at h
        obtain ⟨rfl, rfl⟩ := h
        exact hf.isNext_of_head hday hes he
      · refine next ?_ h
        intro e' es' hes'
        rw [hes] at hes'
        cases hes'
        exact he
    · rename_i hes
      exact next (fun e' es' hes' => by rw [hes] at hes'; simp at hes') h

/-! ### The direct search -/

/-- What the search knows after the first `n` buckets: the least of their heads. -/
def LeastBefore (c : Calendar) (n : Nat) : Option (Nat × Entry) → Prop
  | none => ∀ k < n, c.entriesAt k = []
  | some (j, b) => (c.entriesAt j).head? = some b ∧
      ∀ k < n, ∀ a, (c.entriesAt k).head? = some a → b ≤ a

lemma LeastBefore.step {best : Option (Nat × Entry)} (h : c.LeastBefore n best) :
    c.LeastBefore (n + 1) (leastHead best n (c.entriesAt n)) := by
  cases hn : c.entriesAt n with
  | nil =>
    have hle : ∀ k < n + 1, k < n ∨ c.entriesAt k = [] := by
      intro k hk
      rcases Nat.lt_succ_iff_lt_or_eq.mp hk with hk | rfl
      · exact Or.inl hk
      · exact Or.inr hn
    cases best with
    | none => exact fun k hk => (hle k hk).elim (h k) id
    | some p =>
      refine ⟨h.1, ?_⟩
      intro k hk a ha
      rcases hle k hk with hk | hk
      · exact h.2 k hk a ha
      · simp [hk] at ha
  | cons e es =>
    cases best with
    | none =>
      refine ⟨by rw [hn]; rfl, ?_⟩
      intro k hk a ha
      rcases Nat.lt_succ_iff_lt_or_eq.mp hk with hk | rfl
      · simp [h k hk] at ha
      · rw [hn] at ha
        cases ha
        exact le_refl _
    | some p =>
      obtain ⟨j, b⟩ := p
      simp only [leastHead, Entry.before_iff]
      split_ifs with hlt
      · refine ⟨by rw [hn]; rfl, ?_⟩
        intro k hk a ha
        rcases Nat.lt_succ_iff_lt_or_eq.mp hk with hk | rfl
        · exact hlt.le.trans (h.2 k hk a ha)
        · rw [hn] at ha
          cases ha
          exact le_refl _
      · refine ⟨h.1, ?_⟩
        intro k hk a ha
        rcases Nat.lt_succ_iff_lt_or_eq.mp hk with hk | rfl
        · exact h.2 k hk a ha
        · rw [hn] at ha
          cases ha
          exact not_lt.mp hlt

lemma LeastBefore.searchFrom {best : Option (Nat × Entry)} {l : List (List Entry)}
    (h : c.LeastBefore n best) (hl : c.buckets.toList.drop n = l) :
    c.LeastBefore c.bucketCount (searchFrom n best l) := by
  induction l generalizing n best with
  | nil =>
    have hn : c.bucketCount ≤ n := by simpa [bucketCount] using hl
    cases best with
    | none => exact fun k hk => h k (hk.trans_le hn)
    | some p => exact ⟨h.1, fun k hk => h.2 k (hk.trans_le hn)⟩
  | cons es l ih =>
    have hn : n < c.buckets.toList.length := by
      by_contra hlt
      rw [List.drop_eq_nil_of_le (not_lt.mp hlt)] at hl
      simp at hl
    rw [List.drop_eq_getElem_cons hn] at hl
    obtain ⟨rfl, htl⟩ := List.cons.inj hl
    have hes := entriesAt_eq_getElem (c := c) (by rwa [Array.length_toList] at hn)
    rw [Calendar.searchFrom, Array.getElem_toList, ← hes]
    exact ih h.step htl

lemma leastBefore_searchAll (c : Calendar) :
    c.LeastBefore c.bucketCount (searchFrom 0 none c.buckets.toList) :=
  LeastBefore.searchFrom (by simp [LeastBefore]) rfl

lemma Filed.isNext_of_searchAll (hf : c.Filed) (h : c.searchAll = some (i, top)) :
    c.IsNext i top := by
  simp only [searchAll, Option.map_eq_some_iff, Prod.mk.injEq, Prod.exists] at h
  obtain ⟨j, b, hs, rfl, rfl⟩ := h
  have hb := c.leastBefore_searchAll
  rw [hs] at hb
  obtain ⟨es, hes⟩ := List.head?_eq_some_iff.mp hb.1
  refine ⟨b, es, hes, fun x hx => ?_, ?_, rfl⟩
  · obtain ⟨f, fs, hfs, hfx⟩ := hf.head_le_of_day hx rfl
    refine (hb.2 _ (hf.bucketOf_lt (tick x)) f ?_).trans hfx
    rw [bucketOf, hfs]
    rfl
  · exact (hf.home j b (by rw [hes]; exact List.mem_cons_self)).symm

lemma Filed.entries_of_searchAll (hf : c.Filed) (h : c.searchAll = none) : c.entries = [] := by
  rw [searchAll, Option.map_eq_none_iff] at h
  have hb := c.leastBefore_searchAll
  rw [h] at hb
  by_contra hne
  obtain ⟨x, hx⟩ := List.exists_mem_of_ne_nil _ hne
  have hmem := hf.mem_home hx
  rw [hb _ (hf.bucketOf_lt _)] at hmem
  simp at hmem

end EventKernel.Calendar
