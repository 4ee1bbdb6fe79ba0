import EventKernel.Proofs.Queue.Calendar.Bucket
import EventKernel.Queue.Operation

/-!
# The load of calendars

How many buckets a calendar has depends on its past only through the numbers of entries. Growing
keeps at most two entries for a bucket. Shrinking keeps at least one entry for two buckets, unless
entries were removed in the middle, or the calendar was given more buckets than the least number at
the start. Each operation resizes at most once, by a factor of two, which is enough since it changes
the number of entries by one.
-/

namespace EventKernel

namespace Calendar

variable {c d : Calendar} {e : Entry}

/-! ### Numbers of entries and buckets -/

lemma bucketCount_resize (c : Calendar) (n : Nat) :
    (c.resize n).bucketCount = max n minBuckets := by
  have hplace : ∀ (es : List Entry) (d : Calendar),
      (es.foldl place d).bucketCount = d.bucketCount := by
    intro es
    induction es with
    | nil => exact fun _ => rfl
    | cons e es ih => exact fun d => (ih (d.place e)).trans (bucketCount_place d e)
  simp only [resize]
  exact (hplace _ _).trans Array.size_replicate

lemma counts_stepBack (c : Calendar) (k : EventKey) :
    (c.stepBack k).size = c.size ∧ (c.stepBack k).bucketCount = c.bucketCount := by
  rw [stepBack]
  split_ifs <;> exact ⟨rfl, rfl⟩

lemma counts_grow (c : Calendar) :
    c.grow.size = c.size + 1 ∧
      c.grow.bucketCount =
        if c.bucketCount * 2 < c.size + 1 then max (c.bucketCount * 2) minBuckets
        else c.bucketCount := by
  have hbuckets : ({ c with size := c.size + 1 } : Calendar).bucketCount = c.bucketCount := rfl
  simp only [grow, hbuckets]
  split
  · exact ⟨size_resize _ _, bucketCount_resize _ _⟩
  · exact ⟨rfl, rfl⟩

/-- One entry more. The number of buckets doubles if there are too few then. -/
lemma counts_insert (c : Calendar) (e : Entry) :
    (c.insert e).size = c.size + 1 ∧
      (c.insert e).bucketCount =
        if c.bucketCount * 2 < c.size + 1 then max (c.bucketCount * 2) minBuckets
        else c.bucketCount := by
  obtain ⟨hsize, hbuckets⟩ := c.counts_stepBack e.key
  rw [← hsize, ← hbuckets, ← bucketCount_place (c.stepBack e.key) e]
  exact counts_grow _

lemma bucketCount_shrink (c : Calendar) :
    c.shrink.bucketCount =
      if minBuckets < c.bucketCount ∧ c.size < c.bucketCount / 2 then
        max (c.bucketCount / 2) minBuckets
      else c.bucketCount := by
  rw [shrink]
  split
  · exact bucketCount_resize _ _
  · rfl

/-- One entry less. The number of buckets halves if there are too many then. -/
lemma counts_of_pop? (h : c.pop? = some (e, d)) :
    d.size = c.size - 1 ∧
      d.bucketCount =
        if minBuckets < c.bucketCount ∧ c.size - 1 < c.bucketCount / 2 then
          max (c.bucketCount / 2) minBuckets
        else c.bucketCount := by
  rw [pop?] at h
  cases hl : c.locate with
  | none => simp [hl] at h
  | some p =>
    obtain ⟨i, top⟩ := p
    cases hes : c.entriesAt i with
    | nil => simp [hl, hes] at h
    | cons f es =>
      simp only [hl, hes, Option.some.injEq, Prod.mk.injEq] at h
      obtain ⟨rfl, rfl⟩ := h
      let taken : Calendar := { c.setBucket i es with
        bucket := i, top := top, lastKey := f.key, size := c.size - 1 }
      have hbuckets : taken.bucketCount = c.bucketCount := bucketCount_setBucket c i es
      refine ⟨size_shrink taken, ?_⟩
      rw [← hbuckets]
      exact bucketCount_shrink taken

/-- One entry less, and no resizing. -/
lemma counts_of_remove (h : c.remove e = some d) :
    d.size = c.size - 1 ∧ d.bucketCount = c.bucketCount := by
  simp only [remove, Option.map_eq_some_iff] at h
  obtain ⟨es, -, rfl⟩ := h
  exact ⟨rfl, bucketCount_setBucket c _ es⟩

/-! ### Neither too few buckets nor too many -/

/-- There are at most two entries for a bucket. -/
structure Roomy (c : Calendar) : Prop where
  minBuckets_le : minBuckets ≤ c.bucketCount
  size_le : c.size ≤ 2 * c.bucketCount

/-- There is at least one entry for two buckets, or the least number of buckets. -/
def Dense (c : Calendar) : Prop :=
  c.bucketCount = minBuckets ∨ c.bucketCount / 2 ≤ c.size

lemma bucketCount_empty (n : Nat) : (empty n).bucketCount = max n minBuckets :=
  Array.size_replicate

lemma roomy_empty (n : Nat) : (empty n).Roomy where
  minBuckets_le := by
    rw [bucketCount_empty]
    exact le_max_right ..
  size_le := Nat.zero_le _

lemma Roomy.insert (h : c.Roomy) (e : Entry) : (c.insert e).Roomy := by
  obtain ⟨hmin, hsize⟩ := h
  obtain ⟨hsize', hbuckets'⟩ := c.counts_insert e
  have htwo : minBuckets = 2 := rfl
  split at hbuckets' <;> constructor <;> omega

lemma Roomy.of_pop? (h : c.Roomy) (hp : c.pop? = some (e, d)) : d.Roomy := by
  obtain ⟨hmin, hsize⟩ := h
  obtain ⟨hsize', hbuckets'⟩ := counts_of_pop? hp
  have htwo : minBuckets = 2 := rfl
  split at hbuckets' <;> constructor <;> omega

lemma Roomy.of_remove (h : c.Roomy) (hr : c.remove e = some d) : d.Roomy := by
  obtain ⟨hmin, hsize⟩ := h
  obtain ⟨hsize', hbuckets'⟩ := counts_of_remove hr
  constructor <;> omega

lemma dense_empty : (empty minBuckets).Dense := Or.inl (bucketCount_empty _)

/-- Buckets are doubled only when there are more than two entries for each. -/
lemma Dense.insert (h : c.Dense) (e : Entry) : (c.insert e).Dense := by
  obtain ⟨hsize', hbuckets'⟩ := c.counts_insert e
  have htwo : minBuckets = 2 := rfl
  unfold Dense at h ⊢
  split at hbuckets' <;> omega

/-- If `n / 2` entries are one too few for `n` buckets, they are enough for `n / 2`. -/
lemma Dense.of_pop? (h : c.Dense) (hp : c.pop? = some (e, d)) : d.Dense := by
  obtain ⟨hsize', hbuckets'⟩ := counts_of_pop? hp
  have htwo : minBuckets = 2 := rfl
  unfold Dense at h ⊢
  split at hbuckets' <;> omega

end Calendar

/-! ### Histories -/

namespace Queue

/-- What the changes of a calendar keep, an operation keeps. -/
lemma calendar_apply {P : Calendar → Prop} (op : QueueOp)
    (hinsert : ∀ e c, P c → P (c.insert e))
    (hpop : ∀ c e d, P c → c.pop? = some (e, d) → P d)
    (hremove : ∀ c e d, op = .remove e → P c → c.remove e = some d → P d) {c : Calendar}
    (h : P c) : ∃ d, ((calendar c).apply op).2 = .calendar d ∧ P d := by
  cases op with
  | insert e => exact ⟨_, rfl, hinsert e c h⟩
  | least | isEmpty => exact ⟨c, rfl, h⟩
  | pop =>
    cases hp : c.pop? with
    | none => exact ⟨c, by simp [apply, pop?, hp], h⟩
    | some p => exact ⟨p.2, by simp [apply, pop?, hp], hpop c p.1 p.2 h hp⟩
  | remove e =>
    cases hr : c.remove e with
    | none => exact ⟨c, by simp [apply, remove, hr], h⟩
    | some d => exact ⟨d, by simp [apply, remove, hr], hremove c e d rfl h hr⟩

/-- What holds of a calendar, and is kept by the operations of a history, holds all along it. -/
lemma calendar_history {P : Calendar → Prop} {ops : List QueueOp}
    (hinsert : ∀ e c, P c → P (c.insert e))
    (hpop : ∀ c e d, P c → c.pop? = some (e, d) → P d)
    (hremove : ∀ c e d, .remove e ∈ ops → P c → c.remove e = some d → P d) {c : Calendar}
    (h : P c) : ∀ p ∈ (calendar c).history ops, ∃ d, p.2 = .calendar d ∧ P d := by
  induction ops generalizing c with
  | nil => exact fun p hp => (by cases hp)
  | cons op ops ih =>
    obtain ⟨d, hd, hd'⟩ := calendar_apply op hinsert hpop
      (fun c e d hop => hremove c e d (hop ▸ List.mem_cons_self)) h
    intro p hp
    rw [show (calendar c).history (op :: ops) =
      (calendar c).apply op :: ((calendar c).apply op).2.history ops from rfl, hd] at hp
    rcases List.mem_cons.mp hp with rfl | hp
    · exact ⟨d, hd, hd'⟩
    · exact ih (fun c e d hop => hremove c e d (List.mem_cons_of_mem _ hop)) hd' p hp

/-- After every operation a calendar has two buckets or more, and at most two entries for each. If
it started with two buckets and no entry is removed, then it has two buckets or at least one entry
for two of them. -/
theorem calendar_load_bounded (ops : List QueueOp) :
    (∀ n, ∀ p ∈ (empty n .calendar).history ops,
      ∃ buckets, p.2.bucketCount? = some buckets ∧ 2 ≤ buckets ∧ p.2.size ≤ 2 * buckets) ∧
    ((∀ e, .remove e ∉ ops) → ∀ p ∈ (empty 2 .calendar).history ops,
      ∃ buckets, p.2.bucketCount? = some buckets ∧ (buckets = 2 ∨ buckets / 2 ≤ p.2.size)) := by
  constructor
  · intro n p hp
    obtain ⟨d, hd, hroomy⟩ := calendar_history (fun e _ h => h.insert e) (fun _ _ _ => .of_pop?)
      (fun _ _ _ _ => .of_remove) (Calendar.roomy_empty n) p hp
    rw [hd]
    exact ⟨d.bucketCount, rfl, hroomy.minBuckets_le, hroomy.size_le⟩
  · intro hnone p hp
    obtain ⟨d, hd, hdense⟩ := calendar_history (fun e _ h => h.insert e) (fun _ _ _ => .of_pop?)
      (fun _ e _ he => absurd he (hnone e)) Calendar.dense_empty p hp
    rw [hd]
    exact ⟨d.bucketCount, rfl, hdense⟩

end Queue

end EventKernel
