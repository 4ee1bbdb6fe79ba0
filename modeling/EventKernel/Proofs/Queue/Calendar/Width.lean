import Mathlib.Algebra.Order.BigOperators.Group.List
import Mathlib.Algebra.Order.Group.Nat
import EventKernel.Proofs.Queue.Calendar.LoadFactor
import EventKernel.Proofs.Queue.History

/-!
# The widths of days

A new width comes from the gaps between the first entries. In ascending order the gaps add up to the
distance from the first tick to the last one, so that no sum leaves the words of 64 bits, however far
the times lie apart and however many of them lie before zero. Some gap is no larger than the mean of
all, and leaving out gaps above the mean does not raise it: there is a mean of the close gaps, and it
is at most the overall one. Every width that a calendar has is sampled in this way, or is the one it
was created with, and is a positive word.
-/

namespace EventKernel

namespace Calendar

variable {c d : Calendar} {e : Entry} {es : List Entry} {ms ns ts : List Nat} {b t : Nat}

/-! ### Sums in words -/

/-- The sum of numbers, added up from the left in words of 64 bits; `none` if a sum on the way is
too large. -/
def sumWord? (ns : List Nat) : Option Nat :=
  ns.foldlM (fun sum n => if sum + n ≤ maxWord then some (sum + n) else none) 0

lemma total_append (ms ns : List Nat) : total (ms ++ ns) = total ms + total ns := List.sum_append

lemma total_eq_of_perm (h : ms.Perm ns) : total ms = total ns := h.sum_eq

lemma total_filter_le (p : Nat → Bool) (ns : List Nat) : total (ns.filter p) ≤ total ns :=
  List.filter_sublist.sum_le_sum fun _ _ => Nat.zero_le _

/-- Every sum on the way is at most the whole one. -/
lemma sumWord?_eq_some (h : total ns ≤ maxWord) : sumWord? ns = some (total ns) := by
  have hfrom : ∀ (ns : List Nat) (sum : Nat), sum + total ns ≤ maxWord →
      ns.foldlM (fun sum n => if sum + n ≤ maxWord then some (sum + n) else none) sum =
        some (sum + total ns) := by
    intro ns
    induction ns with
    | nil => exact fun _ _ => rfl
    | cons n ns ih =>
      intro sum hsum
      have htotal : total (n :: ns) = n + total ns := rfl
      rw [htotal, ← Nat.add_assoc] at hsum ⊢
      rw [List.foldlM_cons, if_pos ((Nat.le_add_right _ _).trans hsum)]
      exact ih _ hsum
  rw [sumWord?, hfrom ns 0 (by rwa [Nat.zero_add]), Nat.zero_add]

/-! ### Means -/

/-- The mean of numbers, rounded down. -/
def mean (ns : List Nat) : Nat := total ns / ns.length

lemma total_lt (h : ns ≠ []) : total ns < ns.length * (mean ns + 1) :=
  Nat.lt_mul_div_succ _ (List.length_pos_iff.mpr h)

/-- Not all numbers are above their mean, although it is rounded down. -/
lemma exists_le_mean (h : ns ≠ []) : ∃ n ∈ ns, n ≤ mean ns := by
  by_contra hall
  have hle : ns.length * (mean ns + 1) ≤ total ns :=
    List.card_nsmul_le_sum ns _ fun n hn => not_le.mp fun hnm => hall ⟨n, hn, hnm⟩
  exact (total_lt h).not_ge hle

/-- Leaving out numbers above a bound that is not below the mean does not raise the mean. -/
lemma mean_filter_le (hb : mean ns ≤ b) : mean (ns.filter (· ≤ b)) ≤ mean ns := by
  let close := ns.filter (· ≤ b)
  let far := ns.filter fun n => !(decide (n ≤ b))
  by_cases hclose : close = []
  · rw [show ns.filter (· ≤ b) = [] from hclose]
    exact Nat.zero_le _
  have hperm : (close ++ far).Perm ns := List.filter_append_perm _ ns
  have hsum : total close + total far = total ns := by
    rw [← total_append, total_eq_of_perm hperm]
  have hlength : close.length + far.length = ns.length := by
    rw [← List.length_append, hperm.length_eq]
  have hns : ns ≠ [] := fun hnil => hclose (by simp [close, hnil])
  have hfar : far.length * (mean ns + 1) ≤ total far := by
    refine List.card_nsmul_le_sum far _ fun n hn => ?_
    have hbn : b < n := by simpa using (List.mem_filter.mp hn).2
    omega
  have hlt : total close < close.length * (mean ns + 1) := by
    have h := total_lt hns
    rw [← hsum, ← hlength, Nat.add_mul] at h
    omega
  exact Nat.lt_succ_iff.mp (Nat.div_lt_of_lt_mul hlt)

/-! ### Gaps -/

lemma length_gaps (ts : List Nat) : (gaps ts).length = ts.length - 1 := by
  induction ts with
  | nil => rfl
  | cons t ts ih =>
    cases ts with
    | nil => rfl
    | cons u ts =>
      simp only [gaps, List.length_cons, ih]
      omega

/-- The gaps between ascending ticks add up to the distance from the first one to the last one. -/
lemma add_total_gaps (h : (t :: ts).Pairwise (· ≤ ·)) :
    t + total (gaps (t :: ts)) = (t :: ts).getLast (List.cons_ne_nil t ts) := by
  induction ts generalizing t with
  | nil => rfl
  | cons u ts ih =>
    obtain ⟨hle, htail⟩ := List.pairwise_cons.mp h
    have htu : t ≤ u := hle u List.mem_cons_self
    have htotal : total (gaps (t :: u :: ts)) = (u - t) + total (gaps (u :: ts)) := rfl
    rw [htotal, List.getLast_cons (List.cons_ne_nil u ts), ← ih htail]
    omega

lemma total_gaps_lt (h : ts.Pairwise (· ≤ ·)) (hb : 0 < b) (hlt : ∀ t ∈ ts, t < b) :
    total (gaps ts) < b := by
  cases ts with
  | nil => exact hb
  | cons t ts =>
    have hsum := add_total_gaps h
    have hlast := hlt _ (List.getLast_mem (List.cons_ne_nil t ts))
    omega

/-! ### Samples -/

/-- The gaps between the entries that are sampled. -/
def sampledGaps (es : List Entry) : List Nat := gaps ((es.take sampleSize).map tick)

/-- The gaps that are at most twice the mean. -/
def closeGaps (ns : List Nat) : List Nat := ns.filter (· ≤ min maxWord (mean ns * 2))

lemma sampleWidth_eq (es : List Entry) :
    sampleWidth es =
      if (sampledGaps es).isEmpty then 1
      else if (closeGaps (sampledGaps es)).isEmpty then 1
      else max 1 (min maxWord (mean (closeGaps (sampledGaps es)) * 3)) := rfl

lemma length_sampledGaps (es : List Entry) :
    (sampledGaps es).length = min sampleSize es.length - 1 := by
  rw [sampledGaps, length_gaps, List.length_map, List.length_take]

lemma sampledGaps_eq_nil_iff : sampledGaps es = [] ↔ es.length < 2 := by
  have hsize : sampleSize = 25 := rfl
  rw [← List.length_eq_zero_iff, length_sampledGaps]
  omega

/-- The gaps add up to at most the last tick, which is no larger than the largest time. -/
lemma total_sampledGaps_lt (h : es.Pairwise (· ≤ ·)) : total (sampledGaps es) < maxWord := by
  have hticks : ((es.take sampleSize).map tick).Pairwise (· ≤ ·) :=
    List.pairwise_map.mpr ((h.sublist (List.take_sublist _ _)).imp tick_le_of_le)
  refine total_gaps_lt hticks (by decide) fun t ht => ?_
  obtain ⟨e, -, rfl⟩ := List.mem_map.mp ht
  exact tick_lt_maxWord e

lemma mean_le_total (ns : List Nat) : mean ns ≤ total ns := Nat.div_le_self _ _

lemma closeGaps_ne_nil (hns : ns ≠ []) (hword : total ns ≤ maxWord) : closeGaps ns ≠ [] := by
  obtain ⟨n, hn, hle⟩ := exists_le_mean hns
  have hmean := mean_le_total ns
  refine List.ne_nil_of_mem (List.mem_filter.mpr ⟨hn, decide_eq_true ?_⟩)
  omega

lemma mean_closeGaps_le (hword : total ns ≤ maxWord) : mean (closeGaps ns) ≤ mean ns := by
  have hmean := mean_le_total ns
  exact mean_filter_le (by omega)

lemma sampleWidth_of_length_lt (h : es.length < 2) : sampleWidth es = 1 := by
  rw [sampleWidth_eq, sampledGaps_eq_nil_iff.mpr h]
  rfl

lemma sampleWidth_of_le_length (hes : es.Pairwise (· ≤ ·)) (h : 2 ≤ es.length) :
    sampleWidth es = max 1 (min maxWord (mean (closeGaps (sampledGaps es)) * 3)) := by
  have hgaps : sampledGaps es ≠ [] := fun hnil => (sampledGaps_eq_nil_iff.mp hnil).not_ge h
  have hclose := closeGaps_ne_nil hgaps (total_sampledGaps_lt hes).le
  rw [sampleWidth_eq, if_neg (by simpa using hgaps), if_neg (by simpa using hclose)]

lemma sampleWidth_le (es : List Entry) : sampleWidth es ≤ maxWord := by
  have hone : 1 ≤ maxWord := by decide
  rw [sampleWidth_eq]
  split
  · exact hone
  · split
    · exact hone
    · exact max_le hone (min_le_left _ _)

/-! ### The widths of a calendar -/

/-- The width is the one of a new calendar, or was sampled from entries in ascending order. -/
def Measured (c : Calendar) : Prop :=
  c.width = 1 ∨ ∃ es, es.Pairwise (· ≤ ·) ∧ c.width = sampleWidth es

lemma Measured.one_le (h : c.Measured) : 1 ≤ c.width := by
  rcases h with h | ⟨es, -, h⟩ <;> rw [h]
  exact one_le_sampleWidth es

lemma Measured.le_maxWord (h : c.Measured) : c.width ≤ maxWord := by
  rcases h with h | ⟨es, -, h⟩ <;> rw [h]
  · decide
  · exact sampleWidth_le es

/-- All entries are dealt out with the new width. -/
lemma width_resize (c : Calendar) (n : Nat) :
    (c.resize n).width = sampleWidth (SortedList.sort c.entries) := by
  simp only [resize, reposition]
  rw [foldl_place_eq]
  rfl

lemma measured_resize (c : Calendar) (n : Nat) : (c.resize n).Measured :=
  Or.inr ⟨_, SortedList.pairwise_sort c.entries, width_resize c n⟩

lemma Measured.insert (h : c.Measured) (e : Entry) : (c.insert e).Measured := by
  have hback : (c.stepBack e.key).width = c.width := by
    rw [stepBack]
    split_ifs <;> rfl
  simp only [Calendar.insert, grow]
  split_ifs
  · exact measured_resize _ _
  · rw [Measured, ← hback] at h
    exact h

lemma Measured.of_pop? (h : c.Measured) (hp : c.pop? = some (e, d)) : d.Measured := by
  have hshrink : ∀ c : Calendar, c.Measured → c.shrink.Measured := by
    intro c hc
    rw [shrink]
    split_ifs
    · exact measured_resize _ _
    · exact hc
  rw [pop?] at hp
  cases hl : c.locate with
  | none => simp [hl] at hp
  | some p =>
    cases hes : c.entriesAt p.1 with
    | nil => simp [hl, hes] at hp
    | cons f es =>
      simp only [hl, hes, Option.some.injEq, Prod.mk.injEq] at hp
      obtain ⟨-, rfl⟩ := hp
      exact hshrink _ h

lemma Measured.of_remove (h : c.Measured) (hr : c.remove e = some d) : d.Measured := by
  simp only [remove, Option.map_eq_some_iff] at hr
  obtain ⟨es, -, rfl⟩ := hr
  exact h

end Calendar

/-! ### Histories -/

namespace Queue

/-- What the operations keep holds behind all of them. -/
lemma calendar_after {P : Calendar → Prop} (hinsert : ∀ e c, P c → P (c.insert e))
    (hpop : ∀ c e d, P c → c.pop? = some (e, d) → P d)
    (hremove : ∀ c e d, P c → c.remove e = some d → P d) (ops : List QueueOp) {c : Calendar}
    (h : P c) : ∃ d, (calendar c).after ops = .calendar d ∧ P d := by
  induction ops generalizing c with
  | nil => exact ⟨c, rfl, h⟩
  | cons op ops ih =>
    obtain ⟨d, hd, hd'⟩ := calendar_apply op hinsert hpop
      (fun c e d _ => hremove c e d) h
    obtain ⟨x, hx, hx'⟩ := ih hd'
    refine ⟨x, ?_, hx'⟩
    rwa [after, List.foldl_cons, hd]

lemma measured_after (n : Nat) (ops : List QueueOp) :
    ∃ c, (empty n .calendar).after ops = .calendar c ∧ c.Measured :=
  calendar_after (fun e _ h => h.insert e) (fun _ _ _ => .of_pop?) (fun _ _ _ => .of_remove) ops
    (Or.inl rfl)

end Queue

namespace Calendar

/-- Sampling a width from entries in ascending order stays within the words of 64 bits and never
divides by zero. From two entries on there are close gaps, their mean is at most that of all, and
the width is three times that mean, but at least one and at most the largest word. Whatever is done
to a calendar, its width is sampled so, or is the one of a new calendar, and is a positive word. -/
theorem sampleWidth_safe :
    (∀ es : List Entry, es.Pairwise (· ≤ ·) →
      sumWord? (sampledGaps es) = some (total (sampledGaps es)) ∧
      sumWord? (closeGaps (sampledGaps es)) = some (total (closeGaps (sampledGaps es))) ∧
      (es.length < 2 → sampleWidth es = 1) ∧
      (2 ≤ es.length →
        (sampledGaps es).length ≠ 0 ∧ (closeGaps (sampledGaps es)).length ≠ 0 ∧
        mean (closeGaps (sampledGaps es)) ≤ mean (sampledGaps es) ∧
        sampleWidth es = max 1 (min maxWord (3 * mean (closeGaps (sampledGaps es)))))) ∧
    ∀ (n : Nat) (ops : List QueueOp), ∃ c, (Queue.empty n .calendar).after ops = .calendar c ∧
      (c.width = 1 ∨ ∃ es, es.Pairwise (· ≤ ·) ∧ c.width = sampleWidth es) ∧
      1 ≤ c.width ∧ c.width ≤ maxWord := by
  refine ⟨fun es hes => ?_, fun n ops => ?_⟩
  · have hword := (total_sampledGaps_lt hes).le
    have hclose : total (closeGaps (sampledGaps es)) ≤ maxWord := (total_filter_le _ _).trans hword
    refine ⟨sumWord?_eq_some hword, sumWord?_eq_some hclose, sampleWidth_of_length_lt, fun h => ?_⟩
    have hgaps : sampledGaps es ≠ [] := fun hnil => (sampledGaps_eq_nil_iff.mp hnil).not_ge h
    refine ⟨fun hlength => hgaps (List.length_eq_zero_iff.mp hlength),
      fun hlength => closeGaps_ne_nil hgaps hword (List.length_eq_zero_iff.mp hlength),
      mean_closeGaps_le hword, ?_⟩
    rw [sampleWidth_of_le_length hes h, Nat.mul_comm]
  · obtain ⟨c, hc, h⟩ := Queue.measured_after n ops
    exact ⟨c, hc, h, h.one_le, h.le_maxWord⟩

/-- The times from one end of the range to the other make the largest width. -/
theorem sampleWidth_safe_far_apart :
    let es : List Entry := [⟨⟨Time.least, 1⟩, 1⟩, ⟨⟨Time.never, 2⟩, 2⟩]
    es.Pairwise (· ≤ ·) ∧ 2 ≤ es.length ∧
      sumWord? (sampledGaps es) = some 9223372036854775807 ∧
      (closeGaps (sampledGaps es)).length ≠ 0 ∧
      mean (closeGaps (sampledGaps es)) ≤ mean (sampledGaps es) ∧ sampleWidth es = maxWord := by
  intro es
  have hes : es.Pairwise (· ≤ ·) := by decide
  obtain ⟨hsum, -, -, htwo⟩ := sampleWidth_safe.1 es hes
  obtain ⟨-, hclose, hmean, hwidth⟩ := htwo (by decide)
  exact ⟨hes, by decide, hsum, hclose, hmean, hwidth.trans (by decide)⟩

/-- A gap that is far larger than the others is left out. -/
example :
    sampleWidth ([0, 10, 20, 30, 10000].map fun t => ⟨⟨Time.clamp t, 0⟩, 0⟩) = 30 := by
  decide

end Calendar

end EventKernel
