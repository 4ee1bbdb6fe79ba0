import Mathlib
import EventKernel.Proofs.Queue.Calendar.Width

/-!
# The position of the scan

Whatever was done to a calendar, its scan stands exactly on the day of the last key: on the bucket of
that day, and on the end of the day, which is saturated where it is no word. The year scan and the
direct search both find the least entry, of which there is one bucket and one day, so that where the
scan hits it finds what the search would find. Ends of days that are saturated on the way make no
difference, since no tick reaches the largest word.
-/

namespace EventKernel.Calendar

variable {c : Calendar} {i j top bottom : Nat}

/-- There is one bucket with the least entry at its head, and one end of its day. -/
lemma IsNext.unique (h : c.IsNext i top) (h' : c.IsNext j bottom) : i = j ∧ top = bottom := by
  obtain ⟨e, es, hes, hle, rfl, rfl⟩ := h
  obtain ⟨f, fs, hfs, hle', rfl, rfl⟩ := h'
  have he : e ∈ c.entries := mem_entries.mpr ⟨_, hes ▸ List.mem_cons_self⟩
  have hf : f ∈ c.entries := mem_entries.mpr ⟨_, hfs ▸ List.mem_cons_self⟩
  obtain rfl : e = f := le_antisymm (hle f hf) (hle' e he)
  exact ⟨rfl, rfl⟩

/-- Where the year scan hits, the direct search would find the same. -/
lemma Valid.searchAll_of_hit (h : c.Valid)
    (hs : c.scanYear c.bucketCount c.bucket c.top = some (i, top)) :
    c.searchAll = some (i, top) := by
  have hnext := h.isNext_of_hit hs
  cases hsearch : c.searchAll with
  | none =>
    obtain ⟨e, es, hes, -⟩ := hnext
    have he : e ∈ c.entries := mem_entries.mpr ⟨i, hes ▸ List.mem_cons_self⟩
    rw [h.entries_of_searchAll hsearch] at he
    simp at he
  | some p =>
    obtain ⟨rfl, rfl⟩ := hnext.unique (h.isNext_of_searchAll hsearch)
    rfl

/-- A calendar that looks in the right place, with a width that was sampled. -/
lemma valid_measured_after (n : Nat) (ops : List QueueOp) :
    ∃ c, (Queue.empty n .calendar).after ops = .calendar c ∧ c.Valid ∧ c.Measured :=
  Queue.calendar_after (fun e _ h => ⟨h.1.insert e, h.2.insert e⟩)
    (fun _ _ _ h hp => ⟨(h.1.of_pop? hp).2.2, h.2.of_pop? hp⟩)
    (fun _ _ _ h hr => ⟨(h.1.of_remove hr).2, h.2.of_remove hr⟩) ops
    ⟨valid_empty n, Or.inl rfl⟩

/-- Behind any operations the entries of a calendar are filed by their days and counted, no key comes
before the last one, and the scan stands on the day of the last key. Where the year scan then hits,
it has found the bucket and the end of the day that the direct search would find. -/
theorem scan_position (n : Nat) (ops : List QueueOp) :
    ∃ c, (Queue.empty n .calendar).after ops = .calendar c ∧
      1 ≤ c.width ∧ c.width ≤ maxWord ∧
      (∀ i, (c.entriesAt i).Pairwise (· ≤ ·)) ∧
      (∀ i, ∀ e ∈ c.entriesAt i, tick e / c.width % c.bucketCount = i) ∧
      c.size = c.entries.length ∧
      (∀ e ∈ c.entries, c.lastKey ≤ e.key) ∧
      c.bucket = tickOf c.lastKey.time / c.width % c.bucketCount ∧
      c.top = min maxWord ((tickOf c.lastKey.time / c.width + 1) * c.width) ∧
      ∀ i top, c.scanYear c.bucketCount c.bucket c.top = some (i, top) →
        c.searchAll = some (i, top) := by
  obtain ⟨c, hc, h, hmeasured⟩ := valid_measured_after n ops
  refine ⟨c, hc, h.width_pos, hmeasured.le_maxWord, h.pairwise, h.home, h.size_eq, h.lastKey_le,
    h.bucket_eq, ?_, fun i top => h.searchAll_of_hit⟩
  rw [h.top_eq, topAfter_eq_dayEnd h.width_pos, dayEnd]

/-- Days of the largest width: their ends are saturated from the first one on, and the scan hits. -/
theorem scan_position_largest_width :
    let ops : List QueueOp := [.insert ⟨⟨Time.least, 1⟩, 1⟩, .insert ⟨⟨Time.zero, 2⟩, 2⟩,
      .insert ⟨⟨Time.never, 3⟩, 3⟩, .pop]
    ∃ c, (Queue.empty 6 .calendar).after ops = .calendar c ∧ c.width = maxWord ∧
      c.scanYear c.bucketCount c.bucket c.top = some (0, maxWord) ∧
      c.searchAll = some (0, maxWord) := by
  intro ops
  obtain ⟨c, hc, -, -, -, -, -, -, -, -, hhit⟩ := scan_position 6 ops
  obtain ⟨d, hd, hwidth, hscan⟩ : ∃ d, (Queue.empty 6 .calendar).after ops = .calendar d ∧
      d.width = maxWord ∧ d.scanYear d.bucketCount d.bucket d.top = some (0, maxWord) :=
    ⟨_, rfl, by cbv, by cbv⟩
  rw [hc] at hd
  cases hd
  exact ⟨c, hc, hwidth, hscan, hhit 0 maxWord hscan⟩

end EventKernel.Calendar
