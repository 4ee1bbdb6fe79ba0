import EventKernel.Proofs.Reader.Lifecycle

/-!
# Threads in the course of a run

A thread keeps its number, its plan and the size of its buffer, and does not come back to its loop
or to life. The thread of a reader was its thread before, or a call of `start` has just made it;
calls change little else.
-/

namespace EventKernel

open Reader (Proceeds StopMoves)

variable {E : Type}

/-! ### What calls leave as it is -/

/-- What a call of `stop` leaves as it is. -/
lemma Reader.StopMoves.unchanged {r r' : Reader E} {stage stage' : StopStage}
    (h : StopMoves r stage stage' r') :
    r'.bufferSize = r.bufferSize ∧ r'.stops = r.stops ∧ r'.exit = r.exit := by
  cases h with
  | wake =>
    rcases r.wake_cases with heq | ⟨t, -, heq⟩
    all_goals
      rw [heq]
      exact ⟨rfl, rfl, rfl⟩
  | pass | raise | claim | join | settle => exact ⟨rfl, rfl, rfl⟩

/-- A call of `stop` changes nothing of a thread but its wake-pipe. -/
lemma Reader.StopMoves.thread {r r' : Reader E} {stage stage' : StopStage}
    (h : StopMoves r stage stage' r') {t' : ReaderThread E} (ht' : r'.thread = some t') :
    ∃ t wakePipe, r.thread = some t ∧ t' = { t with wakePipe } := by
  cases h with
  | pass | raise | claim => exact ⟨t', _, ht', rfl⟩
  | wake =>
    rcases r.wake_cases with heq | ⟨t, ht, heq⟩
    · rw [heq] at ht'
      exact ⟨t', _, ht', rfl⟩
    · rw [heq] at ht'
      cases ht'
      exact ⟨t, _, ht, rfl⟩
  | join =>
    obtain ⟨t, ht, rfl⟩ := Option.map_eq_some_iff.mp ht'
    exact ⟨t, _, ht, rfl⟩
  | settle => cases ht'

namespace SharedReader

variable {a b : SharedReader E}

/-- What a call of `start` leaves as it is. -/
lemma StartMoves.unchanged {plan : ReadPlan E} {stage stage' : StartStage}
    (h : StartMoves plan a stage stage' b) : b.reader.bufferSize = a.reader.bufferSize ∧
      b.reader.stops = a.reader.stops ∧ b.descriptors = a.descriptors := by
  cases h <;> exact ⟨rfl, rfl, rfl⟩

lemma bufferSize_outcome {x : Action E} (ho : Outcome a x b) :
    b.reader.bufferSize = a.reader.bufferSize := by
  cases ho with
  | stop hi hmoves => exact hmoves.unchanged.1
  | start hj hmoves => exact hmoves.unchanged.1
  | idle | callStop | callStart | thread | interrupt | openGate | write | close => rfl

/-- No call of `start` is for another plan than before. -/
lemma plan_of_start {x : Action E} (ho : Outcome a x b) {c : StartCall E} (hc : c ∈ b.starts) :
    (∃ c' ∈ a.starts, c'.plan = c.plan) ∨ x = .callStart c.plan := by
  cases ho with
  | callStart plan =>
    rcases List.mem_append.mp hc with hc | hc
    · exact Or.inl ⟨c, hc, rfl⟩
    · obtain rfl := List.mem_singleton.mp hc
      exact Or.inr rfl
  | @start j reply d stage b hj hmoves =>
    rcases List.mem_or_eq_of_mem_set hc with hc | rfl
    · exact Or.inl ⟨c, hc, rfl⟩
    · exact Or.inl ⟨d, List.mem_of_getElem? hj, rfl⟩
  | stop | idle | callStop | thread | interrupt | openGate | write | close =>
    exact Or.inl ⟨c, hc, rfl⟩

end SharedReader

/-! ### What becomes of a thread -/

/-- A thread becomes another one in the course of a run. -/
structure Follows (t t' : ReaderThread E) : Prop where
  plan : t'.plan = t.plan
  size : t'.buffer.size = t.buffer.size
  left : t.stage.isLooping = false → t'.stage.isLooping = false
  ended : t.stage.isEnded = true → t'.stage.isEnded = true

namespace Follows

lemma refl (t : ReaderThread E) : Follows t t := ⟨rfl, rfl, id, id⟩

lemma trans {t u v : ReaderThread E} (h : Follows t u) (h' : Follows u v) : Follows t v :=
  ⟨h'.plan.trans h.plan, h'.size.trans h.size, h'.left ∘ h.left, h'.ended ∘ h.ended⟩

lemma wakePipe (t : ReaderThread E) (wakePipe : WakePipe) : Follows t { t with wakePipe } :=
  ⟨rfl, rfl, id, id⟩

lemma interrupted {t : ReaderThread E} (hstage : t.stage = .waiting) :
    Follows t { t with stage := .polling } := by
  refine ⟨rfl, rfl, fun h => ?_, fun h => ?_⟩
  all_goals
    rw [hstage] at h
    cases h

end Follows

lemma Reader.Proceeds.follows {limit : Nat} {r : Reader E} {t t' : ReaderThread E}
    {d d' : Descriptor} {flag : Bool} {exit : Option ReaderExit}
    (h : Proceeds limit r t d t' flag exit d') : Follows t t' := by
  obtain ⟨hended, hlooping⟩ := h.stage
  obtain ⟨hplan, hsize, -, -⟩ := h.unchanged
  refine ⟨hplan, hsize, fun hleft => ?_, fun h => ?_⟩
  · rw [← Bool.not_eq_true]
    intro hlooping'
    rw [hlooping hlooping'] at hleft
    cases hleft
  · rw [hended] at h
    cases h

namespace SharedReader

variable {a b : SharedReader E}

lemma getElem?_threads {n : Nat} {t : ReaderThread E} :
    a.threads[n]? = some t ↔
      a.former[n]? = some t ∨ n = a.former.length ∧ a.reader.thread = some t := by
  rw [threads, List.getElem?_append]
  split
  · next hlt => simp [Nat.ne_of_lt hlt]
  · next hge =>
    rw [List.getElem?_eq_none (Nat.le_of_not_lt hge)]
    cases a.reader.thread with
    | none => simp
    | some u =>
      rw [Option.toList_some, List.getElem?_singleton]
      split
      · next h => simp [show n = a.former.length by omega]
      · next h => simp [show n ≠ a.former.length by omega]

/-- The reader keeps its thread, or brings it further. -/
lemma follows_of_thread {n : Nat} {t : ReaderThread E} (hn : a.threads[n]? = some t)
    (hformer : b.former = a.former)
    (hthread : ∀ u, a.reader.thread = some u → ∃ u', b.reader.thread = some u' ∧ Follows u u') :
    ∃ t', b.threads[n]? = some t' ∧ Follows t t' := by
  rcases getElem?_threads.mp hn with hn | ⟨rfl, ht⟩
  · exact ⟨t, getElem?_threads.mpr (Or.inl (hformer ▸ hn)), .refl t⟩
  · obtain ⟨t', ht', hfollows⟩ := hthread t ht
    exact ⟨t', getElem?_threads.mpr (Or.inr ⟨hformer ▸ rfl, ht'⟩), hfollows⟩

lemma follows_stop {stage stage' : StopStage} {r : Reader E}
    (hmoves : StopMoves a.reader stage stage' r) {n : Nat} {t : ReaderThread E}
    (hn : a.threads[n]? = some t) (stops : List StopStage) :
    ∃ t', (threads { a with
      reader := { r with stops }
      former := if r.thread.isNone then a.threads else a.former })[n]? = some t' ∧
      Follows t t' := by
  cases hmoves with
  | pass | raise | claim =>
    exact follows_of_thread hn (former_of_isNone rfl) fun u hu => ⟨u, hu, .refl u⟩
  | wake =>
    rcases a.reader.wake_cases with heq | ⟨t, ht, heq⟩
    · rw [heq]
      exact follows_of_thread hn (former_of_isNone rfl) fun u hu => ⟨u, hu, .refl u⟩
    · rw [heq]
      refine follows_of_thread hn rfl fun u hu => ?_
      obtain rfl := Option.some.inj (ht.symm.trans hu)
      exact ⟨_, rfl, .wakePipe t _⟩
  | join =>
    refine follows_of_thread hn (former_of_isNone Option.isNone_map) fun u hu => ?_
    exact ⟨_, congrArg (Option.map _) hu, .wakePipe u _⟩
  | settle => exact ⟨t, getElem?_threads.mpr (Or.inl hn), .refl t⟩

lemma follows_start {plan : ReadPlan E} {stage stage' : StartStage}
    (hmoves : StartMoves plan a stage stage' b) {n : Nat} {t : ReaderThread E}
    (hn : a.threads[n]? = some t) : ∃ t', b.threads[n]? = some t' ∧ Follows t t' := by
  cases hmoves with
  | refuse | enter | deny | register | lower | clear | fail | publish => exact ⟨t, hn, .refl t⟩
  | launch => exact ⟨t, getElem?_threads.mpr (Or.inl hn), .refl t⟩

/-- Each thread keeps its number. -/
lemma follows_outcome {x : Action E} (ho : Outcome a x b) {n : Nat} {t : ReaderThread E}
    (hn : a.threads[n]? = some t) : ∃ t', b.threads[n]? = some t' ∧ Follows t t' := by
  cases ho with
  | stop hi hmoves => exact follows_stop hmoves hn _
  | start hj hmoves => exact follows_start hmoves hn
  | thread ht hproceeds =>
    refine follows_of_thread hn rfl fun u hu => ?_
    obtain rfl := Option.some.inj (ht.symm.trans hu)
    exact ⟨_, rfl, hproceeds.follows⟩
  | interrupt ht hstage =>
    refine follows_of_thread hn rfl fun u hu => ⟨_, rfl, ?_⟩
    obtain rfl := Option.some.inj (ht.symm.trans hu)
    exact .interrupted hstage
  | idle | callStop | callStart | openGate | write | close => exact ⟨t, hn, .refl t⟩

lemma follows_play (acts : List (Action E)) {n : Nat} {t : ReaderThread E}
    (hn : a.threads[n]? = some t) : ∃ t', (play acts a).threads[n]? = some t' ∧ Follows t t' := by
  induction acts generalizing a t with
  | nil => exact ⟨t, hn, .refl t⟩
  | cons x acts ih =>
    obtain ⟨u, hu, hfollows⟩ := follows_outcome (a.outcome_act x) hn
    obtain ⟨v, hv, hfollows'⟩ := ih hu
    exact ⟨v, hv, hfollows.trans hfollows'⟩

lemma length_threads_le_play (a : SharedReader E) (acts : List (Action E)) :
    a.threads.length ≤ (play acts a).threads.length := by
  refine Nat.le_of_not_lt fun hlt => ?_
  obtain ⟨t', ht', -⟩ := follows_play acts (List.getElem?_eq_getElem hlt)
  rw [List.getElem?_eq_none (Nat.le_refl _)] at ht'
  cases ht'

/-- Where the thread of a reader comes from: it was there, or a call of `start` has made it. -/
lemma origin_of_thread {x : Action E} (ho : Outcome a x b) {t' : ReaderThread E}
    (ht' : b.reader.thread = some t') :
    (∃ t, a.reader.thread = some t ∧ Follows t t') ∨
      ∃ c ∈ a.starts, c.stage = .cleared ∧
        t' = { plan := c.plan, buffer := { size := a.reader.bufferSize } } := by
  have hkept : a.reader.thread = some t' → ∃ t, a.reader.thread = some t ∧ Follows t t' :=
    fun ht => ⟨t', ht, .refl t'⟩
  cases ho with
  | stop hi hmoves =>
    obtain ⟨t, wakePipe, ht, rfl⟩ := hmoves.thread ht'
    exact Or.inl ⟨t, ht, .wakePipe t wakePipe⟩
  | @start j reply c stage b hj hmoves =>
    have hmem := List.mem_of_getElem? hj
    obtain ⟨plan, before⟩ := c
    cases hmoves with
    | launch =>
      cases ht'
      exact Or.inr ⟨_, hmem, rfl, rfl⟩
    | refuse | enter | deny | register | lower | clear | fail | publish =>
      exact Or.inl (hkept ht')
  | thread ht hproceeds =>
    cases ht'
    exact Or.inl ⟨_, ht, hproceeds.follows⟩
  | interrupt ht hstage =>
    cases ht'
    exact Or.inl ⟨_, ht, .interrupted hstage⟩
  | idle | callStop | callStart | openGate | write | close => exact Or.inl (hkept ht')

end SharedReader

end EventKernel
