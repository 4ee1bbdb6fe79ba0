import EventKernel.Proofs.Reader.Threads

/-!
# Stopping among threads

A call of `stop` that finds the reader running returns behind the end of the thread, and a thread
that has ended does nothing ever after. But a call that finds the reader stopping returns at once:
the join is owned by another call, and the callback may still run. The stop flag is up by then, so
the thread delivers what it has begun with, and nothing more.
-/

namespace EventKernel

open Reader (Proceeds StopMoves)

variable {E : Type}

/-! ### The stop flag -/

/-- Whether the thread reads, or runs the callback on what it has read. -/
def ThreadStage.isDelivering : ThreadStage E → Bool
  | reading | calling _ => true
  | _ => false

lemma ThreadStage.isDelivering_of_isEnded {stage : ThreadStage E} (h : stage.isEnded = true) :
    stage.isDelivering = false := by
  cases stage with
  | ended => rfl
  | _ => cases h

/-- With the flag up, a thread that delivers nothing does not begin to. -/
lemma Reader.Proceeds.isDelivering {limit : Nat} {r : Reader E} {t t' : ReaderThread E}
    {d d' : Descriptor} {flag : Bool} {exit : Option ReaderExit}
    (h : Proceeds limit r t d t' flag exit d') (hflag : r.stopFlag = true)
    (ht : t.stage.isDelivering = false) : t'.stage.isDelivering = false := by
  cases h with
  | ready hstage hlow =>
    rw [hflag] at hlow
    cases hlow
  | read hstage | finish hstage | effect hstage | stop hstage | panic hstage =>
    rw [hstage] at ht
    cases ht
  | wait | barred | wake | pass | drain | crash | observe | reject | again | leave => rfl

lemma Reader.stopFlag_wake (r : Reader E) : r.wake.stopFlag = r.stopFlag := by
  rcases r.wake_cases with heq | ⟨t, -, heq⟩
  all_goals rw [heq]

namespace SharedReader

variable {a b : SharedReader E}

/-- The stop flag is up from the moment a call of `stop` goes on until the reader is idle again. -/
structure Flagged (a : SharedReader E) : Prop where
  held : ∀ stage ∈ a.reader.stops, stage.holdsLock = true → a.reader.stopFlag = true
  stopping : a.reader.state = .stopping → a.reader.stopFlag = true

lemma flagged_idle (bufferSize : Nat) (descriptors : String → Descriptor) :
    (idle bufferSize descriptors : SharedReader E).Flagged where
  held stage hmem := by cases hmem
  stopping h := by cases h

lemma Flagged.congr (h : a.Flagged)
    (hstops : ∀ stage ∈ b.reader.stops, stage.holdsLock = true → stage ∈ a.reader.stops)
    (hstate : b.reader.state = .stopping → a.reader.state = .stopping)
    (hflag : a.reader.stopFlag = true → b.reader.stopFlag = true) : b.Flagged :=
  ⟨fun stage hmem hlock => hflag (h.held stage (hstops stage hmem hlock) hlock),
    fun hstopping => hflag (h.stopping (hstate hstopping))⟩

lemma flagged_of_stopFlag (h : a.reader.stopFlag = true) : a.Flagged :=
  ⟨fun _ _ _ => h, fun _ => h⟩

/-- While the lock is free, or a call of `start` has it, no call of `stop` has it. -/
lemma Lawful.not_holdsLock (h : a.Lawful)
    (hfree : a.reader.locked = false ∨ 0 < a.starts.countP (·.stage.holdsLock)) :
    ∀ stage ∈ a.reader.stops, stage.holdsLock = false := by
  have hlock := h.balanced.lock
  have hzero : a.reader.stops.countP (·.holdsLock) = 0 := by
    rcases hfree with hfree | hpos
    · rw [hfree, Bool.toNat_false] at hlock
      omega
    · have hone := a.reader.locked.toNat_le
      omega
  intro stage hmem
  rw [← Bool.not_eq_true]
  exact List.countP_eq_zero.mp hzero stage hmem

lemma Flagged.stop (h : a.Flagged) (hlaw : a.Lawful) {i : Nat} {stage stage' : StopStage}
    {r : Reader E} (hi : a.reader.stops[i]? = some stage)
    (hmoves : StopMoves a.reader stage stage' r) (former : List (ReaderThread E)) :
    Flagged { a with reader := { r with stops := r.stops.set i stage' }, former } := by
  have hmem := List.mem_of_getElem? hi
  have hold : stage'.holdsLock = false →
      ∀ s ∈ a.reader.stops.set i stage', s.holdsLock = true → s ∈ a.reader.stops := by
    intro hstage' s hs hlock
    rcases List.mem_or_eq_of_mem_set hs with hs | rfl
    · exact hs
    · rw [hstage'] at hlock
      cases hlock
  cases hmoves with
  | pass | join => exact h.congr (hold rfl) id id
  | raise => exact flagged_of_stopFlag rfl
  | wake => exact flagged_of_stopFlag (a.reader.stopFlag_wake.trans (h.held _ hmem rfl))
  | claim => exact flagged_of_stopFlag (h.held _ hmem rfl)
  | settle hfree =>
    refine ⟨fun s hs hlock => ?_, fun hstate => by cases hstate⟩
    rw [hlaw.not_holdsLock (Or.inl hfree) s (hold rfl s hs hlock)] at hlock
    cases hlock

lemma Flagged.start (h : a.Flagged) (hlaw : a.Lawful) {j : Nat} {c : StartCall E}
    {stage : StartStage} (hj : a.starts[j]? = some c)
    (hmoves : StartMoves c.plan a c.stage stage b) :
    Flagged { b with starts := a.starts.set j { c with stage } } := by
  have hmem := List.mem_of_getElem? hj
  obtain ⟨plan, before⟩ := c
  cases hmoves with
  | refuse | enter | deny | register | clear | fail | launch =>
    exact h.congr (fun _ hs _ => hs) id id
  | lower =>
    -- the reader is idle and the lock is taken, so no call of `stop` relies on the flag
    have hpos : 0 < a.starts.countP (·.stage.holdsLock) := List.countP_pos_iff.mpr ⟨_, hmem, rfl⟩
    refine ⟨fun s hs hlock => ?_, fun hstate => ?_⟩
    · rw [hlaw.not_holdsLock (Or.inr hpos) s hs] at hlock
      cases hlock
    · rw [(hlaw.idle_of_start hmem rfl).2] at hstate
      cases hstate
  | publish => exact h.congr (fun _ hs _ => hs) (fun hstate => by cases hstate) id

lemma Flagged.outcome (h : a.Flagged) (hlaw : a.Lawful) {x : Action E} (ho : Outcome a x b) :
    b.Flagged := by
  cases ho with
  | stop hi hmoves => exact h.stop hlaw hi hmoves _
  | start hj hmoves => exact h.start hlaw hj hmoves
  | thread ht hproceeds =>
    obtain ⟨-, -, -, hflag⟩ := hproceeds.unchanged
    exact h.congr (fun _ hs _ => hs) id hflag
  | callStop =>
    refine h.congr (fun s hs hlock => ?_) id id
    rcases List.mem_append.mp hs with hs | hs
    · exact hs
    · obtain rfl := List.mem_singleton.mp hs
      cases hlock
  | idle | callStart | interrupt | openGate | write | close =>
    exact h.congr (fun _ hs _ => hs) id id

lemma flagged_play (bufferSize : Nat) (descriptors : String → Descriptor)
    (acts : List (Action E)) : (play acts (idle bufferSize descriptors)).Flagged := by
  suffices ∀ a : SharedReader E, a.Lawful → a.Flagged → (play acts a).Flagged from
    this _ (lawful_idle bufferSize descriptors) (flagged_idle bufferSize descriptors)
  induction acts with
  | nil => exact fun _ _ h => h
  | cons x acts ih =>
    exact fun a hlaw h => ih _ (hlaw.outcome (a.outcome_act x)) (h.outcome hlaw (a.outcome_act x))

/-! ### Threads that deliver nothing more -/

/-- The `n`-th thread delivers nothing, and will not: it has ended, or a call of `stop` waits for
it. -/
inductive Retired (a : SharedReader E) (n : Nat) : Prop where
  | ended {t : ReaderThread E} (hn : a.threads[n]? = some t) (hended : t.stage.isEnded = true)
  | stopping {t : ReaderThread E} (ht : a.reader.thread = some t) (hn : n = a.former.length)
      (hstate : a.reader.state = .stopping) (hstage : t.stage.isDelivering = false)

lemma Retired.isDelivering {n : Nat} (h : a.Retired n) {t : ReaderThread E}
    (hn : a.threads[n]? = some t) : t.stage.isDelivering = false := by
  cases h with
  | ended hn' hended =>
    obtain rfl := Option.some.inj (hn.symm.trans hn')
    exact ThreadStage.isDelivering_of_isEnded hended
  | stopping ht hn' hstate hstage =>
    obtain rfl := Option.some.inj (hn.symm.trans (getElem?_threads.mpr (Or.inr ⟨hn', ht⟩)))
    exact hstage

lemma Retired.of_ended {n : Nat} {t : ReaderThread E} (hn : a.threads[n]? = some t)
    (hended : t.stage.isEnded = true) {x : Action E} (ho : Outcome a x b) : b.Retired n := by
  obtain ⟨t', hn', hfollows⟩ := follows_outcome ho hn
  exact .ended hn' (hfollows.ended hended)

lemma Retired.stop {n : Nat} {t : ReaderThread E} (hlaw : a.Lawful)
    (ht : a.reader.thread = some t) (hn : n = a.former.length)
    (hstate : a.reader.state = .stopping) (hstage : t.stage.isDelivering = false) {i : Nat}
    {stage stage' : StopStage} {r : Reader E} (hi : a.reader.stops[i]? = some stage)
    (hmoves : StopMoves a.reader stage stage' r) :
    Retired { a with
      reader := { r with stops := r.stops.set i stage' }
      former := if r.thread.isNone then a.threads else a.former } n := by
  have hmem := List.mem_of_getElem? hi
  -- a call that goes on with the lock has found the reader running
  have hrunning : stage.holdsLock = true → a.reader.state = .running :=
    fun hlock => hlaw.balanced.running (List.countP_pos_iff.mpr ⟨_, hmem, hlock⟩)
  cases hmoves with
  | pass => exact .stopping ht (hn.trans (congrArg _ (former_of_isNone rfl).symm)) hstate hstage
  | raise hfree hstate' =>
    rw [hstate] at hstate'
    cases hstate'
  | wake | claim =>
    rw [hrunning rfl] at hstate
    cases hstate
  | join =>
    have hformer := former_of_isNone (a := a) (r := a.reader.hangUp) Option.isNone_map
    exact .stopping (congrArg (Option.map _) ht) (hn.trans (congrArg _ hformer.symm)) hstate hstage
  | settle =>
    have hended := Reader.threadEnded_eq_true_iff.mp (hlaw.reaped.joined hmem) t ht
    exact .ended (getElem?_threads.mpr (Or.inl (getElem?_threads.mpr (Or.inr ⟨hn, ht⟩)))) hended

lemma Retired.outcome {n : Nat} (h : a.Retired n) (hlaw : a.Lawful) (hflag : a.Flagged)
    {x : Action E} (ho : Outcome a x b) : b.Retired n := by
  cases h with
  | ended hn hended => exact .of_ended hn hended ho
  | stopping ht hn hstate hstage =>
    cases ho with
    | stop hi hmoves => exact .stop hlaw ht hn hstate hstage hi hmoves
    | @start j reply c stage b hj hmoves =>
      -- no call of `start` has the lock, for then the reader would be idle
      have hmem := List.mem_of_getElem? hj
      have hidle : c.stage.holdsLock = false := by
        rw [← Bool.not_eq_true]
        intro hlock
        rw [(hlaw.idle_of_start hmem hlock).2] at hstate
        cases hstate
      obtain ⟨plan, before⟩ := c
      cases hmoves with
      | refuse => exact .stopping ht hn hstate hstage
      | enter hfree hstate' =>
        rw [hstate] at hstate'
        cases hstate'
      | deny | register | lower | clear | fail | launch | publish => cases hidle
    | thread ht' hproceeds =>
      obtain rfl := Option.some.inj (ht.symm.trans ht')
      exact .stopping rfl hn hstate (hproceeds.isDelivering (hflag.stopping hstate) hstage)
    | interrupt => exact .stopping rfl hn hstate rfl
    | idle | callStop | callStart | openGate | write | close =>
      exact .stopping ht hn hstate hstage

lemma Retired.play {n : Nat} (h : a.Retired n) (hlaw : a.Lawful) (hflag : a.Flagged)
    (acts : List (Action E)) : (play acts a).Retired n := by
  induction acts generalizing a with
  | nil => exact h
  | cons x acts ih =>
    have ho := a.outcome_act x
    exact ih (h.outcome hlaw hflag ho) (hlaw.outcome ho) (hflag.outcome hlaw ho)

/-- While a call of `stop` waits for the thread, whichever thread delivers nothing is done. -/
lemma Lawful.retired (h : a.Lawful) (hstate : a.reader.state = .stopping) {n : Nat}
    {t : ReaderThread E} (hn : a.threads[n]? = some t) (hstage : t.stage.isDelivering = false) :
    a.Retired n := by
  rcases getElem?_threads.mp hn with hformer | ⟨hn, ht⟩
  · exact .ended hn (h.reaped.former t (List.mem_of_getElem? hformer))
  · exact .stopping ht hn hstate hstage

/-! ### What a call of `stop` is good for -/

/-- The last step of a call of `stop`. -/
lemma stopMoves_of_returned {x : Action E} (ho : Outcome a x b) {i : Nat} {stage : StopStage}
    (hi : a.reader.stops[i]? = some stage) (hstage : stage ≠ .returned)
    (hreturned : b.reader.stops[i]? = some .returned) :
    ∃ r, StopMoves a.reader stage .returned r ∧ b = { a with
      reader := { r with stops := r.stops.set i .returned }
      former := if r.thread.isNone then a.threads else a.former } := by
  have hkept : ¬a.reader.stops[i]? = some .returned := by
    rw [hi]
    exact fun h => hstage (Option.some.inj h)
  cases ho with
  | @stop j before after r hj hmoves =>
    obtain ⟨-, hstops, -⟩ := hmoves.unchanged
    rcases getElem?_set_cases (hstops ▸ hj) hreturned with ⟨rfl, rfl⟩ | h
    · obtain rfl := Option.some.inj (hj.symm.trans hi)
      exact ⟨r, hmoves, rfl⟩
    · exact absurd (hstops ▸ h) hkept
  | callStop =>
    refine absurd ?_ hkept
    rw [← hreturned]
    exact (List.getElem?_append_left (List.getElem?_eq_some_iff.mp hi).1).symm
  | start hj hmoves =>
    obtain ⟨-, hstops, -⟩ := hmoves.unchanged
    exact absurd (hstops ▸ hreturned) hkept
  | idle | callStart | thread | interrupt | openGate | write | close =>
    exact absurd hreturned hkept

lemma threads_of_returned {stage : StopStage} {r : Reader E}
    (hmoves : StopMoves a.reader stage .returned r) (stops : List StopStage) :
    threads { a with
      reader := { r with stops }
      former := if r.thread.isNone then a.threads else a.former } = a.threads := by
  cases hmoves with
  | pass =>
    rw [former_of_isNone rfl]
    rfl
  | settle => exact List.append_nil _

/-- A call of `stop` that returns behind the join, or finds the reader idle, has seen all threads
end. -/
lemma Lawful.ended_of_returned (h : a.Lawful) {i : Nat} {stage : StopStage} {r : Reader E}
    (hi : a.reader.stops[i]? = some stage) (hmoves : StopMoves a.reader stage .returned r)
    (hstate : stage = .arriving → a.reader.state ≠ .stopping) :
    ∀ t ∈ a.threads, t.stage.isEnded = true := by
  cases hmoves with
  | pass hfree hrunning =>
    refine h.ended_of_idle hfree ?_
    cases hidle : a.reader.state with
    | idle => rfl
    | running => exact absurd hidle hrunning
    | stopping => exact absurd hidle (hstate rfl)
  | settle => exact h.reaped.threads (h.reaped.joined (List.mem_of_getElem? hi))

/-- Behind a call of `stop` that has returned, all threads so far have ended for good, unless the
call came while another one was waiting for the thread. Such a call returns at once and changes
nothing: the other call owns the join, and the stop flag is up, so that a thread that is not yet
delivering, or has delivered, does not run the callback any more. -/
theorem stop_returns (bufferSize : Nat) (descriptors : String → Descriptor)
    (acts : List (Action E)) (x : Action E) (i : Nat) (stage : StopStage) :
    let a := play acts (idle bufferSize descriptors)
    let b := a.act x
    a.reader.stops[i]? = some stage → stage ≠ .returned → b.reader.stops[i]? = some .returned →
    if stage = .arriving ∧ a.reader.state = .stopping then
      b = { a with reader := { a.reader with stops := a.reader.stops.set i .returned } } ∧
      a.reader.stops.countP (·.ownsJoin) = 1 ∧ a.reader.stopFlag = true ∧
      ∀ (n : Nat) (t : ReaderThread E), b.threads[n]? = some t → t.stage.isDelivering = false →
        ∀ more (t' : ReaderThread E), (play more b).threads[n]? = some t' →
          t'.stage.isDelivering = false
    else ∀ n < b.threads.length, ∀ more,
      ∃ t, (play more b).threads[n]? = some t ∧ t.stage.isEnded = true := by
  intro a b hi hstage hreturned
  have hlaw : a.Lawful := (lawful_idle bufferSize descriptors).play acts
  have hflag : a.Flagged := flagged_play bufferSize descriptors acts
  have ho : Outcome a x b := a.outcome_act x
  obtain ⟨r, hmoves, hb⟩ := stopMoves_of_returned ho hi hstage hreturned
  split
  · next hlate =>
    obtain ⟨rfl, hstate⟩ := hlate
    cases hmoves with
    | pass =>
      rw [former_of_isNone rfl] at hb
      have hjoin := hlaw.balanced.join
      rw [if_pos hstate] at hjoin
      refine ⟨hb, hjoin, hflag.stopping hstate, fun n t hn hquiet more t' hn' => ?_⟩
      have hstopping : b.reader.state = .stopping := by
        rw [hb]
        exact hstate
      have hretired : b.Retired n := (hlaw.outcome ho).retired hstopping hn hquiet
      exact (hretired.play (hlaw.outcome ho) (hflag.outcome hlaw ho) more).isDelivering hn'
  · next hlate =>
    -- all threads have ended when the call returns, and each keeps its number
    intro n hn more
    have hended := hlaw.ended_of_returned hi hmoves fun h hstate => hlate ⟨h, hstate⟩
    have hthreads : b.threads = a.threads := by
      rw [hb]
      exact threads_of_returned hmoves _
    rw [← hthreads] at hended
    obtain ⟨t, ht, hfollows⟩ := follows_play more (List.getElem?_eq_getElem hn)
    exact ⟨t, ht, hfollows.ended (hended _ (List.getElem_mem hn))⟩

/-- A thread runs a callback that waits, and a call of `stop` waits for the thread. -/
def joinBehindGate : List (Action Unit) :=
  .callStart { target := "p", callback := fun _ => [.awaitGate] } ::
    List.replicate 6 (.start 0 (.granted none)) ++
    .write "p" [97, 98] :: List.replicate 5 (.thread 2 false) ++
    .callStop :: List.replicate 3 (.stop 0)

/-- The gate is opened, the thread ends, and the call of `stop` returns. -/
theorem stop_returns_behind_gate :
    let a := play (joinBehindGate ++ .openGate :: List.replicate 7 (.thread 2 false) ++ [.stop 0])
      (idle 2 fun _ => .pipe {})
    let b := a.act (.stop 0)
    a.reader.stops = [.joined] ∧ b.reader.stops = [.returned] ∧
      ∀ more, ∃ t, (play more b).threads[0]? = some t ∧ t.stage.isEnded = true := by
  have h := stop_returns 2 (fun _ => .pipe {})
    (joinBehindGate ++ .openGate :: List.replicate 7 (.thread 2 false) ++ [.stop 0]) (.stop 0) 0
    .joined (by decide +kernel) (by decide) (by decide +kernel)
  rw [if_neg (by decide +kernel)] at h
  exact ⟨by decide +kernel, by decide +kernel, h 0 (by decide +kernel)⟩

/-- A second call of `stop` comes while the first one waits for the thread. It returns, and the
callback still runs. -/
theorem callback_runs_after_stop :
    let a := play (joinBehindGate ++ [.callStop]) (idle 2 fun _ => .pipe {})
    let b := a.act (.stop 1)
    a.reader.stops = [.joining, .arriving] ∧ b.reader.stops = [.joining, .returned] ∧
      b.threads.map (·.stage.isCalling) = [true] := by
  decide +kernel

end SharedReader

end EventKernel
