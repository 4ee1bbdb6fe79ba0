import EventKernel.Proofs.Fleet.View
import EventKernel.Proofs.Reader.Threads

/-!
# Waiting for readers

The thread that drives a fleet makes one call of `stop` at a time, and does nothing else until it
has returned. Meanwhile nobody can start the reader, so it is idle when the call returns.
-/

namespace EventKernel

open Reader (StopMoves)

variable {K E V : Type}

/-! ### Readers with one call at a time -/

namespace Reader

variable {call : Option Nat} {r : Reader E}

/-- Of the calls of `stop`, only `call` may not have returned; and if it has, the reader is idle. An
idle reader has no thread. -/
structure SoleStop (call : Option Nat) (r : Reader E) : Prop where
  parted : r.state = .idle → r.thread = none
  balance : Balance r.locked r.state (r.stops.countP (·.holdsLock)) 0 (r.stops.countP (·.ownsJoin))
  others : ∀ n stage, r.stops[n]? = some stage → stage ≠ .returned → call = some n
  settled : ∀ n, call = some n → r.stops[n]? = some .returned → r.state = .idle

lemma soleStop_create (bufferSize : Nat) : (create bufferSize : Reader E).SoleStop none where
  parted _ := rfl
  balance := ⟨rfl, rfl, fun hpos => (Nat.lt_irrefl 0 hpos).elim, fun _ => rfl⟩
  others n stage hn := by simp [create] at hn
  settled n hcall := by cases hcall

/-- No call is under way. -/
lemma SoleStop.countP_eq_zero (h : r.SoleStop none) {p : StopStage → Bool}
    (hp : p .returned = false) : r.stops.countP p = 0 := by
  rw [List.countP_eq_zero]
  intro stage hstage
  obtain ⟨n, hn⟩ := List.mem_iff_getElem?.mp hstage
  by_cases hreturned : stage = .returned
  · simp [hreturned, hp]
  · cases h.others n stage hn hreturned

lemma SoleStop.state_ne_stopping (h : r.SoleStop none) : r.state ≠ .stopping := by
  intro hstate
  have hjoin := h.balance.join
  rw [h.countP_eq_zero rfl, if_pos hstate] at hjoin
  cases hjoin

lemma SoleStop.callStop (h : r.SoleStop none) : r.callStop.SoleStop (some r.stops.length) where
  parted := h.parted
  balance := by
    refine h.balance.congr ?_ rfl ?_
    · exact List.countP_append
    · exact List.countP_append
  others n stage hn hreturned := by
    rw [Reader.callStop, List.getElem?_append] at hn
    split at hn
    · cases h.others n stage hn hreturned
    · rw [List.getElem?_singleton] at hn
      split at hn
      · congr
        omega
      · cases hn
  settled n hn hreturned := by
    obtain rfl := Option.some.inj hn
    rw [Reader.callStop, List.getElem?_concat_length] at hreturned
    cases hreturned

/-- The call that was waited for has returned. -/
lemma SoleStop.returned {n : Nat} (h : r.SoleStop (some n))
    (hn : r.stops[n]? = some .returned) : r.SoleStop none ∧ r.state = .idle := by
  refine ⟨⟨h.parted, h.balance, ?_, fun k hk => by cases hk⟩, h.settled n rfl hn⟩
  intro k stage hk hreturned
  obtain rfl := Option.some.inj (h.others k stage hk hreturned)
  exact absurd (Option.some.inj (hk.symm.trans hn)) hreturned

/-- A reader that is started has an own thread. -/
lemma SoleStop.spawn (h : r.SoleStop none) (plan : ReadPlan E)
    (teardown : Option (Nat × EventId)) :
    (({ r with teardown } : Reader E).spawn plan).SoleStop none where
  parted hidle := by cases hidle
  balance := by
    have hlock : r.stops.countP (·.holdsLock) + 0 = r.locked.toNat := h.balance.lock
    have hjoin : r.stops.countP (·.ownsJoin) = 0 := h.countP_eq_zero rfl
    exact ⟨hlock, hjoin, fun _ => rfl, fun hpos => (Nat.lt_irrefl 0 hpos).elim⟩
  others := h.others
  settled n hn := by cases hn

lemma SoleStop.forgo (h : r.SoleStop none) (new : Reader E) : (new.forgo r).SoleStop none :=
  ⟨h.parted, h.balance, h.others, h.settled⟩

lemma thread_updateThread (h : r.thread = none) (update : ReaderThread E → ReaderThread E) :
    (r.updateThread update).thread = none := by
  rw [updateThread, h]
  rfl

/-- A call of `stop` does not leave a thread with an idle reader. -/
lemma StopMoves.parted {stage stage' : StopStage} {r' : Reader E} (h : StopMoves r stage stage' r')
    (hparted : r.state = .idle → r.thread = none) : r'.state = .idle → r'.thread = none := by
  cases h with
  | wake =>
    rcases r.wake_cases with heq | ⟨t, ht, heq⟩
    · rw [heq]
      exact hparted
    · rw [heq]
      intro hidle
      rw [hparted hidle] at ht
      cases ht
  | claim => exact fun hidle => by cases hidle
  | join => exact fun hidle => thread_updateThread (hparted hidle) _
  | settle => exact fun _ => rfl
  | pass | raise => exact hparted

lemma StopMoves.kept {stage stage' : StopStage} {r' : Reader E} (h : StopMoves r stage stage' r') :
    r'.teardown = r.teardown ∧ (r'.state = .running → r.state = .running) := by
  cases h with
  | wake =>
    rcases r.wake_cases with heq | ⟨t, -, heq⟩
    all_goals
      rw [heq]
      exact ⟨rfl, id⟩
  | claim => exact ⟨rfl, fun hstate => by cases hstate⟩
  | settle => exact ⟨rfl, fun hstate => by cases hstate⟩
  | pass | raise | join => exact ⟨rfl, id⟩

/-- The call that is waited for goes on. -/
lemma SoleStop.stop {a : SharedReader E} (h : a.reader.SoleStop call) (hstarts : a.starts = [])
    {n : Nat} {stage stage' : StopStage} {r : Reader E} (hn : a.reader.stops[n]? = some stage)
    (hmoves : StopMoves a.reader stage stage' r) :
    SoleStop call { r with stops := r.stops.set n stage' } := by
  have hbalanced : a.Balanced := by
    rw [SharedReader.Balanced, hstarts]
    exact h.balance
  have hstops := hmoves.unchanged.2.1
  have hcall : call = some n := by
    refine h.others n stage hn ?_
    rintro rfl
    cases hmoves
  have hbalance := hbalanced.stop hn hmoves []
  rw [SharedReader.Balanced, hstarts] at hbalance
  refine ⟨hmoves.parted h.parted, hbalance, ?_, ?_⟩
  · intro k stage'' hk hreturned
    by_cases hkn : n = k
    · rw [hcall, hkn]
    · rw [List.getElem?_set_ne hkn, hstops] at hk
      exact h.others k stage'' hk hreturned
  · intro k hk hreturned
    obtain rfl : n = k := Option.some.inj (hcall.symm.trans hk)
    have hlt : n < r.stops.length := by
      rw [hstops]
      exact (List.getElem?_eq_some_iff.mp hn).1
    rw [List.getElem?_set_self hlt] at hreturned
    obtain rfl := Option.some.inj hreturned
    cases hmoves with
    | settle => rfl
    | pass hfree hstate =>
      -- who owned the join would be another call that has not returned
      cases hidle : a.reader.state with
      | idle => rfl
      | running => exact absurd hidle hstate
      | stopping =>
        have hjoin := h.balance.join
        rw [hidle, if_pos rfl] at hjoin
        obtain ⟨stage, hmem, howns⟩ := List.countP_pos_iff.mp (hjoin ▸ Nat.one_pos)
        obtain ⟨m, hm⟩ := List.mem_iff_getElem?.mp hmem
        have hother := h.others m stage hm (by rintro rfl; cases howns)
        obtain rfl : n = m := Option.some.inj (hcall.symm.trans hother)
        rw [hn] at hm
        obtain rfl := Option.some.inj hm
        cases howns

/-- Other actors of a reader neither start it nor change its teardown event. -/
lemma SoleStop.outcome {a b : SharedReader E} {x : SharedReader.Action E}
    (h : a.reader.SoleStop call) (hstarts : a.starts = []) (hcall : x ≠ .callStop)
    (ho : SharedReader.Outcome a x b) :
    b.reader.SoleStop call ∧ b.reader.teardown = a.reader.teardown ∧
      (b.reader.state = .running → a.reader.state = .running) ∧
      (call = none → b.reader.state = a.reader.state ∧ b.reader.target = a.reader.target ∧
        b.reader.stops = a.reader.stops) := by
  cases ho with
  | callStop => exact absurd rfl hcall
  | start hj =>
    rw [hstarts] at hj
    simp at hj
  | @stop n stage stage' r' hn hmoves =>
    obtain ⟨hteardown, hrunning⟩ := hmoves.kept
    refine ⟨h.stop hstarts hn hmoves, hteardown, hrunning, ?_⟩
    rintro rfl
    cases h.others n stage hn (by rintro rfl; cases hmoves)
  | idle | callStart | write | close => exact ⟨h, rfl, id, fun _ => ⟨rfl, rfl, rfl⟩⟩
  | thread ht | interrupt ht =>
    -- a reader with a thread is not idle
    refine ⟨⟨fun hidle => ?_, h.balance, h.others, h.settled⟩, rfl, id, fun _ => ⟨rfl, rfl, rfl⟩⟩
    rw [h.parted hidle] at ht
    cases ht
  | openGate =>
    exact ⟨⟨h.parted, h.balance, h.others, h.settled⟩, rfl, id, fun _ => ⟨rfl, rfl, rfl⟩⟩

end Reader

/-! ### The call that is waited for -/

namespace Fleet

variable {c : FleetCode K E V} {f g : Fleet K E V} {mv : Move K E V}

/-- The reader that is to be stopped next. -/
def stopping? (f : Fleet K E V) : Option Nat :=
  match f.runs with
  | (_, .task (.user (.deed (.stop r))) :: _) :: _ => some r
  | _ => none

/-- The call of `stop` of the reader `r` that the thread waits for. -/
def call? (r : Nat) (f : Fleet K E V) : Option Nat :=
  if f.stopping? = some r then f.awaited else none

/-- The thread waits for the only call of `stop` that has not returned. -/
structure Attends (f : Fleet K E V) : Prop where
  sole : ∀ r, (f.readers r).SoleStop (f.call? r)
  awaits : f.stopping? = none → f.awaited = none

lemma stopping?_of_deed {i : Nat} {frame : Frame (Job K E) V} {frames : List (Frame (Job K E) V)}
    {rest : List (Nat × List (Frame (Job K E) V))} (hruns : f.runs = (i, frame :: frames) :: rest)
    (hframe : ∀ r, frame.deed? ≠ some (.stop r)) : f.stopping? = none := by
  rw [stopping?, hruns]
  split
  · next r _ _ heq =>
    obtain ⟨heq, -⟩ := List.cons.inj heq
    obtain ⟨-, heq⟩ := Prod.mk.inj heq
    obtain ⟨rfl, -⟩ := List.cons.inj heq
    exact absurd rfl (hframe r)
  · rfl

lemma call?_of_not_awaited (h : f.awaited = none) (r : Nat) : f.call? r = none := by
  rw [call?, h, ite_self]

lemma stopping?_of_stop {i r : Nat} {frames : List (Frame (Job K E) V)}
    {rest : List (Nat × List (Frame (Job K E) V))}
    (hruns : f.runs = (i, .task (.user (.deed (.stop r))) :: frames) :: rest) :
    f.stopping? = some r := by
  rw [stopping?, hruns]

lemma attends_empty (bufferSize : Nat → Nat) (descriptors : String → Descriptor) (user : V) :
    (empty bufferSize descriptors user : Fleet K E V).Attends where
  sole r := Reader.soleStop_create (bufferSize r)
  awaits _ := rfl

lemma attends_of_not_awaited (hnone : f.awaited = none)
    (hsole : ∀ r, (f.readers r).SoleStop none) : f.Attends where
  sole r := by
    rw [call?_of_not_awaited hnone]
    exact hsole r
  awaits _ := hnone

lemma Attends.sole_none (ha : f.Attends) (h : f.awaited = none) (r : Nat) :
    (f.readers r).SoleStop none := by
  have hsole := ha.sole r
  rwa [call?_of_not_awaited h] at hsole

/-- A start comes to a reader without calls under way. -/
lemma Attends.start (ha : f.Attends) (hnone : f.awaited = none) {i r : Nat} {plan : ReadPlan E}
    {s t : Simulator (Job K E)} {answer : Except StartError PUnit} {new : Reader E}
    (hstarts : (f.readers r).StartsOn (.deed (.stop r)) plan s answer new t)
    (hg : g.readers = f.readers) (hawaited : g.awaited = f.awaited) :
    (g.afterStart c r i new answer).Attends := by
  obtain ⟨hsame, -, hcases⟩ := afterStart_cases c r i new g answer
  refine attends_of_not_awaited (hsame.trans (hawaited.trans hnone)) fun q => ?_
  have hq := ha.sole_none hnone q
  rcases hcases with ⟨e, -, hreaders, -⟩ | ⟨rfl, ⟨hreaders, -⟩ | ⟨hreaders, -⟩⟩
  · rw [hreaders, hg]
    exact hq
  · rw [hreaders, hg, Function.update_apply]
    split
    · exact (ha.sole_none hnone r).forgo new
    · exact hq
  · rw [hreaders, hg, Function.update_apply]
    split
    · cases hstarts with
      | kept | renewed => exact (ha.sole_none hnone r).spawn plan _
    · exact hq

lemma Attends.outcome (ha : f.Attends) (ho : Outcome c f mv g) : g.Attends := by
  cases ho with
  | idle => exact ha
  | add | remote | forbid => exact ⟨ha.sole, ha.awaits⟩
  | finish hruns =>
    have hnone := ha.awaits (by rw [stopping?, hruns])
    exact attends_of_not_awaited hnone (ha.sole_none hnone)
  | advance hruns hdeed =>
    have hnone := ha.awaits (stopping?_of_deed hruns (by simp [hdeed]))
    exact attends_of_not_awaited hnone (ha.sole_none hnone)
  | starts hruns hs hstarts =>
    have hnone := ha.awaits (stopping?_of_deed hruns (by simp [Frame.deed?]))
    exact ha.start hnone hstarts rfl rfl
  | look hruns =>
    have hnone := ha.awaits (stopping?_of_deed hruns (by simp [Frame.deed?]))
    exact attends_of_not_awaited hnone (ha.sole_none hnone)
  | drive hruns =>
    have hnone := ha.awaits (stopping?_of_deed hruns (by simp [Frame.deed?]))
    rw [drive_unchanged]
    exact attends_of_not_awaited hnone (ha.sole_none hnone)
  | enter i update p hruns =>
    have hnone := ha.awaits (by rw [stopping?, hruns])
    rw [drive_unchanged]
    exact attends_of_not_awaited hnone (ha.sole_none hnone)
  | @calls i r frames rest hruns hnone =>
    have hstopping := stopping?_of_stop hruns
    constructor
    · intro q
      have hq := ha.sole_none hnone q
      show (Function.update f.readers r (f.readers r).callStop q).SoleStop
        (if f.stopping? = some q then some (f.readers r).stops.length else none)
      rw [hstopping, Function.update_apply]
      by_cases hqr : q = r
      · rw [if_pos hqr, if_pos (congrArg some hqr.symm)]
        exact (ha.sole_none hnone r).callStop
      · rw [if_neg hqr, if_neg fun heq => hqr (Option.some.inj heq).symm]
        exact hq
    · intro hnot
      cases hstopping.symm.trans hnot
  | @returns i r n frames rest hruns hn hreturned =>
    refine attends_of_not_awaited rfl fun q => ?_
    have hq := ha.sole q
    rw [call?, stopping?_of_stop hruns, hn] at hq
    split at hq
    · next heq =>
      obtain rfl := Option.some.inj heq
      exact (hq.returned hreturned).1
    · exact hq
  | @reader r x b hcall hx =>
    constructor
    · intro q
      show (Function.update f.readers r b.reader q).SoleStop (f.call? q)
      rw [Function.update_apply]
      split
      · next hqr =>
        subst hqr
        exact ((ha.sole q).outcome rfl hcall hx).1
      · exact ha.sole q
    · exact ha.awaits

end Fleet

end EventKernel
