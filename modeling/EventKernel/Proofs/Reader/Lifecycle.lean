import EventKernel.Proofs.Reader.Shared

/-!
# The life of reader threads

At most one thread of a reader is alive. The lock admits one call at a time, and what the reader is
found to be under the lock stays so: a call of `stop` that goes on with the lock has found it
running, a call of `start` has found it idle. Idle means that the latest thread has ended, except
between the making of a thread and the moment the reader knows it; and then `start` has the lock.

The call of `stop` that claims the join is the only one to give the thread up, and does so only
behind its end. So nobody closes the write end of its wake-pipe while the thread is in its loop.
-/

namespace EventKernel

open Reader (Proceeds StopMoves)

variable {E : Type}

/-- An entry of a list changes, and with it a count. -/
lemma countP_set_add {α : Type} {p : α → Bool} {l : List α} {i : Nat} {x : α}
    (hi : l[i]? = some x) (y : α) :
    (l.set i y).countP p + (p x).toNat = l.countP p + (p y).toNat := by
  induction l generalizing i with
  | nil => cases hi
  | cons z l ih =>
    cases i with
    | zero =>
      obtain rfl : z = x := Option.some.inj hi
      rw [List.set_cons_zero, List.countP_cons, List.countP_cons]
      cases p z <;> cases p y <;> simp
    | succ i =>
      have ih := ih hi
      rw [List.set_cons_succ, List.countP_cons, List.countP_cons]
      omega

/-- Of what is counted once there is only one kind. -/
lemma eq_of_countP_le_one {α : Type} {p : α → Bool} {l : List α} (hl : l.countP p ≤ 1) {x y : α}
    (hx : x ∈ l) (hy : y ∈ l) (hpx : p x = true) (hpy : p y = true) : x = y := by
  induction l with
  | nil => cases hx
  | cons z l ih =>
    have hpos : ∀ {w}, w ∈ l → p w = true → p z = true → False := by
      intro w hw hpw hpz
      have hcount := List.countP_pos_iff.mpr ⟨w, hw, hpw⟩
      rw [List.countP_cons_of_pos hpz] at hl
      omega
    rcases List.mem_cons.mp hx with rfl | hxl
    · rcases List.mem_cons.mp hy with rfl | hyl
      · rfl
      · exact (hpos hyl hpy hpx).elim
    · rcases List.mem_cons.mp hy with rfl | hyl
      · exact (hpos hxl hpx hpy).elim
      · rw [List.countP_cons] at hl
        exact ih (by omega) hxl hyl

/-! ### The lock and the join -/

/-- One call has the lock at a time, and goes on with what it has found; and one call of `stop` owns
the join exactly while the reader is stopping. Of the calls of `stop` and of `start`, `n` and `m`
have the lock, and `k` own the join. -/
structure Balance (locked : Bool) (state : ReaderState) (n m k : Nat) : Prop where
  lock : n + m = locked.toNat
  join : k = if state = .stopping then 1 else 0
  running : 0 < n → state = .running
  idle : 0 < m → state = .idle

namespace Balance

variable {locked : Bool} {state : ReaderState} {n m k n' m' k' : Nat}

lemma congr (h : Balance locked state n m k) (hn : n' = n) (hm : m' = m) (hk : k' = k) :
    Balance locked state n' m' k' := by
  rw [hn, hm, hk]
  exact h

/-- A call of `stop` takes the lock. -/
lemma raise (h : Balance false .running n m k) (hn : n' = n + 1) (hk : k' = k) :
    Balance true .running n' m k' := by
  have hlock : n + m = 0 := h.lock
  refine ⟨?_, hk.trans h.join, fun _ => rfl, fun hm => ?_⟩
  · rw [Bool.toNat_true]
    omega
  · omega

/-- A call of `stop` claims the join and gives the lock back. -/
lemma claim (h : Balance locked state n m k) (hn : n' + 1 = n) (hk : k' = k + 1) :
    Balance false .stopping n' m k' := by
  have hlock := h.lock
  have hone := locked.toNat_le
  have hjoin : k = 0 := by
    rw [h.join, h.running (by omega)]
    rfl
  refine ⟨?_, ?_, fun hpos => ?_, fun hpos => ?_⟩
  · rw [Bool.toNat_false]
    omega
  · rw [hk, hjoin, if_pos rfl]
  · omega
  · omega

/-- A call of `stop` makes the reader idle. -/
lemma settle (h : Balance false state n m k) (hn : n' = n) (hk : k' + 1 = k) :
    Balance false .idle n' m k' := by
  have hlock : n + m = 0 := h.lock
  have hjoin := h.join
  refine ⟨?_, ?_, fun hpos => ?_, fun _ => rfl⟩
  · rw [hn]
    exact hlock
  · rw [if_neg ReaderState.noConfusion]
    split at hjoin <;> omega
  · omega

/-- A call of `start` takes the lock. -/
lemma enter (h : Balance false .idle n m k) (hm : m' = m + 1) : Balance true .idle n m' k := by
  have hlock : n + m = 0 := h.lock
  refine ⟨?_, h.join, fun hpos => ?_, fun _ => rfl⟩
  · rw [Bool.toNat_true]
    omega
  · omega

/-- A call of `start` gives the lock back. -/
lemma unlock (h : Balance locked state n m k) (hm : m' + 1 = m) : Balance false state n m' k := by
  have hlock := h.lock
  have hone := locked.toNat_le
  refine ⟨?_, h.join, h.running, fun hpos => ?_⟩
  · rw [Bool.toNat_false]
    omega
  · omega

/-- A call of `start` gives the lock back, and the reader is running. -/
lemma publish (h : Balance locked state n m k) (hm : m' + 1 = m) :
    Balance false .running n m' k := by
  have hlock := h.lock
  have hone := locked.toNat_le
  have hjoin := h.join
  rw [h.idle (by omega), if_neg ReaderState.noConfusion] at hjoin
  refine ⟨?_, ?_, fun _ => rfl, fun hpos => ?_⟩
  · rw [Bool.toNat_false]
    omega
  · rw [hjoin, if_neg ReaderState.noConfusion]
  · omega

end Balance

/-- Waking the thread changes nothing else. -/
lemma Reader.wake_cases (r : Reader E) :
    r.wake = r ∨ ∃ t, r.thread = some t ∧
      r.wake = { r with thread := some { t with wakePipe := t.wakePipe.wake } } := by
  rw [wake]
  split
  · exact Or.inl rfl
  · cases ht : r.thread with
    | none =>
      rw [updateThread, ht, Option.map_none, ← ht]
      exact Or.inl rfl
    | some t => exact Or.inr ⟨t, rfl, updateThread_eq ht _⟩

namespace SharedReader

variable {a b : SharedReader E}

/-- How many calls have the lock, and how many own the join. -/
def Balanced (a : SharedReader E) : Prop :=
  Balance a.reader.locked a.reader.state (a.reader.stops.countP (·.holdsLock))
    (a.starts.countP (·.stage.holdsLock)) (a.reader.stops.countP (·.ownsJoin))

lemma balanced_idle (bufferSize : Nat) (descriptors : String → Descriptor) :
    (idle bufferSize descriptors : SharedReader E).Balanced where
  lock := rfl
  join := rfl
  running h := by cases h
  idle _ := rfl

lemma Balanced.stop (h : a.Balanced) {i : Nat} {stage stage' : StopStage} {r : Reader E}
    (hi : a.reader.stops[i]? = some stage) (hmoves : StopMoves a.reader stage stage' r)
    (former : List (ReaderThread E)) :
    Balanced { a with reader := { r with stops := r.stops.set i stage' }, former } := by
  have hlocks := countP_set_add (p := (·.holdsLock)) hi stage'
  have hjoins := countP_set_add (p := (·.ownsJoin)) hi stage'
  rw [Balanced] at h
  cases hmoves with
  | pass => exact h.congr hlocks rfl hjoins
  | raise hfree hstate =>
    rw [hfree, hstate] at h
    rw [Balanced, hstate]
    exact h.raise hlocks hjoins
  | wake =>
    rcases a.reader.wake_cases with heq | ⟨t, -, heq⟩
    · rw [heq]
      exact h.congr (Nat.succ.inj hlocks) rfl hjoins
    · rw [heq]
      exact h.congr (Nat.succ.inj hlocks) rfl hjoins
  | claim => exact h.claim hlocks hjoins
  | join => exact h.congr hlocks rfl (Nat.succ.inj hjoins)
  | settle hfree =>
    have hfree' : a.reader.settleDown.locked = false := hfree
    rw [hfree] at h
    rw [Balanced, hfree']
    exact h.settle hlocks hjoins

lemma Balanced.start (h : a.Balanced) {j : Nat} {c : StartCall E} {stage : StartStage}
    (hj : a.starts[j]? = some c) (hmoves : StartMoves c.plan a c.stage stage b) :
    Balanced { b with starts := a.starts.set j { c with stage } } := by
  have hlocks := countP_set_add (p := (·.stage.holdsLock)) hj { c with stage }
  rw [Balanced] at h
  obtain ⟨plan, before⟩ := c
  cases hmoves with
  | refuse => exact h.congr rfl hlocks rfl
  | enter hfree hstate =>
    rw [hfree, hstate] at h
    rw [Balanced, hstate]
    exact h.enter hlocks
  | deny | fail => exact h.unlock hlocks
  | register | lower | clear | launch => exact h.congr rfl (Nat.succ.inj hlocks) rfl
  | publish => exact h.publish hlocks

lemma Balanced.outcome (h : a.Balanced) {x : Action E} (ho : Outcome a x b) : b.Balanced := by
  cases ho with
  | callStop =>
    refine h.congr ?_ rfl ?_
    · exact List.countP_append
    · exact List.countP_append
  | callStart plan => exact h.congr rfl List.countP_append rfl
  | stop hi hmoves => exact h.stop hi hmoves _
  | start hj hmoves => exact h.start hj hmoves
  | idle | thread | interrupt | openGate | write | close => exact h

end SharedReader

/-! ### The ends of threads -/

lemma ThreadStage.of_isEnded {stage : ThreadStage E} (h : stage.isEnded = true) :
    stage.isLooping = false ∧ stage.isCalling = false := by
  cases stage with
  | ended => exact ⟨rfl, rfl⟩
  | _ => cases h

namespace Reader

lemma threadEnded_eq_true_iff {r : Reader E} :
    r.threadEnded = true ↔ ∀ t, r.thread = some t → t.stage.isEnded = true := by
  rw [threadEnded]
  cases r.thread with
  | none => simp
  | some t => simp

lemma threadEnded_updateThread {r : Reader E} {f : ReaderThread E → ReaderThread E}
    (hf : ∀ t, (f t).stage = t.stage) : (r.updateThread f).threadEnded = r.threadEnded := by
  rw [threadEnded, updateThread, threadEnded]
  cases r.thread with
  | none => rfl
  | some t => exact congrArg ThreadStage.isEnded (hf t)

lemma mem_set_joined {stops : List StopStage} {i : Nat} {stage : StopStage}
    (h : .joined ∈ stops.set i stage) (hstage : stage ≠ .joined) : .joined ∈ stops := by
  rcases List.mem_or_eq_of_mem_set h with h | h
  · exact h
  · exact absurd h.symm hstage

end Reader

namespace SharedReader

variable {a b : SharedReader E}

/-- Threads end before the reader gives them up, and their wake-pipes are closed only then. -/
structure Reaped (a : SharedReader E) : Prop where
  joined : .joined ∈ a.reader.stops → a.reader.threadEnded = true
  idle : a.reader.state = .idle → (∀ c ∈ a.starts, c.stage ≠ .spawned) →
    a.reader.threadEnded = true
  former : ∀ t ∈ a.former, t.stage.isEnded = true
  writer : ∀ t, a.reader.thread = some t → t.stage.isLooping = true → t.wakePipe.writerOpen = true

lemma reaped_idle (bufferSize : Nat) (descriptors : String → Descriptor) :
    (idle bufferSize descriptors : SharedReader E).Reaped where
  joined h := by cases h
  idle _ _ := rfl
  former t ht := by cases ht
  writer t ht := by cases ht

/-- Nothing changes that concerns the ends of threads. -/
lemma Reaped.congr (h : a.Reaped) (hthread : b.reader.thread = a.reader.thread)
    (hstops : .joined ∈ b.reader.stops → .joined ∈ a.reader.stops)
    (hidle : b.reader.state = .idle → (∀ c ∈ b.starts, c.stage ≠ .spawned) →
      a.reader.state = .idle ∧ ∀ c ∈ a.starts, c.stage ≠ .spawned)
    (hformer : b.former = a.former) : b.Reaped := by
  have hended : b.reader.threadEnded = a.reader.threadEnded := by
    rw [Reader.threadEnded, hthread, Reader.threadEnded]
  refine ⟨fun hmem => ?_, fun hstate hnone => ?_, ?_, ?_⟩
  · rw [hended]
    exact h.joined (hstops hmem)
  · rw [hended]
    obtain ⟨hstate, hnone⟩ := hidle hstate hnone
    exact h.idle hstate hnone
  · rw [hformer]
    exact h.former
  · rw [hthread]
    exact h.writer

/-- The thread is not brought to another stage, nor is its wake-pipe closed. -/
lemma Reaped.touch (h : a.Reaped) {t t' : ReaderThread E} (ht : a.reader.thread = some t)
    (hthread : b.reader.thread = some t') (hstage : t'.stage = t.stage)
    (hwriter : t'.wakePipe.writerOpen = t.wakePipe.writerOpen)
    (hstops : .joined ∈ b.reader.stops → .joined ∈ a.reader.stops)
    (hstate : b.reader.state = a.reader.state) (hstarts : b.starts = a.starts)
    (hformer : b.former = a.former) : b.Reaped := by
  have hended : b.reader.threadEnded = a.reader.threadEnded := by
    rw [Reader.threadEnded, Reader.threadEnded, hthread, ht]
    exact congrArg ThreadStage.isEnded hstage
  refine ⟨fun hmem => ?_, fun hidle hnone => ?_, ?_, ?_⟩
  · rw [hended]
    exact h.joined (hstops hmem)
  · rw [hended]
    rw [hstate] at hidle
    rw [hstarts] at hnone
    exact h.idle hidle hnone
  · rw [hformer]
    exact h.former
  · rw [hthread]
    rintro _ ⟨⟩
    rw [hstage, hwriter]
    exact h.writer t ht

/-- All threads have ended once the latest has. -/
lemma Reaped.threads (h : a.Reaped) (hended : a.reader.threadEnded = true) :
    ∀ t ∈ a.threads, t.stage.isEnded = true := by
  intro t ht
  rcases List.mem_append.mp ht with ht | ht
  · exact h.former t ht
  · exact Reader.threadEnded_eq_true_iff.mp hended t (Option.mem_toList.mp ht)

/-- A thread that the reader keeps is not a former one. -/
lemma former_of_isNone {r : Reader E} (h : r.thread.isNone = a.reader.thread.isNone) :
    (if r.thread.isNone then a.threads else a.former) = a.former := by
  rw [h, SharedReader.threads]
  cases a.reader.thread with
  | none => simp
  | some t => rfl

lemma Reaped.stop (h : a.Reaped) {i : Nat} {stage stage' : StopStage} {r : Reader E}
    (hi : a.reader.stops[i]? = some stage) (hmoves : StopMoves a.reader stage stage' r) :
    Reaped { a with
      reader := { r with stops := r.stops.set i stage' }
      former := if r.thread.isNone then a.threads else a.former } := by
  cases hmoves with
  | pass | raise =>
    exact h.congr rfl (fun hmem => Reader.mem_set_joined hmem StopStage.noConfusion)
      (fun hidle hnone => ⟨hidle, hnone⟩) (former_of_isNone rfl)
  | wake =>
    have hjoined : .joined ∈ a.reader.stops.set i .woken → .joined ∈ a.reader.stops :=
      fun hmem => Reader.mem_set_joined hmem StopStage.noConfusion
    rcases a.reader.wake_cases with heq | ⟨t, ht, heq⟩
    · rw [heq]
      exact h.congr rfl hjoined (fun hidle hnone => ⟨hidle, hnone⟩) (former_of_isNone rfl)
    · rw [heq]
      exact h.touch ht rfl rfl t.wakePipe.writerOpen_wake hjoined rfl rfl rfl
  | claim =>
    exact h.congr rfl (fun hmem => Reader.mem_set_joined hmem StopStage.noConfusion)
      (fun hidle => by cases hidle) (former_of_isNone rfl)
  | join hended =>
    have hended : a.reader.hangUp.threadEnded = true := by
      rw [Reader.hangUp, Reader.threadEnded_updateThread]
      · exact hended
      · exact fun _ => rfl
    have hsame : a.reader.hangUp.thread.isNone = a.reader.thread.isNone := Option.isNone_map
    rw [former_of_isNone hsame]
    refine ⟨fun _ => hended, fun _ _ => hended, h.former, fun t ht hlooping => ?_⟩
    have hstage := Reader.threadEnded_eq_true_iff.mp hended t ht
    rw [(ThreadStage.of_isEnded hstage).1] at hlooping
    cases hlooping
  | settle hfree =>
    have hended := h.joined (List.mem_of_getElem? hi)
    exact ⟨fun _ => rfl, fun _ _ => rfl, h.threads hended, fun t ht => by cases ht⟩

lemma mem_or_eq_of_getElem? {α : Type} {l : List α} {j : Nat} {c x : α} (hj : l[j]? = some c)
    (hx : x ∈ l) (y : α) : x = c ∨ x ∈ l.set j y := by
  obtain ⟨k, hk⟩ := List.mem_iff_getElem?.mp hx
  by_cases hkj : j = k
  · rw [← hkj, hj] at hk
    exact Or.inl (Option.some.inj hk).symm
  · refine Or.inr (List.mem_iff_getElem?.mpr ⟨k, ?_⟩)
    rw [List.getElem?_set_ne hkj, hk]

/-- Before a call of `start` that has the lock makes a thread, the one before has ended. -/
lemma Reaped.threadEnded_of_start (h : a.Reaped) (hb : a.Balanced) {c : StartCall E}
    (hc : c ∈ a.starts) (hlock : c.stage.holdsLock = true) (hstage : c.stage ≠ .spawned) :
    a.reader.threadEnded = true := by
  have hone := hb.lock
  have hle := a.reader.locked.toNat_le
  refine h.idle (hb.idle (List.countP_pos_iff.mpr ⟨c, hc, hlock⟩)) fun x hx hspawned => ?_
  -- whoever has the lock has it alone, so no other call is between making a thread and telling
  have heq := eq_of_countP_le_one (p := (·.stage.holdsLock)) (by omega) hc hx hlock
    (by rw [hspawned]; rfl)
  rw [← heq] at hspawned
  exact hstage hspawned

lemma Reaped.start (h : a.Reaped) (hb : a.Balanced) {j : Nat} {c : StartCall E}
    {stage : StartStage} (hj : a.starts[j]? = some c)
    (hmoves : StartMoves c.plan a c.stage stage b) :
    Reaped { b with starts := a.starts.set j { c with stage } } := by
  have hnone : c.stage ≠ .spawned → (∀ x ∈ a.starts.set j { c with stage }, x.stage ≠ .spawned) →
      ∀ x ∈ a.starts, x.stage ≠ .spawned := by
    intro hc hall x hx
    rcases mem_or_eq_of_getElem? hj hx { c with stage } with rfl | hx
    · exact hc
    · exact hall x hx
  obtain ⟨plan, before⟩ := c
  cases hmoves with
  | refuse | deny | enter | register | lower | clear | fail =>
    exact h.congr rfl id
      (fun hidle hall => ⟨hidle, hnone StartStage.noConfusion hall⟩) rfl
  | launch =>
    have hmem := List.mem_of_getElem? hj
    have hstate := hb.idle (List.countP_pos_iff.mpr ⟨_, hmem, rfl⟩)
    have hended := h.threadEnded_of_start hb hmem rfl StartStage.noConfusion
    refine ⟨fun hjoined => ?_, fun _ hall => ?_, h.threads hended, ?_⟩
    · have hjoin := hb.join
      rw [hstate, if_neg ReaderState.noConfusion, List.countP_eq_zero] at hjoin
      exact absurd rfl (hjoin _ hjoined)
    · have hlt := (List.getElem?_eq_some_iff.mp hj).1
      exact absurd rfl (hall _ (List.mem_set hlt _))
    · rintro t ⟨⟩ -
      rfl
  | publish => exact h.congr rfl id (fun hidle => by cases hidle) rfl

/-- A thread that makes a step has not ended, so it has not been joined. -/
lemma Reaped.thread (h : a.Reaped) {t t' : ReaderThread E} (ht : a.reader.thread = some t)
    (hended : t.stage.isEnded = false)
    (hlooping : t'.stage.isLooping = true → t'.wakePipe.writerOpen = true)
    (hthread : b.reader.thread = some t') (hstate : b.reader.state = a.reader.state)
    (hstops : b.reader.stops = a.reader.stops) (hstarts : b.starts = a.starts)
    (hformer : b.former = a.former) : b.Reaped := by
  have hnot : ¬a.reader.threadEnded = true := by
    rw [Reader.threadEnded, ht]
    simp [hended]
  refine ⟨fun hmem => ?_, fun hidle hnone => ?_, ?_, ?_⟩
  · rw [hstops] at hmem
    exact absurd (h.joined hmem) hnot
  · rw [hstate] at hidle
    rw [hstarts] at hnone
    exact absurd (h.idle hidle hnone) hnot
  · rw [hformer]
    exact h.former
  · rw [hthread]
    rintro _ ⟨⟩
    exact hlooping

lemma Reaped.outcome (h : a.Reaped) (hb : a.Balanced) {x : Action E} (ho : Outcome a x b) :
    b.Reaped := by
  cases ho with
  | stop hi hmoves => exact h.stop hi hmoves
  | start hj hmoves => exact h.start hb hj hmoves
  | thread ht hproceeds =>
    obtain ⟨hended, hlooping⟩ := hproceeds.stage
    obtain ⟨-, -, hwriter, -⟩ := hproceeds.unchanged
    refine h.thread ht hended (fun hl => ?_) rfl rfl rfl rfl rfl
    rw [hwriter]
    exact h.writer _ ht (hlooping hl)
  | @interrupt t ht hstage =>
    refine h.thread ht ?_ ?_ (show _ = some { t with stage := .polling } from rfl) rfl rfl rfl rfl
    · rw [hstage]
      rfl
    · exact fun _ => h.writer t ht (by rw [hstage]; rfl)
  | callStop =>
    refine h.congr rfl (fun hmem => ?_) (fun hidle hnone => ⟨hidle, hnone⟩) rfl
    rcases List.mem_append.mp hmem with hmem | hmem
    · exact hmem
    · simp at hmem
  | callStart plan =>
    refine h.congr rfl id (fun hidle hnone => ⟨hidle, fun c hc => ?_⟩) rfl
    exact hnone c (List.mem_append_left _ hc)
  | idle | openGate | write | close =>
    exact h.congr rfl id (fun hidle hnone => ⟨hidle, hnone⟩) rfl

/-! ### Runs -/

/-- What holds throughout the life of a reader. -/
structure Lawful (a : SharedReader E) : Prop where
  balanced : a.Balanced
  reaped : a.Reaped

lemma lawful_idle (bufferSize : Nat) (descriptors : String → Descriptor) :
    (idle bufferSize descriptors : SharedReader E).Lawful :=
  ⟨balanced_idle bufferSize descriptors, reaped_idle bufferSize descriptors⟩

lemma Lawful.outcome (h : a.Lawful) {x : Action E} (ho : Outcome a x b) : b.Lawful :=
  ⟨h.balanced.outcome ho, h.reaped.outcome h.balanced ho⟩

lemma Lawful.play (h : a.Lawful) (acts : List (Action E)) : (play acts a).Lawful := by
  induction acts generalizing a with
  | nil => exact h
  | cons x acts ih => exact ih (h.outcome (a.outcome_act x))

/-- Only the latest thread can be alive. -/
lemma Lawful.alive_le_one (h : a.Lawful) : a.threads.countP (!·.stage.isEnded) ≤ 1 := by
  have hformer : a.former.countP (!·.stage.isEnded) = 0 := by
    rw [List.countP_eq_zero]
    intro t ht
    simp [h.reaped.former t ht]
  rw [threads, List.countP_append, hformer, Nat.zero_add]
  refine Nat.le_trans List.countP_le_length ?_
  cases a.reader.thread <;> simp

/-- Idle with a free lock means that all threads have ended. -/
lemma Lawful.ended_of_idle (h : a.Lawful) (hfree : a.reader.locked = false)
    (hstate : a.reader.state = .idle) : ∀ t ∈ a.threads, t.stage.isEnded = true := by
  refine h.reaped.threads (h.reaped.idle hstate fun c hc hspawned => ?_)
  have hlock := h.balanced.lock
  rw [hfree, Bool.toNat_false, Nat.add_eq_zero_iff] at hlock
  exact List.countP_eq_zero.mp hlock.2 c hc (by rw [hspawned]; rfl)

/-- A call of `start` that has the lock keeps the reader idle. -/
lemma Lawful.idle_of_start (h : a.Lawful) {c : StartCall E} (hc : c ∈ a.starts)
    (hlock : c.stage.holdsLock = true) : a.reader.locked = true ∧ a.reader.state = .idle := by
  have hpos : 0 < a.starts.countP (·.stage.holdsLock) := List.countP_pos_iff.mpr ⟨c, hc, hlock⟩
  refine ⟨?_, h.balanced.idle hpos⟩
  have hlock := h.balanced.lock
  cases hlocked : a.reader.locked with
  | true => rfl
  | false =>
    rw [hlocked, Bool.toNat_false] at hlock
    omega

lemma getElem?_set_cases {α : Type} {l : List α} {i j : Nat} {x y z : α} (hi : l[i]? = some x)
    (hj : (l.set i y)[j]? = some z) : j = i ∧ z = y ∨ l[j]? = some z := by
  by_cases hij : i = j
  · subst hij
    rw [List.getElem?_set_self (List.getElem?_eq_some_iff.mp hi).1] at hj
    exact Or.inl ⟨rfl, (Option.some.inj hj).symm⟩
  · rw [List.getElem?_set_ne hij] at hj
    exact Or.inr hj

/-- A call of `start` succeeds by making an idle reader run. -/
lemma Lawful.start_succeeds (h : a.Lawful) {x : Action E} {j : Nat} {c : StartCall E}
    (hj : (a.act x).starts[j]? = some c) (hok : c.stage = .returned (.ok ())) :
    a.starts[j]? = some c ∨ a.starts[j]? = some { c with stage := .spawned } ∧
      a.reader.state = .idle ∧ (a.act x).reader.state = .running := by
  have ho := a.outcome_act x
  generalize a.act x = b at ho hj
  cases ho with
  | callStart plan =>
    rcases Nat.lt_or_ge j a.starts.length with hlt | hge
    · rw [List.getElem?_append_left hlt] at hj
      exact Or.inl hj
    · rw [List.getElem?_append_right hge, List.getElem?_singleton] at hj
      split at hj
      · cases hj
        cases hok
      · cases hj
  | @start i reply d stage b hi hmoves =>
    rcases getElem?_set_cases hi hj with ⟨rfl, rfl⟩ | hj
    · obtain rfl : stage = .returned (.ok ()) := hok
      obtain ⟨plan, before⟩ := d
      cases hmoves with
      | publish => exact Or.inr ⟨hi, (h.idle_of_start (List.mem_of_getElem? hi) rfl).2, rfl⟩
    · exact Or.inl hj
  | stop | idle | callStop | thread | interrupt | openGate | write | close => exact Or.inl hj

/-- A call of `start` that finds the reader running or stopping is refused. -/
lemma act_start_of_not_idle {j : Nat} {c : StartCall E} (hj : a.starts[j]? = some c)
    (hstage : c.stage = .arriving) (hfree : a.reader.locked = false)
    (hstate : a.reader.state ≠ .idle) (reply : StartReply) :
    ∃ e, a.act (.start j reply) =
      { a with starts := a.starts.set j { c with stage := .returned (.error e) } } := by
  rw [act, advanceStart, hj]
  dsimp only
  rw [hstage, stepStart, if_neg (by rw [hfree]; exact Bool.false_ne_true), Reader.obstacle?]
  cases hs : a.reader.state with
  | idle => exact absurd hs hstate
  | running => exact ⟨_, rfl⟩
  | stopping => exact ⟨_, rfl⟩

/-- A thread in its loop finds its wake-pipe open, and goes on to look at the stop flag. -/
lemma Lawful.drained (h : a.Lawful) {t : ReaderThread E} (ht : a.reader.thread = some t)
    {target : Readiness} (hstage : t.stage = .woken target true) (limit : Nat)
    (pollForbidden : Bool) :
    (a.act (.thread limit pollForbidden)).reader.thread =
      some { t with wakePipe := t.wakePipe.drain.2, stage := .checking target } := by
  have hopen := h.reaped.writer t ht (by rw [hstage]; rfl)
  have hdrain : t.wakePipe.drain.1 = true := by
    rw [WakePipe.drain]
    split
    · exact hopen
    · rfl
  rw [act, advanceThread, ht]
  obtain ⟨plan, buffer, wakePipe, stage⟩ := t
  obtain rfl : stage = .woken target true := hstage
  dsimp only [Reader.stepThread, ReaderThread.curb] at hdrain ⊢
  rw [hdrain, Reader.updateThread, ht]
  rfl

/-- However calls of `start` and `stop` and the steps of threads come together, at most one thread
of a reader is alive, and none while the reader is idle and the lock is free. While it is stopping,
one call of `stop` owns the join. A call of `start` that has the lock keeps the reader idle until it
makes it run, and one that does not find it idle is refused. The wake-pipe of a thread in its loop
is not closed, so the thread does not take its end for a failure. -/
theorem lifecycle_safety (bufferSize : Nat) (descriptors : String → Descriptor)
    (acts : List (Action E)) :
    let a := play acts (idle bufferSize descriptors)
    a.threads.countP (!·.stage.isEnded) ≤ 1 ∧
    (a.reader.locked = false → a.reader.state = .idle →
      ∀ t ∈ a.threads, t.stage.isEnded = true ∧ t.stage.isCalling = false) ∧
    a.reader.stops.countP (·.ownsJoin) = (if a.reader.state = .stopping then 1 else 0) ∧
    (∀ c ∈ a.starts, c.stage.holdsLock = true →
      a.reader.locked = true ∧ a.reader.state = .idle) ∧
    (∀ x (j : Nat) (c : StartCall E), (a.act x).starts[j]? = some c → c.stage = .returned (.ok ()) →
      a.starts[j]? = some c ∨ a.starts[j]? = some { c with stage := .spawned } ∧
        a.reader.state = .idle ∧ (a.act x).reader.state = .running) ∧
    (∀ (j : Nat) (c : StartCall E) reply, a.starts[j]? = some c → c.stage = .arriving →
      a.reader.locked = false → a.reader.state ≠ .idle → ∃ e, a.act (.start j reply) =
        { a with starts := a.starts.set j { c with stage := .returned (.error e) } }) ∧
    (∀ t ∈ a.threads, t.stage.isLooping = true → t.wakePipe.writerOpen = true) ∧
    ∀ t target, a.reader.thread = some t → t.stage = .woken target true →
      ∀ limit pollForbidden, (a.act (.thread limit pollForbidden)).reader.thread =
        some { t with wakePipe := t.wakePipe.drain.2, stage := .checking target } := by
  intro a
  have h : a.Lawful := (lawful_idle bufferSize descriptors).play acts
  refine ⟨h.alive_le_one, ?_, h.balanced.join, fun c hc => h.idle_of_start hc,
    fun x j c hj => h.start_succeeds hj, ?_, ?_, fun t target ht hstage => h.drained ht hstage⟩
  · intro hfree hstate t ht
    have hended := h.ended_of_idle hfree hstate t ht
    exact ⟨hended, (ThreadStage.of_isEnded hended).2⟩
  · exact fun j c reply hj hstage hfree hstate => act_start_of_not_idle hj hstage hfree hstate reply
  · intro t ht hlooping
    rcases List.mem_append.mp ht with ht | ht
    · rw [(ThreadStage.of_isEnded (h.reaped.former t ht)).1] at hlooping
      cases hlooping
    · exact h.reaped.writer t (Option.mem_toList.mp ht) hlooping

end SharedReader

end EventKernel
