import EventKernel.Proofs.Reader.Flow
import EventKernel.Proofs.Relay.Delivery

/-!
# The reader of a relay until it waits

A reader that nobody stops or wakes goes on for a few steps behind each chunk. While its pipe is
open it ends up waiting. Once the pipe is closed, all bytes are read and the end becomes known.
-/

namespace EventKernel

/-! ### Pipes whose reads wait -/

/-- What a read of a pipe comes to, if it waits while there is nothing to read. -/
inductive Pipe.Reads (p : Pipe) (b : Buffer) : Option (ReadOutcome × Buffer × Descriptor) → Prop
  | wait (hopen : p.writerOpen = true) : Reads p b none
  | closed (hclosed : p.writerOpen = false) {b' : Buffer} (hsize : b'.size = b.size) :
      Reads p b (some (.closed, b', .pipe p))
  | data (count : Nat) {rest : List UInt8} {b' : Buffer} (hsize : b'.size = b.size)
      (hlt : rest.length < p.bytes.length) :
      Reads p b (some (.data count, b', .pipe { p with bytes := rest }))

lemma Pipe.reads_single {p : Pipe} (hblocking : p.nonblocking = false) {b : Buffer}
    (hsize : 0 < b.size) : p.Reads b (Strategy.single.read? (.pipe p) b) := by
  cases hread : Strategy.single.read? (.pipe p) b with
  | none =>
    refine .wait ?_
    grind [Strategy.read?, readOnce?, Descriptor.read?]
  | some o =>
    obtain ⟨outcome, b', d'⟩ := o
    have hsame := Strategy.size_read? hread
    obtain ⟨p', rfl, hgives⟩ := gives_readOnce? hsize hsize hread
    cases hgives with
    | chunk hbytes hpos hle htake =>
      refine .data _ hsame ?_
      rw [hbytes, List.length_append]
      omega
    | closed hbytes hclosed => exact .closed hclosed hsame
    | skip =>
      -- Only reads that do not wait find nothing.
      grind [Strategy.read?, readOnce?, Descriptor.read?]

/-! ### Readers that nobody stops -/

namespace Reader

variable {E : Type} {r : Reader E} {pollForbidden : Bool} {d : Descriptor}

/-- Only the thread can go on. -/
lemma advance_of_stops (h : r.stops = []) :
    r.advance pollForbidden d = r.advanceThread pollForbidden d := by
  rw [advance, advanceSomeStop, h]
  rfl

/-- There are no calls of `stop` to forget. -/
lemma settle_of_stops
    (h : (r.settleFor pollForbidden (r.patience d) d #[]).reader.stops = []) :
    r.settle pollForbidden d = r.settleFor pollForbidden (r.patience d) d #[] := by
  rw [settle, forgetReturned]
  generalize r.settleFor pollForbidden (r.patience d) d #[] = a at h ⊢
  obtain ⟨r', d', emitted⟩ := a
  obtain ⟨bufferSize, state, target, thread, stopFlag, exit, locked, stops⟩ := r'
  obtain rfl : stops = [] := h
  rfl

end Reader

namespace Relay

/-- Where a thread is that nobody stops or wakes, whose pipe is open or not, and how many steps it
can make from there before it waits or ends, if it reads nothing in between. -/
inductive Proceeding (writerOpen : Bool) : ThreadStage (List UInt8) → Nat → Prop
  | ended (hclosed : writerOpen = false) : Proceeding writerOpen .ended 0
  | leaving (hclosed : writerOpen = false) : Proceeding writerOpen (.leaving .endOfFile) 1
  | reading : Proceeding writerOpen .reading 2
  | checking : Proceeding writerOpen (.checking .ready) 3
  | woken : Proceeding writerOpen (.woken .ready false) 4
  | waiting : Proceeding writerOpen .waiting 5
  | polling : Proceeding writerOpen .polling 6
  | called : Proceeding writerOpen (.calling []) 7
  | calling (chunk : List UInt8) : Proceeding writerOpen (.calling [.emit chunk]) 8

lemma Proceeding.le {writerOpen : Bool} {stage : ThreadStage (List UInt8)} {k : Nat}
    (h : Proceeding writerOpen stage k) : k ≤ 8 := by
  cases h <;> decide

/-- A thread whose pipe is open has not left its loop. -/
lemma Proceeding.of_open {stage : ThreadStage (List UInt8)} {k : Nat} (h : Proceeding true stage k)
    (writerOpen : Bool) : Proceeding writerOpen stage k := by
  cases h with
  | ended hclosed | leaving hclosed => cases hclosed
  | reading => exact .reading
  | checking => exact .checking
  | woken => exact .woken
  | waiting => exact .waiting
  | polling => exact .polling
  | called => exact .called
  | calling chunk => exact .calling chunk

/-- A reader that relays a pipe and that nobody stops or wakes. It is done after so many steps. -/
structure Relays (r : Reader (List UInt8)) (p : Pipe) (n : Nat) : Prop where
  stops : r.stops = []
  stopFlag : r.stopFlag = false
  blocking : p.nonblocking = false
  going : p.writerOpen = true → r.exit = none
  thread : ∃ t k, r.thread = some t ∧ t.plan = plan ∧ 0 < t.buffer.size ∧ t.wakePipe = {} ∧
    Proceeding p.writerOpen t.stage k ∧ (t.stage = .ended → r.exit = some .endOfFile) ∧
    n = 7 * p.bytes.length + k

/-- A step brings a reader closer to where it waits or ends. -/
def Nearer (p : Pipe) (n : Nat) (step : Reader.ThreadStep (List UInt8)) : Prop :=
  ∃ p' n', step.descriptor = .pipe p' ∧ p'.writerOpen = p.writerOpen ∧ Relays step.reader p' n' ∧
    n' < n

variable {r : Reader (List UInt8)} {p : Pipe} {n : Nat}

lemma Relays.advance (h : Relays r p n) :
    (r.advanceThread false (.pipe p) = none ∧ (p.writerOpen = false → r.exit = some .endOfFile)) ∨
      ∃ step, r.advanceThread false (.pipe p) = some step ∧ Nearer p n step := by
  obtain ⟨hstops, hflag, hblocking, hgoing, ⟨plan', buffer, wakePipe, stage⟩, k, ht, rfl, hsize,
    rfl, hstage, hend, rfl⟩ := h
  have hset : ∀ stage' k' emitted, stage' ≠ .ended → Proceeding p.writerOpen stage' k' → k' < k →
      Nearer p (7 * p.bytes.length + k) ⟨r.setStage stage', .pipe p, emitted⟩ := by
    intro stage' k' emitted hne hstage' hlt
    refine ⟨p, 7 * p.bytes.length + k', rfl, rfl, ?_, Nat.add_lt_add_left hlt _⟩
    rw [Reader.setStage_eq ht]
    exact ⟨hstops, hflag, hblocking, hgoing, _, k', rfl, rfl, hsize, rfl, hstage', (absurd · hne),
      rfl⟩
  rw [Reader.advanceThread, ht, Option.bind_some]
  cases hstage with
  | ended hclosed => exact Or.inl ⟨rfl, fun _ => hend rfl⟩
  | leaving hclosed =>
    refine Or.inr ⟨_, rfl, p, 7 * p.bytes.length + 0, rfl, rfl, ?_, by omega⟩
    rw [Reader.setStage_eq (r := { r with exit := some .endOfFile }) ht]
    refine ⟨hstops, hflag, hblocking, ?_, _, 0, rfl, rfl, hsize, rfl, .ended hclosed, fun _ => rfl,
      rfl⟩
    intro hopen
    cases hclosed.symm.trans hopen
  | reading =>
    have hreads : p.Reads buffer (plan.strategy.read? (.pipe p) buffer) :=
      Pipe.reads_single hblocking hsize
    dsimp only [Reader.stepThread]
    generalize plan.strategy.read? (.pipe p) buffer = o at hreads ⊢
    cases hreads with
    | wait hopen =>
      refine Or.inl ⟨rfl, fun hclosed => ?_⟩
      cases hclosed.symm.trans hopen
    | closed hclosed hsame =>
      refine Or.inr ⟨_, rfl, p, 7 * p.bytes.length + 1, rfl, rfl, ?_, by omega⟩
      rw [Reader.updateThread_eq ht]
      exact ⟨hstops, hflag, hblocking, hgoing, _, 1, rfl, rfl, hsame.symm ▸ hsize, rfl,
        .leaving hclosed, (by cases ·), rfl⟩
    | @data count rest b' hsame hlt =>
      refine Or.inr ⟨_, rfl, { p with bytes := rest }, 7 * rest.length + 8, rfl, rfl, ?_, by omega⟩
      rw [Reader.updateThread_eq ht]
      exact ⟨hstops, hflag, hblocking, hgoing, _, 8, rfl, rfl, hsame.symm ▸ hsize, rfl,
        .calling (b'.take count), (by cases ·), rfl⟩
  | checking =>
    have hstep : r.stepThread false (.pipe p) ⟨plan, buffer, {}, .checking .ready⟩ =
        some ⟨r.setStage .reading, .pipe p, none⟩ := by
      simp [Reader.stepThread, hflag]
    exact Or.inr ⟨_, hstep, hset _ 2 none (by simp) .reading (by decide)⟩
  | woken => exact Or.inr ⟨_, rfl, hset _ 3 none (by simp) .checking (by decide)⟩
  | waiting =>
    rw [Reader.stepThread, Descriptor.readiness]
    by_cases hquiet : (p.bytes.isEmpty && p.writerOpen) = true
    · rw [if_pos hquiet]
      refine Or.inl ⟨rfl, fun hclosed => ?_⟩
      cases hclosed.symm.trans (Bool.and_eq_true_iff.mp hquiet).2
    · rw [if_neg hquiet]
      exact Or.inr ⟨_, rfl, hset _ 4 none (by simp) .woken (by decide)⟩
  | polling => exact Or.inr ⟨_, rfl, hset _ 5 none (by simp) .waiting (by decide)⟩
  | called => exact Or.inr ⟨_, rfl, hset _ 6 none (by simp) .polling (by decide)⟩
  | calling chunk => exact Or.inr ⟨_, rfl, hset _ 7 (some chunk) (by simp) .called (by decide)⟩

/-- The reader goes on until it waits. Of a closed pipe it reads everything, and its end becomes
known. -/
lemma Relays.settleFor (h : Relays r p n) (fuel : Nat) (emitted : Array (List UInt8)) :
    ∃ p' n', let a := r.settleFor false fuel (.pipe p) emitted
      a.descriptor = .pipe p' ∧ p'.writerOpen = p.writerOpen ∧ Relays a.reader p' n' ∧
        (p.writerOpen = false → n < fuel → a.reader.exit = some .endOfFile) := by
  induction fuel generalizing r p n emitted with
  | zero => exact ⟨p, n, rfl, rfl, h, fun _ hlt => absurd hlt (Nat.not_lt_zero n)⟩
  | succ fuel ih =>
    rw [Reader.settleFor, Reader.advance_of_stops h.stops]
    rcases h.advance with ⟨hnone, hexit⟩ | ⟨⟨r', d', output⟩, hsome, p', n', rfl, hopen, hmore, hlt⟩
    · rw [hnone]
      exact ⟨p, n, rfl, rfl, h, fun hclosed _ => hexit hclosed⟩
    · rw [hsome, ← hopen]
      cases output with
      | none =>
        obtain ⟨q, m, hq, hwriter, hrelays, hexit⟩ := ih hmore emitted
        exact ⟨q, m, hq, hwriter, hrelays, fun hclosed hfuel => hexit hclosed (by omega)⟩
      | some chunk =>
        obtain ⟨q, m, hq, hwriter, hrelays, hexit⟩ := ih hmore (emitted.push chunk)
        exact ⟨q, m, hq, hwriter, hrelays, fun hclosed hfuel => hexit hclosed (by omega)⟩

/-- Something is written to the pipe, or it is closed. -/
lemma Relays.change (h : Relays r p n) (hopen : p.writerOpen = true) (p' : Pipe)
    (hblocking : p'.nonblocking = false) : ∃ n', Relays r p' n' := by
  obtain ⟨t, k, ht, hplan, hsize, hwake, hproceeding, hend, -⟩ := h.thread
  rw [hopen] at hproceeding
  exact ⟨_, h.stops, h.stopFlag, hblocking, fun _ => h.going hopen, t, k, ht, hplan, hsize, hwake,
    hproceeding.of_open _, hend, rfl⟩

lemma Relays.le (h : Relays r p n) : n ≤ 7 * p.bytes.length + 8 := by
  obtain ⟨t, k, -, -, -, -, hproceeding, -, rfl⟩ := h.thread
  exact Nat.add_le_add_left hproceeding.le _

lemma Relays.settle (h : Relays r p n) :
    ∃ p' n', let a := r.settle false (.pipe p)
      a.descriptor = .pipe p' ∧ p'.writerOpen = p.writerOpen ∧ Relays a.reader p' n' ∧
        (p.writerOpen = false → a.reader.exit = some .endOfFile) := by
  obtain ⟨p', n', hpipe, hopen, hrelays, hexit⟩ := h.settleFor (r.patience (.pipe p)) #[]
  have hpatience : n < r.patience (.pipe p) := by
    have hle := h.le
    rw [Reader.patience, Descriptor.available]
    omega
  rw [Reader.settle_of_stops hrelays.stops]
  exact ⟨p', n', hpipe, hopen, hrelays, fun hclosed => hexit hclosed hpatience⟩

/-! ### Relays whose pipe is open -/

/-- The reader relays a pipe that is open. -/
def Relaying (w : Stage) : Prop :=
  ∃ p n, w.user.input = .pipe p ∧ p.writerOpen = true ∧ Relays w.user.reader p n

section

variable {latency : Time} {context : ContextId} {w : Stage}

lemma Relaying.stops (h : Relaying w) : w.user.reader.stops = [] := by
  obtain ⟨p, n, -, -, hrelays⟩ := h
  exact hrelays.stops

lemma Relaying.exit (h : Relaying w) : w.user.reader.exit = none := by
  obtain ⟨p, n, -, hopen, hrelays⟩ := h
  exact hrelays.going hopen

/-- Of what is handed in only the bytes are counted. -/
lemma user_foldl_forward (latency : Time) (context : ContextId) (chunks : List (List UInt8))
    (w : Stage) :
    (chunks.foldl (forward latency context) w).user =
      { w.user with bytes := w.user.bytes + chunks.flatten.length } := by
  induction chunks generalizing w with
  | nil => rfl
  | cons chunk chunks ih =>
    rw [List.foldl_cons, ih, List.flatten_cons, List.length_append, ← Nat.add_assoc]
    rfl

lemma user_afterInput (latency : Time) (context : ContextId) (f : Descriptor → Descriptor)
    (w : Stage) :
    (afterInput latency context f w).user.reader =
        (w.user.reader.settle false (f w.user.input)).reader ∧
      (afterInput latency context f w).user.input =
        (w.user.reader.settle false (f w.user.input)).descriptor := by
  rw [afterInput, ← Array.foldl_toList, user_foldl_forward]
  exact ⟨rfl, rfl⟩

lemma Relaying.arrive (h : Relaying w) (pieces : List (List UInt8)) :
    Relaying (arrive latency context pieces w) := by
  induction pieces generalizing w with
  | nil => exact h
  | cons piece pieces ih =>
    obtain ⟨p, n, hinput, hopen, hrelays⟩ := h
    have hwrite : w.user.input.write piece = .pipe { p with bytes := p.bytes ++ piece } := by
      rw [hinput, Descriptor.write, Pipe.write, if_pos hopen]
    obtain ⟨n', hrelays'⟩ := hrelays.change hopen { p with bytes := p.bytes ++ piece }
      hrelays.blocking
    obtain ⟨q, m, hq, hwriter, hmore, -⟩ := hrelays'.settle
    obtain ⟨hreader, hpipe⟩ := user_afterInput latency context (·.write piece) w
    rw [hwrite] at hreader hpipe
    exact ih ⟨q, m, hpipe.trans hq, hwriter.trans hopen, hreader ▸ hmore⟩

/-- Once the pipe is closed, the reader comes to its end. -/
lemma Relaying.close (h : Relaying w) :
    (afterInput latency context (·.close) w).user.reader.exit = some .endOfFile := by
  obtain ⟨p, n, hinput, hopen, hrelays⟩ := h
  have hclose : w.user.input.close = .pipe p.close := by
    rw [hinput, Descriptor.close]
  obtain ⟨n', hrelays'⟩ := hrelays.change hopen p.close hrelays.blocking
  obtain ⟨-, -, -, -, -, hexit⟩ := hrelays'.settle
  rw [(user_afterInput ..).1, hclose]
  exact hexit rfl

end

end Relay

end EventKernel
