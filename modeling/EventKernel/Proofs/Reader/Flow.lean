import EventKernel.Proofs.Reader.Threads

/-!
# What goes into a pipe, and what comes out

A thread that reads once each time it is woken takes bytes out of its pipe from the front and hands
them to its callback. What a run puts into a pipe and what it takes out are told action by action,
and one relation says what an action can do to a pipe: bytes are put in at the end, the writer goes,
or a chunk that fits into the buffer is taken from the front.
-/

namespace EventKernel

open Reader (Proceeds StopMoves)

variable {E : Type}

/-! ### Reading from a pipe -/

lemma Buffer.take_fill (b : Buffer) {bytes : List UInt8} (h : bytes.length ≤ b.size) :
    (b.fill bytes).take bytes.length = bytes := by
  simp [take, fill, Nat.min_eq_left h]

/-- What one read of a pipe into a buffer of so many bytes gives. -/
inductive Pipe.Gives (size : Nat) (p : Pipe) : ReadOutcome → Buffer → Pipe → Prop where
  | chunk {chunk rest : List UInt8} {b : Buffer} (hbytes : p.bytes = chunk ++ rest)
      (hpos : 0 < chunk.length) (hsize : chunk.length ≤ size)
      (htake : b.take chunk.length = chunk) :
      Gives size p (.data chunk.length) b { p with bytes := rest }
  | closed (hbytes : p.bytes = []) (hwriter : p.writerOpen = false) (b : Buffer) :
      Gives size p .closed b p
  | skip (b : Buffer) : Gives size p .skip b p

lemma gives_readOnce? {limit : Nat} {p : Pipe} {b b' : Buffer} {outcome : ReadOutcome}
    {d' : Descriptor} (hlimit : 0 < limit) (hsize : 0 < b.size)
    (h : readOnce? limit (.pipe p) b = some (outcome, b', d')) :
    ∃ p', d' = .pipe p' ∧ p.Gives b.size outcome b' p' := by
  have hmin : min limit b.size ≠ 0 := by omega
  rw [readOnce?, Descriptor.read?, if_neg hmin] at h
  by_cases hquiet : (p.bytes.isEmpty && p.writerOpen) = true
  · rw [if_pos hquiet] at h
    by_cases hnonblocking : p.nonblocking = true
    · rw [if_pos hnonblocking] at h
      cases h
      exact ⟨p, rfl, .skip b⟩
    · rw [if_neg hnonblocking] at h
      cases h
  · rw [if_neg hquiet] at h
    have hsplit := List.take_append_drop (min limit b.size) p.bytes
    cases htake : p.bytes.take (min limit b.size) with
    | nil =>
      rw [htake] at h hsplit
      have hbytes : p.bytes = [] := (List.take_eq_nil_iff.mp htake).resolve_left hmin
      have hwriter : p.writerOpen = false := by simpa [hbytes] using hquiet
      cases h
      refine ⟨p, ?_, .closed hbytes hwriter b⟩
      rw [List.nil_append] at hsplit
      rw [hsplit]
    | cons byte bytes =>
      rw [htake] at h hsplit
      have hlength : (byte :: bytes).length ≤ b.size := by
        rw [← htake, List.length_take]
        omega
      cases h
      exact ⟨_, rfl, .chunk hsplit.symm (Nat.succ_pos _) hlength (b.take_fill hlength)⟩

/-- A read that takes any number of the available bytes, but at least one. -/
lemma gives_single {limit : Nat} {p : Pipe} {b b' : Buffer} {outcome : ReadOutcome}
    {d' : Descriptor} (hsize : 0 < b.size)
    (h : (Strategy.single.curb limit).read? (.pipe p) b = some (outcome, b', d')) :
    ∃ p', d' = .pipe p' ∧ p.Gives b.size outcome b' p' :=
  gives_readOnce? (by omega) hsize h

/-! ### Steps of a thread and its descriptor -/

/-- Only a read changes the descriptor. -/
lemma Reader.Proceeds.descriptor {limit : Nat} {r : Reader E} {t t' : ReaderThread E}
    {d d' : Descriptor} {flag : Bool} {exit : Option ReaderExit}
    (h : Proceeds limit r t d t' flag exit d') (hstage : t.stage ≠ .reading) : d' = d := by
  cases h with
  | read hreading => exact absurd hreading hstage
  | _ => rfl

namespace SharedReader

variable {a b : SharedReader E} {name : String} {size : Nat}

/-- A thread that is about to read, does. -/
lemma act_reading {t : ReaderThread E} (ht : a.reader.thread = some t)
    (hstage : t.stage = .reading) (limit : Nat) (pollForbidden : Bool) :
    a.act (.thread limit pollForbidden) =
      match (t.curb limit).plan.strategy.read? (a.descriptors t.plan.target) t.buffer with
      | none => a
      | some (outcome, buffer, d) => { a with
          reader := { a.reader with
            thread := some { t with buffer, stage := Reader.afterRead t.plan buffer outcome } }
          descriptors := Function.update a.descriptors t.plan.target d } := by
  rw [act, advanceThread, ht]
  obtain ⟨plan, buffer, wakePipe, stage⟩ := t
  obtain rfl : stage = .reading := hstage
  dsimp only [Reader.stepThread, ReaderThread.curb]
  cases h : (plan.strategy.curb limit).read? (a.descriptors plan.target) buffer with
  | none => rfl
  | some p =>
    obtain ⟨outcome, buffer', d⟩ := p
    dsimp only [Option.bind_eq_bind, Option.bind_some]
    rw [Reader.updateThread_eq ht]
    rfl

/-! ### What goes into a pipe, and what comes out -/

/-- The bytes that an action puts into the pipe `name`. -/
def accepted (name : String) (a : SharedReader E) : Action E → List UInt8
  | .write target bytes =>
    if target = name then
      match a.descriptors name with
      | .pipe p => if p.writerOpen then bytes else []
      | .directory | .absent => []
    else []
  | _ => []

/-- The chunk that an action takes out of the pipe `name` and hands to the callback. -/
def chunk? (name : String) (a : SharedReader E) : Action E → Option (List UInt8)
  | .thread limit _ =>
    a.reader.thread.bind fun t =>
      match t.stage with
      | .reading =>
        if t.plan.target = name then
          match (t.curb limit).plan.strategy.read? (a.descriptors name) t.buffer with
          | some (.data n, buffer, _) => some (buffer.take n)
          | _ => none
        else none
      | _ => none
  | _ => none

/-- The bytes that a run puts into the pipe `name`. -/
def written (name : String) : List (Action E) → SharedReader E → List UInt8
  | [], _ => []
  | x :: acts, a => a.accepted name x ++ written name acts (a.act x)

/-- The chunks that a run takes out of the pipe `name` and hands to callbacks. -/
def handed (name : String) : List (Action E) → SharedReader E → List (List UInt8)
  | [], _ => []
  | x :: acts, a => (a.chunk? name x).toList ++ handed name acts (a.act x)

lemma chunk?_of_not_reading (h : ∀ t, a.reader.thread = some t → t.stage ≠ .reading)
    (x : Action E) : a.chunk? name x = none := by
  cases x with
  | thread limit pollForbidden =>
    rw [chunk?]
    cases ht : a.reader.thread with
    | none => rfl
    | some t =>
      rw [Option.bind_some]
      split
      · next hstage => exact absurd hstage (h t ht)
      · rfl
  | _ => rfl

lemma chunk?_reading {t : ReaderThread E} (ht : a.reader.thread = some t)
    (hstage : t.stage = .reading) (limit : Nat) (pollForbidden : Bool) :
    a.chunk? name (.thread limit pollForbidden) =
      if t.plan.target = name then
        match (t.curb limit).plan.strategy.read? (a.descriptors name) t.buffer with
        | some (.data n, buffer, _) => some (buffer.take n)
        | _ => none
      else none := by
  rw [chunk?, ht, Option.bind_some, hstage]

/-- What an action does to a pipe: it puts bytes in, or takes a chunk of bounded length out. -/
inductive Flow (size : Nat) (p : Pipe) : List UInt8 → Option (List UInt8) → Pipe → Prop where
  | rest : Flow size p [] none p
  | write (hopen : p.writerOpen = true) (bytes : List UInt8) :
      Flow size p bytes none { p with bytes := p.bytes ++ bytes }
  | close : Flow size p [] none p.close
  | chunk {chunk rest : List UInt8} (hbytes : p.bytes = chunk ++ rest) (hpos : 0 < chunk.length)
      (hsize : chunk.length ≤ size) : Flow size p [] (some chunk) { p with bytes := rest }

lemma flow_write (p : Pipe) (bytes : List UInt8) :
    Flow size p (if p.writerOpen then bytes else []) none (p.write bytes) := by
  rw [Pipe.write]
  by_cases hopen : p.writerOpen = true
  · rw [if_pos hopen, if_pos hopen]
    exact .write hopen bytes
  · rw [if_neg hopen, if_neg hopen]
    exact .rest

/-- If it is to read from the pipe `name`, the thread does so by one read into a buffer of so many
bytes. -/
def ReadsOnce (name : String) (size : Nat) (a : SharedReader E) : Prop :=
  ∀ t, a.reader.thread = some t → t.stage = .reading → t.plan.target = name →
    t.plan.strategy = .single ∧ t.buffer.size = size

lemma flow_thread {p : Pipe} (hp : a.descriptors name = .pipe p) (hsize : 0 < size)
    (hreads : a.ReadsOnce name size) (limit : Nat) (pollForbidden : Bool) :
    ∃ p', (a.act (.thread limit pollForbidden)).descriptors name = .pipe p' ∧
      Flow size p [] (a.chunk? name (.thread limit pollForbidden)) p' := by
  -- a thread that is not about to read leaves its descriptor alone
  by_cases hreading : ∃ t, a.reader.thread = some t ∧ t.stage = .reading
  · obtain ⟨t, ht, hstage⟩ := hreading
    rw [act_reading ht hstage, chunk?_reading ht hstage]
    by_cases htarget : t.plan.target = name
    · obtain ⟨hsingle, hbuffer⟩ := hreads t ht hstage htarget
      rw [if_pos htarget, htarget, hp, ReaderThread.curb, hsingle]
      cases hread : (Strategy.single.curb limit).read? (.pipe p) t.buffer with
      | none => exact ⟨p, hp, .rest⟩
      | some q =>
        obtain ⟨outcome, buffer, d⟩ := q
        obtain ⟨p', rfl, hgives⟩ := gives_single (hbuffer ▸ hsize) hread
        refine ⟨p', Function.update_self .., ?_⟩
        cases hgives with
        | chunk hbytes hpos hle htake =>
          dsimp only
          rw [htake]
          exact .chunk hbytes hpos (hbuffer ▸ hle)
        | closed | skip => exact .rest
    · rw [if_neg htarget]
      refine ⟨p, ?_, .rest⟩
      split
      · exact hp
      · exact (Function.update_of_ne (Ne.symm htarget) ..).trans hp
  · rw [chunk?_of_not_reading fun t ht hstage => hreading ⟨t, ht, hstage⟩]
    refine ⟨p, ?_, .rest⟩
    have ho := a.outcome_act (.thread limit pollForbidden)
    generalize a.act (.thread limit pollForbidden) = b at ho
    cases ho with
    | idle => exact hp
    | thread ht hproceeds =>
      rw [hproceeds.descriptor fun hstage => hreading ⟨_, ht, hstage⟩, Function.update_eq_self]
      exact hp

lemma flow_act {p : Pipe} (hp : a.descriptors name = .pipe p) (hsize : 0 < size)
    (hreads : a.ReadsOnce name size) (x : Action E) :
    ∃ p', (a.act x).descriptors name = .pipe p' ∧
      Flow size p (a.accepted name x) (a.chunk? name x) p' := by
  cases x with
  | thread limit pollForbidden => exact flow_thread hp hsize hreads limit pollForbidden
  | stop i =>
    have ho := a.outcome_act (.stop i)
    generalize a.act (.stop i) = b at ho
    cases ho with
    | idle | stop => exact ⟨p, hp, .rest⟩
  | start j reply =>
    have ho := a.outcome_act (.start j reply)
    generalize a.act (.start j reply) = b at ho
    cases ho with
    | idle => exact ⟨p, hp, .rest⟩
    | start hj hmoves =>
      obtain ⟨-, -, hdescriptors⟩ := hmoves.unchanged
      exact ⟨p, (congrFun hdescriptors name).trans hp, .rest⟩
  | write target bytes =>
    rw [act, accepted]
    by_cases htarget : target = name
    · subst htarget
      rw [if_pos rfl, hp]
      exact ⟨p.write bytes, Function.update_self .., flow_write p bytes⟩
    · rw [if_neg htarget]
      exact ⟨p, (Function.update_of_ne (Ne.symm htarget) ..).trans hp, .rest⟩
  | close target =>
    by_cases htarget : target = name
    · subst htarget
      refine ⟨p.close, ?_, .close⟩
      rw [act, hp]
      exact Function.update_self ..
    · exact ⟨p, (Function.update_of_ne (Ne.symm htarget) ..).trans hp, .rest⟩
  | callStop | callStart | interrupt | openGate => exact ⟨p, hp, .rest⟩

namespace Flow

variable {p p' : Pipe} {bytes : List UInt8} {chunk : Option (List UInt8)}

lemma conserved (h : Flow size p bytes chunk p') :
    p.bytes ++ bytes = chunk.toList.flatten ++ p'.bytes := by
  cases h with
  | rest | close => exact List.append_nil _
  | write => rfl
  | chunk hbytes => simp [hbytes]

lemma bounded (h : Flow size p bytes chunk p') {c : List UInt8} (hc : c ∈ chunk.toList) :
    1 ≤ c.length ∧ c.length ≤ size := by
  cases h with
  | rest | close | write => cases hc
  | chunk hbytes hpos hsize =>
    obtain rfl := List.mem_singleton.mp hc
    exact ⟨hpos, hsize⟩

/-- A pipe without bytes and without a writer stays as it is. -/
lemma exhausted (h : Flow size p bytes chunk p') (hbytes : p.bytes = [])
    (hwriter : p.writerOpen = false) : p'.bytes = [] ∧ p'.writerOpen = false := by
  cases h with
  | rest => exact ⟨hbytes, hwriter⟩
  | close => exact ⟨hbytes, rfl⟩
  | write hopen =>
    rw [hwriter] at hopen
    cases hopen
  | chunk hsplit hpos =>
    rw [hbytes] at hsplit
    rw [(List.append_eq_nil_iff.mp hsplit.symm).1] at hpos
    cases hpos

end Flow

/-! ### Threads that read once -/

/-- The thread has a buffer of a known size, and reads once if it reads from the pipe `name`; so
will the threads to come. -/
structure Suited (name : String) (size : Nat) (a : SharedReader E) : Prop where
  pos : 0 < size
  bufferSize : a.reader.bufferSize = size
  buffer : ∀ t, a.reader.thread = some t → t.buffer.size = size
  thread : ∀ t, a.reader.thread = some t → t.plan.target = name → t.plan.strategy = .single
  start : ∀ c ∈ a.starts, c.plan.target = name → c.plan.strategy = .single
  pipe : ∃ p, a.descriptors name = .pipe p

lemma suited_idle (bufferSize : Nat) {descriptors : String → Descriptor} {p : Pipe}
    (hp : descriptors name = .pipe p) :
    (idle bufferSize descriptors : SharedReader E).Suited name (max bufferSize 1) where
  pos := by omega
  bufferSize := rfl
  buffer t ht := by cases ht
  thread t ht := by cases ht
  start c hc := by cases hc
  pipe := ⟨p, hp⟩

namespace Suited

lemma readsOnce (h : a.Suited name size) : a.ReadsOnce name size :=
  fun t ht _ htarget => ⟨h.thread t ht htarget, h.buffer t ht⟩

lemma flow (h : a.Suited name size) {p : Pipe} (hp : a.descriptors name = .pipe p)
    (x : Action E) :
    ∃ p', (a.act x).descriptors name = .pipe p' ∧
      Flow size p (a.accepted name x) (a.chunk? name x) p' :=
  flow_act hp h.pos h.readsOnce x

lemma act (h : a.Suited name size) {x : Action E}
    (hx : ∀ plan, x = .callStart plan → plan.target = name → plan.strategy = .single) :
    (a.act x).Suited name size := by
  have ho := a.outcome_act x
  obtain ⟨p, hp⟩ := h.pipe
  obtain ⟨p', hp', -⟩ := h.flow hp x
  refine ⟨h.pos, (bufferSize_outcome ho).trans h.bufferSize, fun t' ht' => ?_, fun t' ht' => ?_,
    fun c hc => ?_, p', hp'⟩
  · rcases origin_of_thread ho ht' with ⟨t, ht, hfollows⟩ | ⟨c, -, -, rfl⟩
    · exact hfollows.size.trans (h.buffer t ht)
    · exact h.bufferSize
  · rcases origin_of_thread ho ht' with ⟨t, ht, hfollows⟩ | ⟨c, hc, -, rfl⟩
    · rw [hfollows.plan]
      exact h.thread t ht
    · exact h.start c hc
  · rcases plan_of_start ho hc with ⟨c', hc', hplan⟩ | hcall
    · rw [← hplan]
      exact h.start c' hc'
    · exact hx c.plan hcall

end Suited

end SharedReader

end EventKernel
