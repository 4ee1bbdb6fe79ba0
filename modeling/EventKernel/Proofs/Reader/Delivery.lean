import EventKernel.Proofs.Reader.Flow

/-!
# What a reader delivers

No byte is lost, doubled or moved, whatever comes in between writes and reads: the chunks handed to
callbacks so far and the bytes still in the pipe make up what was written. The end of file is found
in an empty pipe without a writer, and such a pipe stays as it is. A thread that has seen the stop
flag has left its loop, and takes nothing more.
-/

namespace EventKernel

open Reader (Proceeds StopMoves)

variable {E : Type}

namespace Reader

variable {limit : Nat} {r : Reader E} {t t' : ReaderThread E} {d d' : Descriptor} {flag : Bool}
  {exit : Option ReaderExit}

/-- A thread comes to the end of file by a read that finds it. -/
lemma Proceeds.of_endOfFile (h : Proceeds limit r t d t' flag exit d')
    (hleaving : t'.stage = .leaving .endOfFile) :
    t.stage = .reading ∧ ∃ buffer,
      (t.curb limit).plan.strategy.read? d t.buffer = some (.closed, buffer, d') := by
  cases h with
  | @read outcome buffer d' hstage hread =>
    cases outcome with
    | closed => exact ⟨hstage, buffer, hread⟩
    | data | skip | failed => cases hleaving
  | wait | barred | wake | pass | drain | crash | observe | reject | again | ready | finish
  | effect | stop | panic | leave => cases hleaving

lemma Proceeds.exit_cases (h : Proceeds limit r t d t' flag exit d') :
    exit = r.exit ∨ ∃ e, t.stage = .leaving e ∧ exit = some e := by
  cases h with
  | leave hstage => exact Or.inr ⟨_, hstage, rfl⟩
  | _ => exact Or.inl rfl

/-- A callback that does not run yet is run on what was read. -/
lemma Proceeds.of_calling (h : Proceeds limit r t d t' flag exit d')
    (hidle : t.stage.isCalling = false) (hcalling : t'.stage.isCalling = true) :
    t.stage = .reading ∧ ∃ n buffer,
      (t.curb limit).plan.strategy.read? d t.buffer = some (.data n, buffer, d') ∧
      t'.stage = .calling (t.plan.callback (buffer.take n)) := by
  cases h with
  | @read outcome buffer d' hstage hread =>
    cases outcome with
    | data n => exact ⟨hstage, n, buffer, hread, rfl⟩
    | closed | skip | failed => cases hcalling
  | finish hstage | effect hstage | stop hstage | panic hstage =>
    rw [hstage] at hidle
    cases hidle
  | wait | barred | wake | pass | drain | crash | observe | reject | again | ready | leave =>
    cases hcalling

end Reader

namespace SharedReader

variable {a b : SharedReader E} {name : String} {size : Nat}

/-! ### The end of file -/

/-- There is nothing in the pipe `name`, and nothing will come. -/
def Exhausted (name : String) (a : SharedReader E) : Prop :=
  ∃ p, a.descriptors name = .pipe p ∧ p.bytes = [] ∧ p.writerOpen = false

lemma Exhausted.act (h : a.Exhausted name) (hs : a.Suited name size) (x : Action E) :
    (a.act x).Exhausted name := by
  obtain ⟨p, hp, hbytes, hwriter⟩ := h
  obtain ⟨p', hp', hflow⟩ := hs.flow hp x
  obtain ⟨hbytes', hwriter'⟩ := hflow.exhausted hbytes hwriter
  exact ⟨p', hp', hbytes', hwriter'⟩

/-- The thread ends with the end of file only once its pipe is exhausted, and the exit that is known
while there is a thread is the exit of this thread. -/
structure EndOfFile (name : String) (a : SharedReader E) : Prop where
  leaving : ∀ t, a.reader.thread = some t → t.plan.target = name →
    t.stage = .leaving .endOfFile → a.Exhausted name
  exit : ∀ t, a.reader.thread = some t → t.plan.target = name →
    a.reader.exit = some .endOfFile → a.Exhausted name
  cleared : ∀ c ∈ a.starts, c.stage = .cleared → a.reader.exit = none

lemma endOfFile_idle (bufferSize : Nat) (descriptors : String → Descriptor) :
    (idle bufferSize descriptors : SharedReader E).EndOfFile name where
  leaving t ht := by cases ht
  exit t ht := by cases ht
  cleared c hc := by cases hc

lemma EndOfFile.exhausted (h : a.EndOfFile name) {t : ReaderThread E}
    (ht : a.reader.thread = some t) (htarget : t.plan.target = name)
    (hend : t.stage = .leaving .endOfFile ∨ a.reader.exit = some .endOfFile) :
    a.Exhausted name := by
  rcases hend with hleaving | hexit
  · exact h.leaving t ht htarget hleaving
  · exact h.exit t ht htarget hexit

/-- The thread is not brought to the end of file, and no exit becomes known. -/
lemma EndOfFile.congr (h : a.EndOfFile name) (hexhausted : a.Exhausted name → b.Exhausted name)
    (hthread : ∀ t', b.reader.thread = some t' → ∃ t, a.reader.thread = some t ∧
      t.plan = t'.plan ∧ (t'.stage = .leaving .endOfFile → t.stage = .leaving .endOfFile))
    (hexit : b.reader.exit = a.reader.exit)
    (hstarts : ∀ c ∈ b.starts, c.stage = .cleared → ∃ c' ∈ a.starts, c'.stage = .cleared) :
    b.EndOfFile name := by
  refine ⟨fun t' ht' htarget hstage => ?_, fun t' ht' htarget hknown => ?_, fun c hc hstage => ?_⟩
  · obtain ⟨t, ht, hplan, hback⟩ := hthread t' ht'
    exact hexhausted (h.leaving t ht (hplan ▸ htarget) (hback hstage))
  · obtain ⟨t, ht, hplan, -⟩ := hthread t' ht'
    exact hexhausted (h.exit t ht (hplan ▸ htarget) (hexit ▸ hknown))
  · obtain ⟨c', hc', hstage'⟩ := hstarts c hc hstage
    rw [hexit]
    exact h.cleared c' hc' hstage'

/-- Neither a call of `start` nor one of `stop` comes to the end of file. -/
lemma EndOfFile.stop (h : a.EndOfFile name) {stage stage' : StopStage} {r : Reader E}
    (hmoves : StopMoves a.reader stage stage' r) (stops : List StopStage)
    (former : List (ReaderThread E)) :
    EndOfFile name { a with reader := { r with stops }, former } := by
  obtain ⟨-, -, hexit⟩ := hmoves.unchanged
  refine h.congr id (fun t' ht' => ?_) hexit fun c hc hstage => ⟨c, hc, hstage⟩
  obtain ⟨t, wakePipe, ht, rfl⟩ := hmoves.thread ht'
  exact ⟨t, ht, rfl, id⟩

lemma EndOfFile.start (h : a.EndOfFile name) {j : Nat} {c : StartCall E} {stage : StartStage}
    (hj : a.starts[j]? = some c) (hmoves : StartMoves c.plan a c.stage stage b) :
    EndOfFile name { b with starts := a.starts.set j { c with stage } } := by
  have hmem := List.mem_of_getElem? hj
  have hold : stage ≠ .cleared → ∀ x ∈ a.starts.set j { c with stage }, x.stage = .cleared →
      x ∈ a.starts := by
    intro hstage x hx hcleared
    rcases List.mem_or_eq_of_mem_set hx with hx | rfl
    · exact hx
    · exact absurd hcleared hstage
  obtain ⟨plan, before⟩ := c
  cases hmoves with
  | refuse | enter | deny | register | lower | fail | publish =>
    exact h.congr id (fun t' ht' => ⟨t', ht', rfl, id⟩) rfl
      fun x hx hcleared => ⟨x, hold StartStage.noConfusion x hx hcleared, hcleared⟩
  | clear =>
    refine ⟨h.leaving, fun t ht htarget hknown => ?_, fun _ _ _ => rfl⟩
    cases hknown
  | launch =>
    have hnone := h.cleared _ hmem rfl
    refine ⟨fun t ht htarget hstage => ?_, fun t ht htarget hknown => ?_, fun _ _ _ => hnone⟩
    · cases ht
      cases hstage
    · have hknown : a.reader.exit = some .endOfFile := hknown
      rw [hnone] at hknown
      cases hknown

lemma EndOfFile.thread (h : a.EndOfFile name) (hs : a.Suited name size) (hlaw : a.Lawful)
    {limit : Nat} {t t' : ReaderThread E} {flag : Bool} {exit : Option ReaderExit} {d : Descriptor}
    (ht : a.reader.thread = some t)
    (hproceeds : Proceeds limit a.reader t (a.descriptors t.plan.target) t' flag exit d)
    (hthread : b.reader.thread = some t') (hexit : b.reader.exit = exit)
    (hstarts : b.starts = a.starts)
    (hdescriptors : b.descriptors = Function.update a.descriptors t.plan.target d)
    (hkeep : a.Exhausted name → b.Exhausted name) : b.EndOfFile name := by
  obtain ⟨hplan, -, -, -⟩ := hproceeds.unchanged
  refine ⟨fun u hu htarget hleaving => ?_, fun u hu htarget hknown => ?_, fun c hc hcleared => ?_⟩
  · obtain rfl := Option.some.inj (hthread.symm.trans hu)
    obtain ⟨hstage, buffer, hread⟩ := hproceeds.of_endOfFile hleaving
    obtain rfl : t.plan.target = name := hplan ▸ htarget
    obtain ⟨p, hp⟩ := hs.pipe
    rw [hp, ReaderThread.curb, hs.thread t ht rfl] at hread
    obtain ⟨p', rfl, hgives⟩ := gives_single (hs.buffer t ht ▸ hs.pos) hread
    cases hgives with
    | closed hbytes hwriter =>
      refine ⟨p, ?_, hbytes, hwriter⟩
      rw [hdescriptors]
      exact Function.update_self ..
  · obtain rfl := Option.some.inj (hthread.symm.trans hu)
    rcases hproceeds.exit_cases with hsame | ⟨e, hstage, heq⟩
    · exact hkeep (h.exit t ht (hplan ▸ htarget) (by rw [← hsame, ← hexit, hknown]))
    · obtain rfl : e = .endOfFile := Option.some.inj (heq.symm.trans (hexit.symm.trans hknown))
      exact hkeep (h.leaving t ht (hplan ▸ htarget) hstage)
  · rw [hstarts] at hc
    rcases hproceeds.exit_cases with hsame | ⟨e, hstage, -⟩
    · rw [hexit, hsame]
      exact h.cleared c hc hcleared
    · -- the exit is forgotten only once the thread before has ended, and this one has not
      have hended := hlaw.reaped.threadEnded_of_start hlaw.balanced hc
        (by rw [hcleared]; rfl) (by rw [hcleared]; exact StartStage.noConfusion)
      have hended := Reader.threadEnded_eq_true_iff.mp hended t ht
      rw [hstage] at hended
      cases hended

lemma EndOfFile.act (h : a.EndOfFile name) (hs : a.Suited name size) (hlaw : a.Lawful)
    (x : Action E) : (a.act x).EndOfFile name := by
  have hkeep : a.Exhausted name → (a.act x).Exhausted name := fun h => h.act hs x
  have ho := a.outcome_act x
  generalize a.act x = b at ho hkeep
  cases ho with
  | stop hi hmoves => exact h.stop hmoves _ _
  | start hj hmoves => exact h.start hj hmoves
  | thread ht hproceeds => exact h.thread hs hlaw ht hproceeds rfl rfl rfl rfl hkeep
  | @interrupt t ht hstage =>
    refine h.congr hkeep (fun t' ht' => ?_) rfl fun c hc hcleared => ⟨c, hc, hcleared⟩
    cases ht'
    exact ⟨t, ht, rfl, fun hstage => by cases hstage⟩
  | callStart plan =>
    refine h.congr hkeep (fun t' ht' => ⟨t', ht', rfl, id⟩) rfl fun c hc hcleared => ?_
    rcases List.mem_append.mp hc with hc | hc
    · exact ⟨c, hc, hcleared⟩
    · obtain rfl := List.mem_singleton.mp hc
      cases hcleared
  | idle | callStop | openGate | write | close =>
    exact h.congr hkeep (fun t' ht' => ⟨t', ht', rfl, id⟩) rfl fun c hc hcleared =>
      ⟨c, hc, hcleared⟩

/-! ### Calls of the callback -/

/-- A chunk that is handed over is what the callback is run on. -/
lemma calling_of_chunk? {x : Action E} {chunk : List UInt8} (h : a.chunk? name x = some chunk) :
    ∃ t buffer, a.reader.thread = some t ∧ t.plan.target = name ∧ t.stage = .reading ∧
      (a.act x).reader.thread =
        some { t with buffer, stage := .calling (t.plan.callback chunk) } := by
  cases x with
  | thread limit pollForbidden =>
    by_cases hreading : ∃ t, a.reader.thread = some t ∧ t.stage = .reading
    · obtain ⟨t, ht, hstage⟩ := hreading
      rw [chunk?_reading ht hstage] at h
      by_cases htarget : t.plan.target = name
      · rw [if_pos htarget] at h
        rw [act_reading ht hstage, htarget]
        split at h
        · next n buffer d hread =>
          cases h
          rw [hread]
          exact ⟨t, buffer, ht, htarget, hstage, rfl⟩
        · cases h
      · rw [if_neg htarget] at h
        cases h
    · rw [chunk?_of_not_reading fun t ht hstage => hreading ⟨t, ht, hstage⟩] at h
      cases h
  | _ => cases h

/-- The callback is run on nothing else. -/
lemma chunk?_of_calling {x : Action E} {t t' : ReaderThread E} (ht : a.reader.thread = some t)
    (htarget : t.plan.target = name) (hidle : t.stage.isCalling = false)
    (ht' : (a.act x).reader.thread = some t') (hcalling : t'.stage.isCalling = true) :
    ∃ chunk, a.chunk? name x = some chunk ∧ t'.stage = .calling (t.plan.callback chunk) := by
  have ho := a.outcome_act x
  generalize a.act x = b at ho ht'
  have hsame : ∀ u, a.reader.thread = some u → u.stage.isCalling = false := by
    intro u hu
    obtain rfl := Option.some.inj (ht.symm.trans hu)
    exact hidle
  cases ho with
  | stop hi hmoves =>
    obtain ⟨u, wakePipe, hu, rfl⟩ := hmoves.thread ht'
    rw [hsame u hu] at hcalling
    cases hcalling
  | @start j reply c stage b hj hmoves =>
    obtain ⟨plan, before⟩ := c
    cases hmoves with
    | launch =>
      cases ht'
      cases hcalling
    | refuse | enter | deny | register | lower | clear | fail | publish =>
      rw [hsame t' ht'] at hcalling
      cases hcalling
  | @thread limit pollForbidden u u' flag exit d hu hproceeds =>
    obtain rfl := Option.some.inj (ht.symm.trans hu)
    cases ht'
    obtain ⟨hstage, n, buffer, hread, hcallback⟩ := hproceeds.of_calling hidle hcalling
    refine ⟨buffer.take n, ?_, hcallback⟩
    rw [chunk?_reading ht hstage, if_pos htarget, ← htarget, hread]
  | interrupt =>
    cases ht'
    cases hcalling
  | idle | callStop | callStart | openGate | write | close =>
    rw [hsame t' ht'] at hcalling
    cases hcalling

/-! ### Behind a stop -/

/-- A thread that has seen the stop flag leaves. -/
lemma leaving_of_stopFlag {t : ReaderThread E} {target : Readiness}
    (ht : a.reader.thread = some t) (hstage : t.stage = .checking target)
    (hflag : a.reader.stopFlag = true) (limit : Nat) (pollForbidden : Bool) :
    (a.act (.thread limit pollForbidden)).reader.thread =
      some { t with stage := .leaving .stopped } := by
  rw [act, advanceThread, ht]
  obtain ⟨plan, buffer, wakePipe, stage⟩ := t
  obtain rfl : stage = .checking target := hstage
  dsimp only [Reader.stepThread, ReaderThread.curb]
  rw [if_pos hflag, Reader.setStage_eq ht]

/-- All threads so far have left their loops. -/
def Left (a : SharedReader E) : Prop := ∀ t ∈ a.threads, t.stage.isLooping = false

lemma Left.act (h : a.Left) {x : Action E}
    (hlength : (a.act x).threads.length = a.threads.length) : (a.act x).Left := by
  intro t' ht'
  obtain ⟨n, hn, rfl⟩ := List.mem_iff_getElem.mp ht'
  obtain ⟨u, hu, hfollows⟩ :=
    follows_outcome (a.outcome_act x) (List.getElem?_eq_getElem (hlength ▸ hn))
  rw [List.getElem?_eq_getElem hn] at hu
  obtain rfl := Option.some.inj hu
  exact hfollows.left (h _ (List.getElem_mem _))

lemma Left.not_reading (h : a.Left) {t : ReaderThread E} (ht : a.reader.thread = some t) :
    t.stage ≠ .reading := by
  intro hstage
  have hleft := h t (List.mem_append_right _ (Option.mem_toList.mpr ht))
  rw [hstage] at hleft
  cases hleft

/-- While the latest thread has left its loop, so have all. -/
lemma Lawful.left (h : a.Lawful) {t : ReaderThread E} (ht : a.reader.thread = some t)
    (hstage : t.stage.isLooping = false) : a.Left := by
  intro u hu
  rcases List.mem_append.mp hu with hu | hu
  · exact (ThreadStage.of_isEnded (h.reaped.former u hu)).1
  · obtain rfl := Option.some.inj (ht.symm.trans (Option.mem_toList.mp hu))
    exact hstage

/-- While there is no new thread, nothing is taken out of the pipe. -/
lemma Left.play (h : a.Left) (acts : List (Action E))
    (hlength : (play acts a).threads.length = a.threads.length) {p : Pipe}
    (hp : a.descriptors name = .pipe p) :
    handed name acts a = [] ∧ ∃ p', (SharedReader.play acts a).descriptors name = .pipe p' ∧
      p'.bytes = p.bytes ++ written name acts a := by
  induction acts generalizing a p with
  | nil => exact ⟨rfl, p, hp, (List.append_nil _).symm⟩
  | cons x acts ih =>
    -- threads are added and never dropped, so there are as many of them on the way
    have hstep : (a.act x).threads.length = a.threads.length := by
      have hle := length_threads_le_play a [x]
      have hle' := length_threads_le_play (a.act x) acts
      rw [play_cons] at hlength
      exact Nat.le_antisymm (hlength ▸ hle') hle
    have hnone : a.chunk? name x = none := chunk?_of_not_reading (fun t ht => h.not_reading ht) x
    obtain ⟨p₁, hp₁, hflow⟩ := flow_act hp Nat.one_pos
      (fun t ht hstage => absurd hstage (h.not_reading ht)) x
    obtain ⟨hhanded, p', hp', hbytes⟩ := ih (h.act hstep) (hlength.trans hstep.symm) hp₁
    have hconserved := hflow.conserved
    rw [hnone, Option.toList_none, List.flatten_nil, List.nil_append] at hconserved
    refine ⟨?_, p', hp', ?_⟩
    · rw [handed, hnone, hhanded]
      rfl
    · rw [hbytes, ← hconserved, written, List.append_assoc]

/-! ### Runs -/

/-- In a run, threads that read from the pipe `name` read once each time. -/
def SingleReads (name : String) (acts : List (Action E)) : Prop :=
  ∀ plan, .callStart plan ∈ acts → plan.target = name → plan.strategy = .single

/-- What holds throughout a run of such threads. -/
structure Delivering (name : String) (size : Nat) (a : SharedReader E) : Prop where
  lawful : a.Lawful
  suited : a.Suited name size
  endOfFile : a.EndOfFile name

namespace Delivering

lemma act (h : a.Delivering name size) {x : Action E}
    (hx : ∀ plan, x = .callStart plan → plan.target = name → plan.strategy = .single) :
    (a.act x).Delivering name size where
  lawful := h.lawful.outcome (a.outcome_act x)
  suited := h.suited.act hx
  endOfFile := h.endOfFile.act h.suited h.lawful x

/-- Bytes come out in the order in which they went in, in chunks of bounded length. -/
lemma play {acts : List (Action E)} (hsingle : SingleReads name acts)
    (h : a.Delivering name size) {p : Pipe} (hp : a.descriptors name = .pipe p) :
    (play acts a).Delivering name size ∧
      ∃ p', (SharedReader.play acts a).descriptors name = .pipe p' ∧
        p.bytes ++ written name acts a = (handed name acts a).flatten ++ p'.bytes ∧
        ∀ chunk ∈ handed name acts a, 1 ≤ chunk.length ∧ chunk.length ≤ size := by
  induction acts generalizing a p with
  | nil => exact ⟨h, p, hp, List.append_nil _, fun chunk hchunk => by cases hchunk⟩
  | cons x acts ih =>
    have hnext : (a.act x).Delivering name size :=
      h.act fun plan hplan => hsingle plan (hplan ▸ List.mem_cons_self ..)
    obtain ⟨p₁, hp₁, hflow⟩ := h.suited.flow hp x
    obtain ⟨hdelivering, p', hp', hbytes, hbounds⟩ :=
      ih (fun plan hplan => hsingle plan (List.mem_cons_of_mem x hplan)) hnext hp₁
    refine ⟨hdelivering, p', hp', ?_, fun chunk hchunk => ?_⟩
    · calc p.bytes ++ written name (x :: acts) a
          = (p.bytes ++ a.accepted name x) ++ written name acts (a.act x) := by
            rw [written, List.append_assoc]
        _ = (a.chunk? name x).toList.flatten ++
              (p₁.bytes ++ written name acts (a.act x)) := by
            rw [hflow.conserved, List.append_assoc]
        _ = (handed name (x :: acts) a).flatten ++ p'.bytes := by
            rw [hbytes, handed, List.flatten_append, List.append_assoc]
    · rcases List.mem_append.mp hchunk with hchunk | hchunk
      · exact hflow.bounded hchunk
      · exact hbounds chunk hchunk

end Delivering

/-- A pipe is read to the end without loss. However writes, reads, starts and stops come together,
the chunks handed to callbacks and the bytes still in the pipe make up the bytes that were there and
those that were written, in this order. Chunks are not empty and fit into the buffer, and callbacks
are run on them and on nothing else. A thread ends with the end of file only when the pipe has no
writer and all bytes were handed over. A thread that finds the stop flag up leaves, and until there
is another one nothing more is taken out of the pipe. -/
theorem data_delivery (bufferSize : Nat) (descriptors : String → Descriptor) (name : String)
    {p : Pipe} (hp : descriptors name = .pipe p) {acts : List (Action E)}
    (hsingle : SingleReads name acts) :
    let a₀ : SharedReader E := idle bufferSize descriptors
    let a := play acts a₀
    ∃ p', a.descriptors name = .pipe p' ∧
      p.bytes ++ written name acts a₀ = (handed name acts a₀).flatten ++ p'.bytes ∧
      (∀ chunk ∈ handed name acts a₀, 1 ≤ chunk.length ∧ chunk.length ≤ max bufferSize 1) ∧
      (∀ x chunk, a.chunk? name x = some chunk → ∃ t buffer, a.reader.thread = some t ∧
        t.plan.target = name ∧ t.stage = .reading ∧ (a.act x).reader.thread =
          some { t with buffer, stage := .calling (t.plan.callback chunk) }) ∧
      (∀ x (t t' : ReaderThread E), a.reader.thread = some t → t.plan.target = name →
        t.stage.isCalling = false → (a.act x).reader.thread = some t' →
        t'.stage.isCalling = true →
        ∃ chunk, a.chunk? name x = some chunk ∧ t'.stage = .calling (t.plan.callback chunk)) ∧
      (∀ t, a.reader.thread = some t → t.plan.target = name →
        t.stage = .leaving .endOfFile ∨ a.reader.exit = some .endOfFile →
        p'.writerOpen = false ∧ (handed name acts a₀).flatten = p.bytes ++ written name acts a₀) ∧
      (∀ t target, a.reader.thread = some t → t.stage = .checking target →
        a.reader.stopFlag = true → ∀ limit pollForbidden,
        (a.act (.thread limit pollForbidden)).reader.thread =
          some { t with stage := .leaving .stopped }) ∧
      ∀ t, a.reader.thread = some t → t.stage = .leaving .stopped →
        ∀ more, (play more a).threads.length = a.threads.length → handed name more a = [] ∧
          ∃ p'', (play more a).descriptors name = .pipe p'' ∧
            p''.bytes = p'.bytes ++ written name more a := by
  intro a₀ a
  have h₀ : a₀.Delivering name (max bufferSize 1) :=
    ⟨lawful_idle bufferSize descriptors, suited_idle bufferSize hp,
      endOfFile_idle bufferSize descriptors⟩
  obtain ⟨h, p', hp', hbytes, hbounds⟩ := h₀.play hsingle hp
  refine ⟨p', hp', hbytes, hbounds, fun x chunk => calling_of_chunk?,
    fun x t t' => chunk?_of_calling, fun t ht htarget hend => ?_,
    fun t target => leaving_of_stopFlag, fun t ht hstage more hlength => ?_⟩
  · obtain ⟨q, hq, hempty, hwriter⟩ := h.endOfFile.exhausted ht htarget hend
    obtain rfl : p' = q := Descriptor.pipe.inj (hp'.symm.trans hq)
    rw [hempty, List.append_nil] at hbytes
    exact ⟨hwriter, hbytes.symm⟩
  · exact (h.lawful.left ht (by rw [hstage]; rfl)).play more hlength hp'

/-- A thread with a buffer of size zero gets two bytes, and then finds the end of file. -/
def twoBytes : List (Action Unit) :=
  .callStart { target := "p", callback := fun _ => [] } ::
    List.replicate 6 (.start 0 (.granted none)) ++ .write "p" [97, 98] ::
    List.replicate 12 (.thread 1 false) ++ .close "p" :: List.replicate 6 (.thread 1 false)

theorem data_delivery_two_bytes :
    SingleReads "p" twoBytes ∧ handed "p" twoBytes (idle 0 fun _ => .pipe {}) = [[97], [98]] ∧
      ∃ p', (play twoBytes (idle 0 fun _ => .pipe {})).descriptors "p" = .pipe p' ∧
        p'.writerOpen = false ∧ (handed "p" twoBytes (idle 0 fun _ => .pipe {})).flatten =
          written "p" twoBytes (idle 0 fun _ => .pipe {}) := by
  have hsingle : SingleReads "p" twoBytes := by
    intro plan hplan _
    simp [twoBytes] at hplan
    rw [hplan]
  obtain ⟨p', hp', -, -, -, -, hend, -⟩ :=
    data_delivery 0 (fun _ => .pipe {}) "p" rfl hsingle
  have hthread : (play twoBytes (idle 0 fun _ => .pipe {})).reader.thread.map (·.plan.target) =
      some "p" := by decide +kernel
  have hexit : (play twoBytes (idle 0 fun _ => .pipe {})).reader.exit = some .endOfFile := by
    decide +kernel
  obtain ⟨t, ht, htarget⟩ := Option.map_eq_some_iff.mp hthread
  obtain ⟨hwriter, hall⟩ := hend t ht htarget (Or.inr hexit)
  exact ⟨hsingle, by decide +kernel, p', hp', hwriter, hall⟩

end SharedReader

end EventKernel
