import EventKernel.Proofs.Relay.Transcript
import EventKernel.Proofs.Text.Utf8

/-!
# Whether a relay keeps its text

Each chunk becomes a text on its own, so a character whose bytes fall into two chunks is not found
in either. What the chunks of a relay make up is what was written to its input, but their texts make
up the text of the input only if no chunk ends in the middle of a character.
-/

namespace EventKernel

/-- Only a callback gives something to the outside. -/
lemma Reader.emitted_stepThread {E : Type} {r : Reader E} {t : ReaderThread E} {d : Descriptor}
    {pollForbidden : Bool} {step : Reader.ThreadStep E}
    (h : r.stepThread pollForbidden d t = some step) (hstage : t.stage.isCalling = false) :
    step.emitted = none := by
  obtain ⟨plan, buffer, wakePipe, stage⟩ := t
  cases stage with
  | calling => cases hstage
  | ended => cases h
  | reading =>
    obtain ⟨⟨outcome, buffer', d'⟩, -, hstep⟩ := Option.bind_eq_some_iff.mp h
    obtain rfl := Option.some.inj hstep
    rfl
  | waiting =>
    dsimp only [stepThread] at h
    split at h
    · cases h
    · obtain rfl := Option.some.inj h
      rfl
  | woken target wake =>
    cases wake <;>
    · obtain rfl := Option.some.inj h
      rfl
  | polling | checking | leaving =>
    obtain rfl := Option.some.inj h
    rfl

namespace Relay

variable {latency : Time} {context : ContextId} {r : Reader (List UInt8)} {d : Descriptor}
  {size : Nat} {isOpen : Bool} {bytes : List UInt8}

/-! ### What the reader has not handed in -/

/-- What a thread has read into a buffer of so many bytes and not handed in. -/
inductive InHand (size : Nat) : ThreadStage (List UInt8) → List UInt8 → Prop where
  | chunk {chunk : List UInt8} (hpos : 0 < chunk.length) (hsize : chunk.length ≤ size) :
      InHand size (.calling [.emit chunk]) chunk
  | handed : InHand size (.calling []) []
  | nothing {stage : ThreadStage (List UInt8)} (hstage : stage.isCalling = false) :
      InHand size stage []

/-- These bytes were written to the input of a relay and not handed in by its reader, which has a
buffer of so many bytes; and whether more can be written. -/
structure Awaits (size : Nat) (r : Reader (List UInt8)) (d : Descriptor) (isOpen : Bool)
    (bytes : List UInt8) : Prop where
  pos : 0 < size
  thread : ∃ p t held, d = .pipe p ∧ p.writerOpen = isOpen ∧ r.thread = some t ∧ t.plan = plan ∧
    t.buffer.size = size ∧ InHand size t.stage held ∧ bytes = held ++ p.bytes ∧
    (t.stage = .leaving .endOfFile → isOpen = false ∧ bytes = [])
  ended : r.exit = some .endOfFile → isOpen = false ∧ bytes = [] ∧ r.threadEnded = true

namespace Awaits

/-- A thread that goes on has not come to the end of the input. -/
lemma exit_ne (h : Awaits size r d isOpen bytes) {t : ReaderThread (List UInt8)}
    (ht : r.thread = some t) (hgoes : t.stage.isEnded = false) : r.exit ≠ some .endOfFile := by
  intro hexit
  have hended := Reader.threadEnded_eq_true_iff.mp (h.ended hexit).2.2 t ht
  cases hgoes.symm.trans hended

/-- The thread reads. -/
lemma read {p : Pipe} {buffer buffer' : Buffer} (hpos : 0 < buffer.size)
    (hexit : r.exit ≠ some .endOfFile) {limit : Nat} {outcome : ReadOutcome} {d' : Descriptor}
    (hread : (plan.strategy.curb limit).read? (.pipe p) buffer = some (outcome, buffer', d'))
    (wakePipe : WakePipe) (flag : Bool) :
    Awaits buffer.size { r with
      thread := some ⟨plan, buffer', wakePipe, Reader.afterRead plan buffer' outcome⟩
      stopFlag := flag } d' p.writerOpen p.bytes := by
  have hsame : buffer'.size = buffer.size := Strategy.size_read? hread
  obtain ⟨p', rfl, hgives⟩ := gives_single hpos hread
  refine ⟨hpos, ?_, fun h => absurd h hexit⟩
  cases hgives with
  | @chunk chunk rest _ hbytes hchunk hsize htake =>
    have hhand : InHand buffer.size (Reader.afterRead plan buffer' (.data chunk.length)) chunk := by
      rw [Reader.afterRead, htake]
      exact .chunk hchunk hsize
    exact ⟨_, _, chunk, rfl, rfl, rfl, rfl, hsame, hhand, hbytes, (by cases ·)⟩
  | closed hbytes hwriter =>
    exact ⟨_, _, [], rfl, rfl, rfl, rfl, hsame, .nothing rfl, rfl, fun _ => ⟨hwriter, hbytes⟩⟩
  | skip => exact ⟨_, _, [], rfl, rfl, rfl, rfl, hsame, .nothing rfl, rfl, (by cases ·)⟩

/-- A step of the thread hands in the first of the bytes, or nothing. -/
lemma step (h : Awaits size r d isOpen bytes) {t : ReaderThread (List UInt8)}
    (ht : r.thread = some t) {pollForbidden : Bool} {limit : Nat}
    {step : Reader.ThreadStep (List UInt8)}
    (hstep : r.stepThread pollForbidden d (t.curb limit) = some step) :
    ∃ rest, bytes = step.emitted.toList.flatten ++ rest ∧
      (∀ chunk ∈ step.emitted, 0 < chunk.length ∧ chunk.length ≤ size) ∧
      Awaits size step.reader step.descriptor isOpen rest := by
  obtain ⟨u, flag, exit, hproceeds, hreader⟩ := Reader.proceeds_stepThread ht hstep
  have hexit := h.exit_ne ht hproceeds.stage.1
  obtain ⟨hpos, ⟨p, t', held, rfl, rfl, ht', hplan, hsize, hheld, rfl, hleaving⟩, -⟩ := h
  obtain rfl := Option.some.inj (ht.symm.trans ht')
  obtain ⟨plan', buffer, wakePipe, stage⟩ := t
  obtain rfl : plan' = plan := hplan
  obtain rfl : buffer.size = size := hsize
  have hset : ∀ {wakePipe stage held' flag}, InHand buffer.size stage held' →
      stage ≠ .leaving .endOfFile →
      Awaits buffer.size
        { r with thread := some ⟨plan, buffer, wakePipe, stage⟩, stopFlag := flag } (.pipe p)
        p.writerOpen (held' ++ p.bytes) := fun hheld' hne =>
    ⟨hpos, ⟨p, _, _, rfl, rfl, rfl, rfl, rfl, hheld', rfl, (absurd · hne)⟩,
      fun h => absurd h hexit⟩
  cases hheld with
  | chunk hchunk hsize =>
    obtain rfl := Option.some.inj hstep
    refine ⟨p.bytes, by simp, by simpa using ⟨hchunk, hsize⟩, ?_⟩
    rw [Reader.setStage_eq ht]
    exact hset .handed (by simp)
  | handed =>
    obtain rfl := Option.some.inj hstep
    refine ⟨p.bytes, rfl, fun _ hnone => (by cases hnone), ?_⟩
    rw [Reader.setStage_eq ht]
    exact hset (.nothing rfl) (by simp)
  | nothing hstage =>
    rw [Reader.emitted_stepThread hstep hstage, hreader]
    refine ⟨p.bytes, rfl, fun _ hnone => (by cases hnone), ?_⟩
    generalize step.descriptor = d' at hproceeds ⊢
    cases hproceeds with
    | wait | barred | wake | pass | drain | crash | observe | reject | again | ready =>
      exact hset (.nothing rfl) (by simp)
    | read _ hread => exact read hpos hexit hread wakePipe _
    | leave hleaves =>
      refine ⟨hpos, ⟨p, _, [], rfl, rfl, rfl, rfl, rfl, .nothing rfl, rfl, (by cases ·)⟩,
        fun h => ?_⟩
      obtain rfl := Option.some.inj h
      obtain ⟨hclosed, hbytes⟩ := hleaving hleaves
      exact ⟨hclosed, hbytes, rfl⟩
    | finish hcalls | effect hcalls | stop hcalls | panic hcalls =>
      obtain rfl := hcalls
      cases hstage

/-- Something is written to the input. -/
lemma write (h : Awaits size r d true bytes) (piece : List UInt8) :
    Awaits size r (d.write piece) true (bytes ++ piece) := by
  obtain ⟨hpos, ⟨p, t, held, rfl, hopen, ht, hplan, hsize, hheld, rfl, hleaving⟩, hended⟩ := h
  refine ⟨hpos, ⟨{ p with bytes := p.bytes ++ piece }, t, held, ?_, hopen, ht, hplan, hsize, hheld,
    List.append_assoc .., fun hstage => (by cases (hleaving hstage).1)⟩,
    fun hexit => (by cases (hended hexit).1)⟩
  rw [Descriptor.write, Pipe.write, if_pos hopen]

/-- The input is closed. -/
lemma close (h : Awaits size r d true bytes) : Awaits size r d.close false bytes := by
  obtain ⟨hpos, ⟨p, t, held, rfl, -, ht, hplan, hsize, hheld, rfl, hleaving⟩, hended⟩ := h
  exact ⟨hpos, ⟨p.close, t, held, rfl, rfl, ht, hplan, hsize, hheld, rfl,
    fun hstage => (by cases (hleaving hstage).1)⟩, fun hexit => (by cases (hended hexit).1)⟩

/-- A signal interrupts the thread. -/
lemma interrupt (h : Awaits size r d isOpen bytes) : Awaits size r.interrupt d isOpen bytes := by
  obtain ⟨p, t, held, hd, hopen, ht, hplan, hsize, hheld, hbytes, -⟩ := h.thread
  by_cases hstage : t.stage = .waiting
  · have hinterrupt : r.interrupt = { r with thread := some { t with stage := .polling } } := by
      rw [Reader.interrupt, Reader.updateThread_eq ht, hstage]
    rw [hstage] at hheld
    cases hheld
    rw [hinterrupt]
    exact ⟨h.pos, ⟨p, _, [], hd, hopen, rfl, hplan, hsize, .nothing rfl, hbytes, (by cases ·)⟩,
      fun hexit => absurd hexit (h.exit_ne ht (by rw [hstage]; rfl))⟩
  · have hinterrupt : r.interrupt = r := by
      rw [Reader.interrupt, Reader.updateThread_eq ht]
      split
      · contradiction
      · rw [← ht]
    rw [hinterrupt]
    exact h

end Awaits

/-! ### What a relay hands in -/

namespace Session

variable {x : Session}

/-- These bytes came in. They were handed in, in chunks that fit into a buffer of so many bytes, or
wait to be. -/
structure Received (size : Nat) (isOpen : Bool) (bytes : List UInt8) (x : Session) : Prop where
  rest : ∃ rest, bytes = x.delivered.flatten ++ rest ∧
    Awaits size x.world.user.reader x.world.user.input isOpen rest
  fits : ∀ chunk ∈ x.delivered, 0 < chunk.length ∧ chunk.length ≤ size

/-- The loop leaves the reader and its input alone. -/
lemma Kept.unchanged_stepLoop {s : Simulator RelayCode} (h : Kept latency context x s) :
    x.stepLoop.world.user.reader = x.world.user.reader ∧
      x.stepLoop.world.user.input = x.world.user.input ∧ x.stepLoop.delivered = x.delivered := by
  rcases h.stepLoop_cases with ⟨hworld, -, hdelivered⟩ |
    ⟨last, frame, frames, hplace, hstack, hstep⟩
  · rw [hworld]
    exact ⟨rfl, rfl, hdelivered⟩
  · have hwithin := h.within hplace
    rw [hstack] at hwithin
    obtain ⟨-, -, hreader, hinput⟩ := hwithin.step h.sound h.timely x.world.memory
    rw [hstep]
    exact ⟨hreader, hinput, rfl⟩

lemma Received.stepReader (h : Received size isOpen bytes x) (limit : Nat) (pollForbidden : Bool) :
    Received size isOpen bytes (x.stepReader latency context limit pollForbidden) := by
  rcases x.stepReader_cases latency context limit pollForbidden with hx | ⟨t, step, ht, hstep, hx⟩
  · rw [hx]
    exact h
  · obtain ⟨⟨rest, rfl, hawaits⟩, hfits⟩ := h
    obtain ⟨rest', rfl, hchunk, hawaits'⟩ := hawaits.step ht hstep
    rw [hx]
    refine ⟨⟨rest', by simp [hand], by rwa [user_hand]⟩, fun chunk hmem => ?_⟩
    rcases List.mem_append.mp hmem with hmem | hmem
    · exact hfits chunk hmem
    · exact hchunk chunk (Option.mem_toList.mp hmem)

/-- Whatever happens to a relay, what came in was handed in, in order, or waits to be. -/
lemma Received.play {s : Simulator RelayCode} {acts : List Action} {before behind : Bool}
    {bytes' : List UInt8} (h : Received size before bytes x) (hkept : Kept latency context x s)
    (hlatency : latency.isNegative = false) (hbrings : Brings before acts bytes' behind) :
    Received size behind (bytes ++ bytes') (x.play latency context acts) := by
  induction hbrings generalizing x s bytes with
  | nothing =>
    rw [List.append_nil]
    exact h
  | loop _ ih =>
    obtain ⟨t, ht⟩ := hkept.act hlatency .loop
    obtain ⟨hreader, hinput, hdelivered⟩ := hkept.unchanged_stepLoop
    refine ih ⟨?_, ?_⟩ ht
    · rw [act, hreader, hinput, hdelivered]
      exact h.rest
    · rw [act, hdelivered]
      exact h.fits
  | reader limit pollForbidden _ ih =>
    obtain ⟨t, ht⟩ := hkept.act hlatency (.reader limit pollForbidden)
    exact ih (h.stepReader limit pollForbidden) ht
  | interrupt _ ih =>
    obtain ⟨t, ht⟩ := hkept.act hlatency .interrupt
    exact ih ⟨h.rest.imp fun _ hrest => hrest.imp_right (·.interrupt), h.fits⟩ ht
  | write piece _ ih =>
    obtain ⟨t, ht⟩ := hkept.act hlatency (.change (·.write piece))
    obtain ⟨⟨rest, rfl, hawaits⟩, hfits⟩ := h
    rw [← List.append_assoc]
    exact ih ⟨⟨rest ++ piece, List.append_assoc .., hawaits.write piece⟩, hfits⟩ ht
  | close _ ih =>
    obtain ⟨t, ht⟩ := hkept.act hlatency (.change (·.close))
    exact ih ⟨h.rest.imp fun _ hrest => hrest.imp_right (·.close), h.fits⟩ ht

end Session

/-- Nothing came in yet. -/
lemma received_opening {sim : Simulator RelayCode} (hphase : sim.phase = .notRunning)
    (r : Resolution) (bufferSize : Nat) (context : ContextId) :
    Session.Received (max bufferSize 1) true []
      { world := opening sim r bufferSize (.pipe {}) context } := by
  obtain ⟨teardown, hopening⟩ := opening_eq hphase r bufferSize (.pipe {}) context
  rw [hopening]
  exact ⟨⟨[], rfl, Nat.lt_of_lt_of_le Nat.zero_lt_one (Nat.le_max_right ..),
    ⟨{}, _, [], rfl, rfl, rfl, rfl, rfl, .nothing rfl, rfl, (by cases ·)⟩, (by cases ·)⟩,
    fun _ hnone => (by cases hnone)⟩

/-! ### The text -/

/-- The texts of chunks that make up a well-formed text make up that text exactly if each chunk is
well-formed. -/
lemma join_texts_eq_iff {chunks : List (List UInt8)} {text : List Char}
    (h : decodeStrict? chunks.flatten = some text) :
    String.join (chunks.map fun chunk => String.ofList (decodeLenient chunk)) =
        String.ofList text ↔
      ∀ chunk ∈ chunks, (decodeStrict? chunk).isSome = true := by
  rw [← flatMap_decodeLenient_eq_iff h, ← String.toList_inj, String.toList_join,
    String.toList_ofList, List.flatMap_map]
  simp only [String.toList_ofList]

/-- The texts of the events that print chunks. -/
def textsOf (evs : List (Event (Task RelayCode))) : List String := evs.map fun ev => textOf ev.task

lemma textsOf_eq {evs : List (Event (Task RelayCode))} {chunks : List (List UInt8)}
    (h : evs.map (·.content) = chunks.map fun chunk => (context, printing chunk)) :
    textsOf evs = chunks.map fun chunk => String.ofList (decodeLenient chunk) := by
  have htexts := congrArg (List.map fun content => textOf content.2) h
  rw [List.map_map, List.map_map] at htexts
  exact htexts

/-- Once its loop is left, a relay that has come to the end of its input has printed, for each chunk
that its reader has handed in, the time, the context and the text of the chunk. The chunks fit into
the buffer and make up the input. -/
lemma Session.prints_input {c : Config} {sim : Simulator RelayCode} {r : Resolution}
    (hconfig : Simulator.ofConfig 0 c none = (.ok sim, r)) {latency : Time}
    (hlatency : latency.isNegative = false) (context : ContextId) {acts : List Session.Action}
    {isOpen : Bool} (hbrings : Session.Brings true acts bytes isOpen) :
    let start : Session := { world := opening sim r c.bufferSize.toNat (.pipe {}) context }
    let x := start.play latency context acts
    x.place = .left → x.world.user.reader.exit = some .endOfFile →
      x.world.user.output = transcript r.unit (printed x.dispatched) ∧
        textsOf (printed x.dispatched) =
          x.delivered.map (fun chunk => String.ofList (decodeLenient chunk)) ∧
        x.delivered.flatten = bytes ∧
        ∀ chunk ∈ x.delivered, 0 < chunk.length ∧ chunk.length ≤ max c.bufferSize.toNat 1 := by
  intro start x hleft hexit
  have hbuilt : Built latency context sim := built_ofConfig latency context hconfig
  obtain ⟨s₀, hstart⟩ := hbuilt.start r c.bufferSize.toNat (.pipe {})
  obtain ⟨s, hkept, htold⟩ := (told_opening hbuilt.phase r c.bufferSize.toNat (.pipe {}) context
    s₀).play hstart hlatency acts
  obtain ⟨⟨rest, hrest, hawaits⟩, hfits⟩ := (received_opening hbuilt.phase r c.bufferSize.toNat
    context).play hstart hlatency hbrings
  have hidle : x.stack = [] := htold.idle fun last hplace => by cases hleft.symm.trans hplace
  have hquiet : Quiet x.stack := by
    rw [hidle]
    trivial
  refine ⟨htold.tells.output_eq hquiet, textsOf_eq (hkept.printed_of_left hleft).1, ?_, hfits⟩
  rw [List.nil_append, (hawaits.ended hexit).2.1, List.append_nil] at hrest
  exact hrest.symm

/-- A relay that has come to the end of a well-formed input has printed the text of the input, apart
from the times and the contexts, exactly if none of its chunks ends in the middle of a character, so
that each of them is well-formed. This is the case for every buffer and for whatever comes between
the steps of the loop. -/
theorem text_is_kept_iff {c : Config} {sim : Simulator RelayCode} {r : Resolution}
    (hconfig : Simulator.ofConfig 0 c none = (.ok sim, r)) (latencyMicros : Int)
    (hlatency : (Time.ofUnit r.unit latencyMicros .micros).isNegative = false)
    (context : ContextId) {acts : List Session.Action} {isOpen : Bool}
    (hbrings : Session.Brings true acts bytes isOpen) :
    let latency := Time.ofUnit r.unit latencyMicros .micros
    let start : Session := { world := opening sim r c.bufferSize.toNat (.pipe {}) context }
    let x := start.play latency context acts
    x.place = .left → x.world.user.reader.exit = some .endOfFile →
      x.world.user.output = transcript r.unit (printed x.dispatched) ∧
        textsOf (printed x.dispatched) =
          x.delivered.map (fun chunk => String.ofList (decodeLenient chunk)) ∧
        x.delivered.flatten = bytes ∧
        (∀ chunk ∈ x.delivered, 0 < chunk.length ∧ chunk.length ≤ max c.bufferSize.toNat 1) ∧
        ∀ text, decodeStrict? bytes = some text →
          (String.join (textsOf (printed x.dispatched)) = String.ofList text ↔
            ∀ chunk ∈ x.delivered, (decodeStrict? chunk).isSome = true) := by
  intro latency start x hleft hexit
  obtain ⟨houtput, htexts, hbytes, hfits⟩ := Session.prints_input hconfig hlatency context hbrings
    hleft hexit
  refine ⟨houtput, htexts, hbytes, hfits, fun text htext => ?_⟩
  rw [htexts]
  exact join_texts_eq_iff (hbytes.symm ▸ htext)

/-- A reader with a narrow buffer. -/
def narrow : Config := { bufferSize := 2 }

def narrowSim : Simulator RelayCode := .create 0 .heap 2 .sequential

/-- Three bytes are written, of which the last two are one character. The reader reads them in two
chunks, finds the end of the input, and the loop runs until it is left. -/
def splitActions : List Session.Action :=
  [.change (·.write [97, 195, 169])] ++ List.replicate 14 (.reader 64 false) ++
    [.change (·.close)] ++ List.replicate 6 (.reader 64 false) ++ List.replicate 29 .loop

def split : Session :=
  Session.play (.ofUnit .nanos 0 .micros) ⟨1⟩ splitActions
    { world := opening narrowSim (some .nanos) narrow.bufferSize.toNat (.pipe {}) ⟨1⟩ }

theorem text_is_kept_iff_split_character :
    Simulator.ofConfig 0 narrow none = (.ok narrowSim, some .nanos) ∧
      (Time.ofUnit .nanos 0 .micros).isNegative = false ∧
      Session.Brings true splitActions [97, 195, 169] false ∧ split.place = .left ∧
      split.world.user.reader.exit = some .endOfFile ∧
      decodeStrict? [97, 195, 169] = some ['a', 'é'] ∧
      String.join (textsOf (printed split.dispatched)) ≠ String.ofList ['a', 'é'] := by
  have hconfig : Simulator.ofConfig 0 narrow none = (.ok narrowSim, some .nanos) := rfl
  have hlatency : (Time.ofUnit .nanos 0 .micros).isNegative = false := by decide
  have hbrings : Session.Brings true splitActions [97, 195, 169] false := by
    have hwrite : Session.Brings true [.change (·.write [97, 195, 169])] [97, 195, 169] true :=
      .write [97, 195, 169] (.nothing true)
    have hclose : Session.Brings true [.change (·.close)] [] false := .close (.nothing false)
    exact (((hwrite.append (.undisturbed (by simp) true)).append hclose).append
      (.undisturbed (by simp) false)).append (.undisturbed (by simp) false)
  have hleft : split.place = .left := by decide +kernel
  have hexit : split.world.user.reader.exit = some .endOfFile := by decide +kernel
  have hdelivered : [97, 195] ∈ split.delivered := by decide +kernel
  have htext : decodeStrict? [97, 195, 169] = some ['a', 'é'] := by decide +kernel
  have hspec := text_is_kept_iff hconfig 0 hlatency ⟨1⟩ hbrings
  extract_lets latency start x at hspec
  rw [show x = split from rfl] at hspec
  obtain ⟨-, -, -, -, hkept⟩ := hspec hleft hexit
  refine ⟨hconfig, hlatency, hbrings, hleft, hexit, htext, fun heq => ?_⟩
  have hformed : (decodeStrict? [97, 195]).isSome = true :=
    (hkept ['a', 'é'] htext).mp heq [97, 195] hdelivered
  exact absurd hformed (by decide +kernel)

/-- The command relays a well-formed input, which comes in pieces in rounds, without a loss exactly
if each of the chunks that the reader makes of it is well-formed. -/
theorem relay_keeps_text_iff {c : Config} {sim : Simulator RelayCode} {r : Resolution}
    (hconfig : Simulator.ofConfig 0 c none = (.ok sim, r)) (latencyMicros : Int)
    (hlatency : (Time.ofUnit r.unit latencyMicros .micros).isNegative = false)
    (context : ContextId) (rounds : List (List (List UInt8))) (final : List (List UInt8)) :
    ∃ (evs : List (Event (Task RelayCode))) (chunks : List (List UInt8)) (now : Time) (s : State),
      relay c latencyMicros context rounds final =
          .ok (transcript r.unit evs ++ summary now s) ∧
        textsOf evs = chunks.map (fun chunk => String.ofList (decodeLenient chunk)) ∧
        chunks.flatten = (rounds.flatten ++ final).flatten ∧
        (∀ chunk ∈ chunks, 0 < chunk.length ∧ chunk.length ≤ max c.bufferSize.toNat 1) ∧
        ∀ text, decodeStrict? (rounds.flatten ++ final).flatten = some text →
          (String.join (textsOf evs) = String.ofList text ↔
            ∀ chunk ∈ chunks, (decodeStrict? chunk).isSome = true) := by
  obtain ⟨acts, hbrings, hleft, hexit, hrelay⟩ :=
    relay_is_session hconfig latencyMicros hlatency context rounds final
  obtain ⟨houtput, htexts, hbytes, hfits⟩ := Session.prints_input hconfig hlatency context hbrings
    hleft hexit
  rw [houtput] at hrelay
  refine ⟨_, _, _, _, hrelay, htexts, hbytes, hfits, fun text htext => ?_⟩
  rw [htexts]
  exact join_texts_eq_iff (hbytes.symm ▸ htext)

/-- The end of the first chunk cuts a character, of which two signs of a fault are left. -/
theorem relay_breaks_character :
    decodeStrict? [97, 195, 169] = some ['a', 'é'] ∧
      (relay { bufferSize := 2 } 0 ⟨1⟩ [] [[97, 195, 169]]).toOption =
        some ((stamp .nanos .zero ⟨1⟩ ++ "a\ufffd") ++ (stamp .nanos .zero ⟨1⟩ ++ "\ufffd") ++
          "\nRelayed 2 chunks (3 bytes), virtual time +0ns (Some(Eof))\n") ∧
      "a\ufffd" ++ "\ufffd" ≠ String.ofList ['a', 'é'] := by
  decide +kernel

/-- No character of ASCII can be cut. -/
theorem relay_keeps_ascii {c : Config} {sim : Simulator RelayCode} {r : Resolution}
    (hconfig : Simulator.ofConfig 0 c none = (.ok sim, r)) (latencyMicros : Int)
    (hlatency : (Time.ofUnit r.unit latencyMicros .micros).isNegative = false)
    (context : ContextId) (rounds : List (List (List UInt8))) (final : List (List UInt8))
    (hascii : ∀ b ∈ (rounds.flatten ++ final).flatten, b.toNat < 0x80) :
    ∃ (evs : List (Event (Task RelayCode))) (now : Time) (s : State),
      relay c latencyMicros context rounds final =
          .ok (transcript r.unit evs ++ summary now s) ∧
        String.join (textsOf evs) =
          String.ofList ((rounds.flatten ++ final).flatten.map fun b => Char.ofNat b.toNat) := by
  obtain ⟨evs, chunks, now, s, hrelay, -, hbytes, -, hkept⟩ :=
    relay_keeps_text_iff hconfig latencyMicros hlatency context rounds final
  refine ⟨evs, now, s, hrelay, (hkept _ (decodeStrict?_of_ascii hascii)).mpr fun chunk hchunk => ?_⟩
  have hchunk' : ∀ b ∈ chunk, b.toNat < 0x80 := fun b hb =>
    hascii b (hbytes ▸ List.mem_flatten_of_mem hchunk hb)
  rw [decodeStrict?_of_ascii hchunk']
  rfl

end Relay

end EventKernel
