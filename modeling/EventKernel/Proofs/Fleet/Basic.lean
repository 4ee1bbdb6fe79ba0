import EventKernel.Machine.World
import EventKernel.Proofs.Machine.Run
import EventKernel.Proofs.Reader.Shared

/-!
# Fleets of simulators and readers

Any number of simulators and readers that one thread drives. Callbacks start and stop readers, and
they can drive further simulators, but none that is being driven already. So the thread is at a
stack of runs, one for each simulator that is being driven, and goes on with the run on top.

Meanwhile the threads of the readers go on, other threads send to the inboxes of the simulators, and
descriptors are written to and closed. A call of `stop` takes as long as the thread of its reader
takes to end; the thread of the fleet waits for it and does nothing else.

A fleet also keeps a record of what has come to pass: which teardown events were given to programs,
which ones readers registered, and on which simulator each reader was started last.
-/

namespace EventKernel

variable {K E V : Type}

/-! ### Code -/

/-- What a callback does with readers and with other simulators. -/
inductive Deed (K E : Type) where
  /-- Start the reader `r` on the simulator that runs the callback. -/
  | start (r : Nat) (plan : ReadPlan E)
  | stop (r : Nat)
  /-- Look at the readers. -/
  | look
  /-- Have the simulator `j` carry out code. -/
  | drive (j : Nat) (k : K)

/-- The code of a fleet: that of the user, and deeds. -/
inductive Job (K E : Type) where
  | user (k : K)
  | deed (d : Deed K E)

/-- What a callback learns from a deed. -/
inductive Tidings (E : Type) where
  | started (r : Nat) (answer : Except StartError PUnit)
  /-- No thread could be made for the reader. -/
  | noThread (r : Nat)
  | seen (readers : Nat → Reader E)

/-- What the names of user code stand for. -/
structure FleetCode (K E V : Type) where
  routine : K → Program (Job K E) V PUnit
  observe : Job K E → Nat → EventInfo → V → V × List (Message (Job K E))
  /-- What the state of the user becomes when tidings come in. -/
  note : Tidings E → V → V

/-- The code as the simulators see it. -/
def FleetCode.code (c : FleetCode K E V) : Code (Job K E) V where
  routine
    | .user k => c.routine k
    | .deed _ => .done ()
  observe := c.observe

/-- The deed that a frame asks for. -/
def Frame.deed? : Frame (Job K E) V → Option (Deed K E)
  | .task (.user (.deed d)) => some d
  | _ => none

lemma Frame.eq_of_deed? {frame : Frame (Job K E) V} {d : Deed K E} (h : frame.deed? = some d) :
    frame = .task (.user (.deed d)) := by
  cases frame with
  | task t =>
    cases t with
    | user job =>
      cases job with
      | deed d' => rw [Option.some.inj h]
      | user => cases h
    | stop | watchdog | trickleInterval | trickleFire => cases h
  | exec | loop | next | restore | rearmWatchdog | rearmTrickle | teardown | close | clear =>
    cases h

/-- The handles of teardown events that a frame gives to its program. -/
def Frame.grants (s : Simulator (Job K E)) : Frame (Job K E) V → List EventId
  | .exec (.ask (.sim (.scheduleDestroy k)) _) => (s.scheduleDestroy (.user k)).1.toOption.toList
  | _ => []

/-- Carry out a program that makes requests and nothing else. -/
def Program.carryOut {U α : Type} :
    Program K U α → Simulator K → Memory K U → Option (α × Simulator K × Memory K U)
  | done a, s, m => some (a, s, m)
  | ask r next, s, m =>
    let (a, s, m) := r.apply s m
    (next a).carryOut s m
  | perform .., _, _ | run _, _, _ | destroy _, _, _ => none

/-- Put the simulator `i` back, and its inbox into the memory. -/
def World.put {U : Type} (i : Nat) (s : Simulator K) (m : Memory K U) (w : World K U) :
    World K U where
  sims := w.sims.setIfInBounds i (some s)
  memory := { m with inboxes := m.inboxes.setIfInBounds i s.inbox }

/-- The reader behind a start that came to `new`, but for which no thread could be made. -/
def Reader.forgo (new r : Reader E) : Reader E :=
  { r with teardown := new.teardown, stopFlag := false, exit := none }

/-! ### Fleets -/

structure Fleet (K E V : Type) where
  world : World (Job K E) V
  /-- The simulators that are being driven, with what is left to do there; on top stands the one
  whose callback runs. -/
  runs : List (Nat × List (Frame (Job K E) V)) := []
  readers : Nat → Reader E
  descriptors : String → Descriptor
  /-- Which call of `stop` the thread waits for. -/
  awaited : Option Nat := none
  pipesForbidden : Bool := false
  threadsForbidden : Bool := false
  /-- The teardown events that programs have registered, each with its simulator. -/
  given : List (Nat × EventId) := []
  /-- The teardown events of readers, each with its reader and its simulator. -/
  hooks : List (Nat × Nat × EventId) := []
  /-- The simulator of the latest successful start of each reader. -/
  startedOn : Nat → Option Nat := fun _ => none

namespace Fleet

/-- Idle readers, and no simulators yet. -/
def empty (bufferSize : Nat → Nat) (descriptors : String → Descriptor) (user : V) :
    Fleet K E V where
  world := { memory := { user } }
  readers r := .create (bufferSize r)
  descriptors := descriptors

def setReader (r : Nat) (new : Reader E) (f : Fleet K E V) : Fleet K E V :=
  { f with readers := Function.update f.readers r new }

def tell (c : FleetCode K E V) (x : Tidings E) (f : Fleet K E V) : Fleet K E V :=
  { f with world := f.world.modifyUser (c.note x) }

/-- Have the simulator `j` carry out a program, unless it is being driven already. -/
def drive (j : Nat) (p : Program (Job K E) V PUnit) (f : Fleet K E V) : Fleet K E V :=
  if (f.world.sim? j).isNone || f.runs.any (·.1 = j) then f
  else { f with runs := (j, [.exec p]) :: f.runs }

/-- What a start of the reader `r` on the simulator `i` came to. -/
def afterStart (c : FleetCode K E V) (r i : Nat) (new : Reader E) (f : Fleet K E V) :
    Except StartError PUnit → Fleet K E V
  | .error e => f.tell c (.started r (.error e))
  | .ok _ =>
    let f := { f with hooks := new.teardown.toList.map (r, ·) ++ f.hooks }
    if f.threadsForbidden then (f.setReader r (new.forgo (f.readers r))).tell c (.noThread r)
    else
      { f.setReader r new with startedOn := Function.update f.startedOn r (some i) }.tell c
        (.started r (.ok ()))

/-- Start the reader `r` on the simulator `i`, at whose teardown it is to be stopped. -/
def start (c : FleetCode K E V) (r : Nat) (plan : ReadPlan E) (i : Nat) (s : Simulator (Job K E))
    (f : Fleet K E V) : Fleet K E V :=
  match ((f.readers r).start (.deed (.stop r)) f.pipesForbidden plan).carryOut s f.world.memory with
  | none => f
  | some ((answer, new), s, m) => { f with world := f.world.put i s m }.afterStart c r i new answer

/-- Do a deed for a callback of the simulator `i`, where `frames` are left to do. A call of `stop`
is made first, and then waited for. -/
def carryOut (c : FleetCode K E V) (d : Deed K E) (i : Nat) (s : Simulator (Job K E))
    (frames : List (Frame (Job K E) V)) (rest : List (Nat × List (Frame (Job K E) V)))
    (f : Fleet K E V) : Fleet K E V :=
  let g := { f with runs := (i, frames) :: rest }
  match d with
  | .start r plan => g.start c r plan i s
  | .look => g.tell c (.seen f.readers)
  | .drive j k => g.drive j (c.routine k)
  | .stop r =>
    match f.awaited with
    | none =>
      { f.setReader r (f.readers r).callStop with awaited := some (f.readers r).stops.length }
    | some n => if (f.readers r).stops[n]? = some .returned then { g with awaited := none } else f

/-- Make a step of the simulator `i`. -/
def advance (c : FleetCode K E V) (i : Nat) (s : Simulator (Job K E)) (frame : Frame (Job K E) V)
    (frames : List (Frame (Job K E) V)) (rest : List (Nat × List (Frame (Job K E) V)))
    (f : Fleet K E V) : Fleet K E V :=
  let a := Machine.step c.code ⟨s, f.world.memory, frame :: frames, false⟩
  { f with
    world := f.world.put i a.sim a.memory
    runs := (i, a.stack) :: rest
    given := (frame.grants s).map (i, ·) ++ f.given }

/-- A step of the thread that drives the fleet. -/
def step (c : FleetCode K E V) (f : Fleet K E V) : Fleet K E V :=
  match f.runs with
  | [] => f
  | (_, []) :: rest => { f with runs := rest }
  | (i, frame :: frames) :: rest =>
    match f.world.sim? i, frame.deed? with
    | none, _ => f
    | some s, some d => f.carryOut c d i s frames rest
    | some s, none => f.advance c i s frame frames rest

/-- Another actor of the reader `r` makes a step. All calls of `stop` come from the thread that
drives the fleet. -/
def actReader (r : Nat) (x : SharedReader.Action E) (f : Fleet K E V) : Fleet K E V :=
  match x with
  | .callStop => f
  | x =>
    let a := SharedReader.act { reader := f.readers r, descriptors := f.descriptors } x
    { f.setReader r a.reader with descriptors := a.descriptors }

/-! ### Runs -/

/-- What can happen to a fleet. -/
inductive Move (K E V : Type) where
  | step
  /-- A new simulator; its number is its identity. -/
  | add (kind : QueueKind) (buckets : Nat) (sync : SyncMode)
  /-- While no simulator is being driven, the state of the user changes and one is driven. -/
  | enter (i : Nat) (g : V → V) (p : Program (Job K E) V PUnit)
  /-- Another thread makes a request to the inbox of a simulator. -/
  | remote (i : Nat) (r : InboxRequest (Job K E))
  | reader (r : Nat) (x : SharedReader.Action E)
  /-- From now on pipes and threads can be made, or not. -/
  | forbid (pipes threads : Bool)

def move (c : FleetCode K E V) (f : Fleet K E V) : Move K E V → Fleet K E V
  | .step => f.step c
  | .add kind buckets sync =>
    { f with world := f.world.add (some (.create f.world.sims.size kind buckets sync)) }
  | .enter i g p =>
    if f.runs.isEmpty then { f with world := f.world.modifyUser g }.drive i p else f
  | .remote i r => { f with world := f.world.askInbox i r }
  | .reader r x => f.actReader r x
  | .forbid pipes threads => { f with pipesForbidden := pipes, threadsForbidden := threads }

/-- Make moves in turn. -/
def play (c : FleetCode K E V) (moves : List (Move K E V)) (f : Fleet K E V) : Fleet K E V :=
  moves.foldl (move c) f

@[simp] lemma play_nil (c : FleetCode K E V) (f : Fleet K E V) : play c [] f = f := rfl

@[simp] lemma play_cons (c : FleetCode K E V) (mv : Move K E V) (moves : List (Move K E V))
    (f : Fleet K E V) : play c (mv :: moves) f = play c moves (move c f mv) := rfl

/-- What holds of every move of a run and the state it is made in. -/
def Along (c : FleetCode K E V) (P : Fleet K E V → Move K E V → Prop) :
    List (Move K E V) → Fleet K E V → Prop
  | [], _ => True
  | mv :: moves, f => P f mv ∧ Along c P moves (move c f mv)

instance (c : FleetCode K E V) (P : Fleet K E V → Move K E V → Prop)
    [∀ f mv, Decidable (P f mv)] : ∀ moves f, Decidable (Along c P moves f)
  | [], _ => .isTrue trivial
  | mv :: moves, f =>
    have := instDecidableAlong c P moves (move c f mv)
    inferInstanceAs (Decidable (P f mv ∧ Along c P moves (move c f mv)))

/-- The teardown event that the program on top is about to cancel or to remove, with the simulator
that the program runs on. -/
def withdraws? (f : Fleet K E V) : Option (Nat × EventId) :=
  match f.runs with
  | (i, .exec (.ask (.sim (.cancel id)) _) :: _) :: _
  | (i, .exec (.ask (.sim (.remove id)) _) :: _) :: _ => if id.isDestroy then some (i, id) else none
  | _ => none

/-- Programs cancel and remove teardown events only with handles that the same simulator has given
to a program. -/
def OwnHandles (f : Fleet K E V) : Move K E V → Prop
  | .step => f.withdraws?.all (· ∈ f.given) = true
  | _ => True

instance (f : Fleet K E V) : ∀ mv, Decidable (f.OwnHandles mv)
  | .step => inferInstanceAs (Decidable (_ = true))
  | .add .. | .enter .. | .remote .. | .reader .. | .forbid .. => .isTrue trivial

end Fleet

/-! ### Starting a reader -/

lemma Program.carryOut_bind {U α β : Type} (p : Program K U α) (f : α → Program K U β)
    (s : Simulator K) (m : Memory K U) :
    (p >>= f).carryOut s m = (p.carryOut s m).bind fun x => (f x.1).carryOut x.2.1 x.2.2 := by
  induction p generalizing s m with
  | ask r next ih => exact ih _ _ _
  | done | perform | run | destroy => rfl

/-- A program that makes requests and nothing else is carried out by the steps of the machine, so a
start of a reader does to its simulator what the program of the start does there. -/
lemma Machine.play_of_carryOut {U α : Type} (code : Code K U)
    (f : α → Program K U PUnit) (rest : List (Frame K U)) {p : Program K U α} {a : α}
    {s t : Simulator K} {m m' : Memory K U} (h : p.carryOut s m = some (a, t, m')) :
    ∃ n, play code (List.replicate n .step) ⟨s, m, .exec (p >>= f) :: rest, false⟩ =
      ⟨t, m', .exec (f a) :: rest, false⟩ := by
  induction p generalizing s m with
  | done b =>
    cases h
    exact ⟨0, rfl⟩
  | ask r next ih =>
    obtain ⟨n, hn⟩ := ih _ h
    exact ⟨n + 1, hn⟩
  | perform | run | destroy => cases h

namespace Reader

/-- What a start on a simulator comes to: the answer, the reader and the simulator. -/
inductive StartsOn (k : K) (plan : ReadPlan E) (r : Reader E) (s : Simulator K) :
    Except StartError PUnit → Reader E → Simulator K → Prop where
  | refused (e : StartError) : StartsOn k plan r s (.error e) r s
  /-- The teardown event of an earlier start is still pending here. -/
  | kept {id : EventId} (hidle : r.state = .idle) (hteardown : r.teardown = some (s.identity, id))
      (hpending : s.isExpired id = false) : StartsOn k plan r s (.ok ()) (r.spawn plan) s
  | renewed (hidle : r.state = .idle) (halive : s.phase ≠ .destroyed) :
      StartsOn k plan r s (.ok ())
        ({ r with teardown := some (s.identity, .destroy s.sequences.next) }.spawn plan)
        (s.scheduleDestroy (.user k)).2

/-- Whether the latest teardown event of a reader is pending on a simulator. -/
lemma carryOut_teardownPending {U : Type} (r : Reader E) (s : Simulator K) (m : Memory K U) :
    ∃ b, r.teardownPending.carryOut s m = some (b, s, m) ∧
      (b = true → ∃ id, r.teardown = some (s.identity, id) ∧ s.isExpired id = false) := by
  rw [teardownPending]
  split
  · exact ⟨false, rfl, Bool.noConfusion⟩
  · next owner id hteardown =>
    by_cases hown : owner = s.identity
    · subst hown
      refine ⟨!s.isExpired id, ?_, fun hpending => ⟨id, hteardown, Bool.not_eq_true' _ ▸ hpending⟩⟩
      show Program.carryOut (if s.identity = s.identity then _ else _) s m = _
      rw [if_pos rfl]
      rfl
    · refine ⟨false, ?_, Bool.noConfusion⟩
      show Program.carryOut (if owner = s.identity then _ else _) s m = _
      rw [if_neg hown]
      rfl

/-- A start asks its simulator for nothing that takes time. -/
lemma carryOut_start {U : Type} (k : K) (pipesForbidden : Bool) (plan : ReadPlan E) (r : Reader E)
    (s : Simulator K) (m : Memory K U) :
    ∃ answer new t, StartsOn k plan r s answer new t ∧
      (r.start k pipesForbidden plan).carryOut s m = some ((answer, new), t, m) := by
  rw [start]
  split
  · next e he => exact ⟨_, _, _, .refused e, rfl⟩
  · next hnone =>
    have hidle := idle_of_obstacle? hnone
    obtain ⟨pending, hcarry, hpending⟩ := r.carryOut_teardownPending s m
    rw [Program.carryOut_bind, hcarry, Option.bind_some]
    cases pending with
    | true =>
      obtain ⟨id, hteardown, hlive⟩ := hpending rfl
      exact ⟨_, _, _, .kept hidle hteardown hlive, rfl⟩
    | false =>
      obtain ⟨identity, scheduler, sequences, teardown, inbox, now, context, phase⟩ := s
      cases phase with
      | destroyed => exact ⟨_, _, _, .refused (.refused .destroyed), rfl⟩
      | notRunning | running | stopped =>
        exact ⟨_, _, _, .renewed hidle Phase.noConfusion, rfl⟩

end Reader

/-! ### What moves come to -/

namespace Fleet

/-- What a move of a fleet comes to. -/
inductive Outcome (c : FleetCode K E V) (f : Fleet K E V) : Move K E V → Fleet K E V → Prop where
  | idle (mv : Move K E V) : Outcome c f mv f
  | finish {i : Nat} {rest : List (Nat × List (Frame (Job K E) V))}
      (hruns : f.runs = (i, []) :: rest) : Outcome c f .step { f with runs := rest }
  | advance {i : Nat} {frame : Frame (Job K E) V} {frames : List (Frame (Job K E) V)}
      {rest : List (Nat × List (Frame (Job K E) V))} {s : Simulator (Job K E)}
      {a : Machine (Job K E) V} (hruns : f.runs = (i, frame :: frames) :: rest)
      (hdeed : frame.deed? = none) (hs : f.world.sim? i = some s)
      (ha : a = Machine.step c.code ⟨s, f.world.memory, frame :: frames, false⟩) :
      Outcome c f .step { f with
        world := f.world.put i a.sim a.memory
        runs := (i, a.stack) :: rest
        given := (frame.grants s).map (i, ·) ++ f.given }
  | starts {i r : Nat} {plan : ReadPlan E} {frames : List (Frame (Job K E) V)}
      {rest : List (Nat × List (Frame (Job K E) V))} {s t : Simulator (Job K E)}
      {answer : Except StartError PUnit} {new : Reader E}
      (hruns : f.runs = (i, .task (.user (.deed (.start r plan))) :: frames) :: rest)
      (hs : f.world.sim? i = some s)
      (hstarts : (f.readers r).StartsOn (.deed (.stop r)) plan s answer new t) :
      Outcome c f .step
        ({ f with
          world := f.world.put i t f.world.memory
          runs := (i, frames) :: rest }.afterStart c r i new answer)
  | look {i : Nat} {frames : List (Frame (Job K E) V)}
      {rest : List (Nat × List (Frame (Job K E) V))}
      (hruns : f.runs = (i, .task (.user (.deed .look)) :: frames) :: rest) :
      Outcome c f .step ({ f with runs := (i, frames) :: rest }.tell c (.seen f.readers))
  | drive {i j : Nat} {k : K} {frames : List (Frame (Job K E) V)}
      {rest : List (Nat × List (Frame (Job K E) V))}
      (hruns : f.runs = (i, .task (.user (.deed (.drive j k))) :: frames) :: rest) :
      Outcome c f .step ({ f with runs := (i, frames) :: rest }.drive j (c.routine k))
  /-- A call of `stop` is made. -/
  | calls {i r : Nat} {frames : List (Frame (Job K E) V)}
      {rest : List (Nat × List (Frame (Job K E) V))}
      (hruns : f.runs = (i, .task (.user (.deed (.stop r))) :: frames) :: rest)
      (hnone : f.awaited = none) :
      Outcome c f .step
        { f.setReader r (f.readers r).callStop with awaited := some (f.readers r).stops.length }
  /-- A call of `stop` has returned. -/
  | returns {i r n : Nat} {frames : List (Frame (Job K E) V)}
      {rest : List (Nat × List (Frame (Job K E) V))}
      (hruns : f.runs = (i, .task (.user (.deed (.stop r))) :: frames) :: rest)
      (hn : f.awaited = some n) (hreturned : (f.readers r).stops[n]? = some .returned) :
      Outcome c f .step { f with runs := (i, frames) :: rest, awaited := none }
  | add (kind : QueueKind) (buckets : Nat) (sync : SyncMode) :
      Outcome c f (.add kind buckets sync)
        { f with world := f.world.add (some (.create f.world.sims.size kind buckets sync)) }
  | enter (i : Nat) (g : V → V) (p : Program (Job K E) V PUnit) (hruns : f.runs = []) :
      Outcome c f (.enter i g p) ({ f with world := f.world.modifyUser g }.drive i p)
  | remote (i : Nat) (r : InboxRequest (Job K E)) :
      Outcome c f (.remote i r) { f with world := f.world.askInbox i r }
  | reader (r : Nat) {x : SharedReader.Action E} {b : SharedReader E} (hcall : x ≠ .callStop)
      (hx : SharedReader.Outcome { reader := f.readers r, descriptors := f.descriptors } x b) :
      Outcome c f (.reader r x)
        { f.setReader r b.reader with descriptors := b.descriptors }
  | forbid (pipes threads : Bool) :
      Outcome c f (.forbid pipes threads)
        { f with pipesForbidden := pipes, threadsForbidden := threads }

lemma outcome_carryOut (c : FleetCode K E V) (f : Fleet K E V) {d : Deed K E} {i : Nat}
    {s : Simulator (Job K E)} {frames : List (Frame (Job K E) V)}
    {rest : List (Nat × List (Frame (Job K E) V))}
    (hruns : f.runs = (i, .task (.user (.deed d)) :: frames) :: rest)
    (hs : f.world.sim? i = some s) : Outcome c f .step (f.carryOut c d i s frames rest) := by
  cases d with
  | start r plan =>
    obtain ⟨answer, new, t, hstarts, hcarry⟩ := (f.readers r).carryOut_start (.deed (.stop r))
      f.pipesForbidden plan s f.world.memory
    have hstart : f.carryOut c (.start r plan) i s frames rest =
        { f with
          world := f.world.put i t f.world.memory
          runs := (i, frames) :: rest }.afterStart c r i new answer := by
      rw [carryOut, start, hcarry]
    rw [hstart]
    exact .starts hruns hs hstarts
  | look => exact .look hruns
  | drive j k => exact .drive hruns
  | stop r =>
    rw [carryOut]
    split
    · next hnone => exact .calls hruns hnone
    · next n hn =>
      split
      · next hreturned => exact .returns hruns hn hreturned
      · exact .idle _

lemma outcome_step (c : FleetCode K E V) (f : Fleet K E V) : Outcome c f .step (f.step c) := by
  rw [step]
  split
  · exact .idle _
  · next i rest hruns => exact .finish hruns
  · next i frame frames rest hruns =>
    split
    · exact .idle _
    · next s d hs hdeed =>
      rw [Frame.eq_of_deed? hdeed] at hruns
      exact f.outcome_carryOut c hruns hs
    · next s hs hdeed => exact .advance hruns hdeed hs rfl

lemma outcome_move (c : FleetCode K E V) (f : Fleet K E V) (mv : Move K E V) :
    Outcome c f mv (f.move c mv) := by
  cases mv with
  | step => exact f.outcome_step c
  | add kind buckets sync => exact .add kind buckets sync
  | remote i r => exact .remote i r
  | forbid pipes threads => exact .forbid pipes threads
  | enter i g p =>
    rw [move]
    split
    · next hruns => exact .enter i g p (List.isEmpty_iff.mp hruns)
    · exact .idle _
  | reader r x =>
    cases x with
    | callStop => exact .idle _
    | _ => exact .reader r (by simp) (SharedReader.outcome_act _ _)

end Fleet

end EventKernel
