import Mathlib.Data.List.Induction
import EventKernel.Proofs.Machine.Teardown

/-!
# Calls from within teardown

While a simulator is torn down its loop does not run. So the callback of a teardown event can itself
run the loop, or tear the simulator down: the call is refused while a loop runs and once the inbox
is closed, and it is accepted otherwise.

What teardown guarantees is the order in which calls end. A call that is accepted after teardown has
begun is made by a teardown event, and a loop that takes events then was started by one. Once a call
to tear the simulator down has come back, all further ones are refused.
-/

namespace EventKernel

variable {K U : Type}

/-- Whether a frame is a round of the loop. -/
def Frame.isRound : Frame K U → Bool
  | .loop | .next => true
  | .exec _ | .task _ | .restore _ | .rearmWatchdog .. | .rearmTrickle .. | .teardown | .close
  | .clear => false

namespace Machine

variable {a b : Machine K U} {turns : List (Turn K)} {keys : List EventKey}
  {rest base : List (Frame K U)}

/-! ### Calls and their answers -/

/-- What a program can call for that takes more than one step. -/
inductive Call where
  | run | destroy

namespace Call

/-- The program that makes a call and goes on with the answer. -/
def program : Call → (Except SimError PUnit → Program K U PUnit) → Program K U PUnit
  | run => .run
  | destroy => .destroy

/-- The error of a call that is made while a loop runs. -/
def busy : Call → SimError
  | run => .alreadyRunning
  | destroy => .notStopped

/-- The frame that carries a call out. -/
def frame : Call → Frame K U
  | run => .loop
  | destroy => .teardown

end Call

/-- Whether a loop runs. -/
def Looping (a : Machine K U) : Prop := ∃ f ∈ a.stack, f.isRound = true

lemma Nested.running_iff {phase : Phase} {stack : List (Frame K U)} (h : Nested phase stack) :
    phase = .running ↔ ∃ f ∈ stack, f.isRound = true := by
  cases h with
  | outside hphase hall =>
    refine ⟨fun hrunning => absurd hrunning hphase, ?_⟩
    rintro ⟨f, hf, hround⟩
    have houter := hall f hf
    cases f <;> simp_all [Frame.isRound, Frame.IsOuter]
  | @inside f above below habove hf =>
    refine ⟨fun _ => ⟨f, List.mem_append_right _ List.mem_cons_self, ?_⟩, fun _ => rfl⟩
    rcases hf with rfl | rfl <;> rfl
  | dispatched => exact ⟨fun _ => ⟨.loop, by simp, rfl⟩, fun _ => rfl⟩

section

variable (code : Code K U) (c : Call) {next : Except SimError PUnit → Program K U PUnit}
  (hstack : a.stack = .exec (c.program next) :: rest)
include hstack

lemma Call.step_of_running (hb : a.broken = false) (hphase : a.sim.phase = .running) :
    step code a = { a with stack := .exec (next (.error c.busy)) :: rest } := by
  obtain ⟨s, m, stack, broken⟩ := a
  obtain rfl : stack = .exec (c.program next) :: rest := hstack
  obtain rfl : broken = false := hb
  cases c <;> (rw [step, stepFrame, program, exec, hphase]; rfl)

lemma Call.step_of_destroyed (hb : a.broken = false) (hphase : a.sim.phase = .destroyed) :
    step code a = { a with stack := .exec (next (.error .destroyed)) :: rest } := by
  obtain ⟨s, m, stack, broken⟩ := a
  obtain rfl : stack = .exec (c.program next) :: rest := hstack
  obtain rfl : broken = false := hb
  cases c <;> (rw [step, stepFrame, program, exec, hphase])

lemma Call.stack_step (hrunning : a.sim.phase ≠ .running) (hdestroyed : a.sim.phase ≠ .destroyed) :
    (step code a).stack = c.frame :: .exec (next (.ok ())) :: rest := by
  obtain ⟨s, m, stack, broken⟩ := a
  obtain rfl : stack = .exec (c.program next) :: rest := hstack
  cases hphase : s.phase with
  | running => exact absurd hphase hrunning
  | destroyed => exact absurd hphase hdestroyed
  | notRunning | stopped => cases c <;> (rw [step, stepFrame, program, exec, hphase]; rfl)

/-- A call is accepted only while no loop runs, before the inbox is closed. -/
lemma Call.phase_of_accepted (hb : a.broken = false)
    (haccepted : (step code a).stack = c.frame :: .exec (next (.ok ())) :: rest) :
    a.sim.phase ≠ .running ∧ a.sim.phase ≠ .destroyed := by
  constructor
  · intro hphase
    rw [c.step_of_running code hstack hb hphase] at haccepted
    cases c <;> cases haccepted
  · intro hphase
    rw [c.step_of_destroyed code hstack hb hphase] at haccepted
    cases c <;> cases haccepted

end

/-! ### Where loops come from -/

/-- What lies below each round of a loop. -/
def loopBases : List (Frame K U) → List (List (Frame K U))
  | [] => []
  | f :: rest => if f.isRound then rest :: loopBases rest else loopBases rest

lemma loopBases_eq_nil {stack : List (Frame K U)} (h : ∀ f ∈ stack, f.IsOuter) :
    loopBases stack = [] := by
  induction stack with
  | nil => rfl
  | cons f stack ih =>
    have hf := h f List.mem_cons_self
    rw [loopBases, if_neg, ih fun g hg => h g (List.mem_cons_of_mem f hg)]
    cases f <;> simp_all [Frame.isRound, Frame.IsOuter]

/-- Only a call of `run` puts a loop on the stack. -/
lemma eq_run_of_exec {p q : Program K U PUnit} {s : Simulator K} {m : Memory K U}
    (hstack : (exec p s m rest).stack = .loop :: .exec q :: rest) :
    ∃ next, p = .run next ∧ q = next (.ok ()) := by
  cases p with
  | done =>
    have hlength := congrArg List.length hstack
    simp only [exec, List.length_cons] at hlength
    omega
  | ask | perform => cases hstack
  | destroy =>
    rw [exec] at hstack
    split at hstack <;> cases hstack
  | run next =>
    rw [exec] at hstack
    split at hstack
    · cases hstack
    · cases hstack
    · cases hstack
      exact ⟨next, rfl, rfl⟩
    · cases hstack
      exact ⟨next, rfl, rfl⟩

/-- A step leaves the loops where they are, unless a program calls for one. -/
lemma Leaves.loopBases {s : Simulator K} {f : Frame K U} {phase : Phase} {top : List (Frame K U)}
    (h : Leaves s f phase top) {below : List (Frame K U)}
    (hbelow : below ∈ Machine.loopBases (top ++ rest)) :
    below ∈ Machine.loopBases (f :: rest) ∨
      ∃ p q, f = .exec p ∧ top = [.loop, .exec q] ∧ below = .exec q :: rest := by
  cases h with
  | run p q =>
    rcases List.mem_cons.mp hbelow with rfl | hbelow
    · exact Or.inr ⟨p, q, rfl, rfl, rfl⟩
    · exact Or.inl hbelow
  | finishRun => exact Or.inl (List.mem_cons_of_mem _ hbelow)
  | _ => exact Or.inl hbelow

lemma loopBases_step (code : Code K U) (h : b.sim.Timely keys) {below : List (Frame K U)}
    (hbelow : below ∈ loopBases (step code b).stack) :
    below ∈ loopBases b.stack ∨
      ∃ next rest, b.stack = .exec (.run next) :: rest ∧ below = .exec (next (.ok ())) :: rest := by
  obtain ⟨s, m, stack, broken⟩ := b
  cases stack with
  | nil => exact Or.inl hbelow
  | cons f rest =>
    obtain ⟨top, hleaves, htop⟩ := leaves_stepFrame code f h m rest
    rw [step, htop] at hbelow
    rcases hleaves.loopBases hbelow with hbelow | ⟨p, q, rfl, rfl, rfl⟩
    · exact Or.inl hbelow
    · obtain ⟨next, rfl, rfl⟩ := eq_run_of_exec htop
      exact Or.inr ⟨next, rest, rfl, rfl⟩

lemma play_concat (code : Code K U) (moves : List (Move K U)) (mv : Move K U)
    (a : Machine K U) : play code (moves ++ [mv]) a = move code (play code moves a) mv :=
  List.foldl_concat ..

/-- The loop that stands on `below` was started in the course of a run, when a program called for
it. -/
def StartedIn (code : Code K U) (moves : List (Move K U)) (a : Machine K U)
    (below : List (Frame K U)) : Prop :=
  ∃ first last next rest, moves = first ++ .step :: last ∧
    (play code first a).stack = .exec (.run next) :: rest ∧ below = .exec (next (.ok ())) :: rest

/-- A loop that did not run at the beginning was started since. -/
lemma startedIn_play (code : Code K U) (moves : List (Move K U)) (h : a.sim.Timely keys)
    (hb : a.broken = false) (hnone : loopBases a.stack = []) {below : List (Frame K U)}
    (hbelow : below ∈ loopBases (play code moves a).stack) : StartedIn code moves a below := by
  induction moves using List.reverseRecOn generalizing below with
  | nil =>
    rw [play_nil, hnone] at hbelow
    cases hbelow
  | append_singleton moves mv ih =>
    have hwas : below ∈ loopBases (play code moves a).stack →
        StartedIn code (moves ++ [mv]) a below := by
      intro hbelow
      obtain ⟨first, last, next, rest, rfl, hstack, hbelow⟩ := ih hbelow
      exact ⟨first, last ++ [mv], next, rest, by simp, hstack, hbelow⟩
    obtain ⟨-, h', -⟩ := timely_play code moves h hb
    rw [play_concat] at hbelow
    cases mv with
    | remote r => exact hwas hbelow
    | enter f p =>
      rw [move] at hbelow
      split at hbelow
      · cases hbelow
      · exact hwas hbelow
    | step =>
      rcases loopBases_step code h' hbelow with hbelow | ⟨next, rest, hstack, hbelow⟩
      · exact hwas hbelow
      · exact ⟨moves, [], next, rest, rfl, hstack, hbelow⟩

/-! ### The stack while teardown is under way -/

/-- Whatever stands above a call to tear the simulator down, the call has got to its list of
events. -/
lemma UnderWay.of_cons {g : Frame K U} (hu : a.UnderWay base) (hc : a.Closing)
    (hstack : a.stack = g :: rest) (hg : g ≠ .teardown ∧ g ≠ .close ∧ g ≠ .clear) :
    ∃ above, rest = above ++ .teardown :: base := by
  obtain ⟨above, f, habove, hf⟩ := hu
  rw [hstack] at habove
  cases above with
  | nil =>
    obtain ⟨rfl, -⟩ := List.cons.inj habove
    rcases hf with rfl | rfl | rfl
    · exact absurd rfl hg.1
    · exact absurd rfl hg.2.1
    · exact absurd rfl hg.2.2
  | cons g' above =>
    obtain ⟨-, rfl⟩ := List.cons.inj habove
    have hmem : f ∈ a.stack.tail := by
      rw [hstack, List.tail_cons]
      exact List.mem_append_right _ List.mem_cons_self
    obtain ⟨hclose, hclear⟩ := hc.tail f hmem
    rcases hf with rfl | hf | hf
    · exact ⟨above, rfl⟩
    · exact absurd hf hclose
    · exact absurd hf hclear

/-! ### Runs -/

lemma Looping.phase_eq (ho : a.Orderly) (hl : a.Looping) : a.sim.phase = .running :=
  ho.nested.running_iff.mpr hl

lemma not_looping_of_destroyed (ho : a.Orderly) (hphase : a.sim.phase = .destroyed) :
    ¬a.Looping := by
  intro hl
  rw [hl.phase_eq ho] at hphase
  cases hphase

lemma destroyed_play (code : Code K U) (moves : List (Move K U)) (hi : a.InTurn turns)
    (h : a.sim.Timely keys) (hb : a.broken = false) (hphase : a.sim.phase = .destroyed) :
    (play code moves a).sim.phase = .destroyed := by
  induction moves generalizing a keys turns with
  | nil => exact hphase
  | cons mv moves ih =>
    obtain ⟨hb', h', -⟩ := timely_move code mv h hb
    exact ih (hi.move code mv h hb) h' hb' (destroyed_move code mv hi.orderly hi.closing hphase)

lemma takenBy?_of_destroyed (ho : a.Orderly) (hphase : a.sim.phase = .destroyed) (mv : Move K U) :
    a.takenBy? mv = none := by
  cases mv with
  | remote | enter => rfl
  | step =>
    rw [takenBy?, Option.eq_none_iff_forall_ne_some]
    intro p htaken
    obtain ⟨below, hstack⟩ := stack_of_taken? htaken
    refine not_looping_of_destroyed ho hphase ⟨.next, ?_, rfl⟩
    rw [hstack]
    exact List.mem_cons_self

/-- Once a simulator is torn down, nothing is taken off its queue. -/
lemma taken_of_destroyed (code : Code K U) (moves : List (Move K U)) (hi : a.InTurn turns)
    (h : a.sim.Timely keys) (hb : a.broken = false) (hphase : a.sim.phase = .destroyed) :
    taken code moves a = [] := by
  induction moves generalizing a keys turns with
  | nil => rfl
  | cons mv moves ih =>
    obtain ⟨hb', h', -⟩ := timely_move code mv h hb
    rw [taken, takenBy?_of_destroyed hi.orderly hphase mv]
    exact ih (hi.move code mv h hb) h' hb' (destroyed_move code mv hi.orderly hi.closing hphase)

/-- A loop that takes an event after teardown has begun was started by a teardown event. -/
lemma exists_run_of_taken? {code : Code K U} {moves : List (Move K U)}
    {p : EventId × Event (Task K)}
    (hi : (play code moves a).InTurn turns)
    (hu : (play code moves a).UnderWay base ∨ (play code moves a).sim.phase = .destroyed)
    (h : a.sim.Timely keys) (hb : a.broken = false) (hnone : loopBases a.stack = [])
    (htaken : (play code moves a).taken? = some p) :
    ∃ first last next above, moves = first ++ .step :: last ∧
      (play code first a).stack = .exec (.run next) :: above ++ .teardown :: base ∧
      (play code moves a).stack =
        .next :: .exec (next (.ok ())) :: above ++ .teardown :: base := by
  obtain ⟨below, hstack⟩ := stack_of_taken? htaken
  have hlooping : (play code moves a).Looping := by
    refine ⟨.next, ?_, rfl⟩
    rw [hstack]
    exact List.mem_cons_self
  have hmem : below ∈ loopBases (play code moves a).stack := by
    rw [hstack]
    exact List.mem_cons_self
  obtain ⟨first, last, next, rest, hmoves, hfirst, hbelow⟩ :=
    startedIn_play code moves h hb hnone hmem
  have hunder := hu.resolve_right fun hphase => not_looping_of_destroyed hi.orderly hphase hlooping
  obtain ⟨above, habove⟩ := hunder.of_cons hi.closing hstack (by simp)
  rw [hbelow] at habove
  cases above with
  | nil => cases habove
  | cons f above =>
    obtain ⟨rfl, rfl⟩ := List.cons.inj habove
    refine ⟨first, last, next, above, hmoves, hfirst, ?_⟩
    rw [hstack, hbelow]
    rfl

/-- A call to run the loop or to tear the simulator down is refused, and nothing else happens, if a
loop runs or the inbox is closed; otherwise it is accepted, also while the simulator is torn down. A
call that is accepted after teardown has begun is made by a teardown event, and an event that is
taken then is taken by a loop that a teardown event has called for. So calls to tear down that
succeed are nested: once one has come back, no event is taken, and every call is refused. -/
theorem calls_in_teardown (code : Code K U) (identity : Nat) (kind : QueueKind) (buckets : Nat)
    (sync : SyncMode) (m : Memory K U) (moves : List (Move K U)) :
    let a := play code moves (idle identity kind buckets sync m)
    (∀ (c : Call) next rest, a.stack = .exec (c.program next) :: rest →
      (a.Looping → step code a = { a with stack := .exec (next (.error c.busy)) :: rest }) ∧
      (a.sim.phase = .destroyed →
        step code a = { a with stack := .exec (next (.error .destroyed)) :: rest }) ∧
      (¬a.Looping → a.sim.phase ≠ .destroyed →
        (step code a).stack = c.frame :: .exec (next (.ok ())) :: rest)) ∧
    ∀ next rest, a.stack = .exec (.destroy next) :: rest →
      (step code a).stack = .teardown :: .exec (next (.ok ())) :: rest →
      ∀ more, let b := play code more (step code a)
        let base := .exec (next (.ok ())) :: rest
        (∀ (c : Call) next' rest', b.stack = .exec (c.program next') :: rest' →
          (step code b).stack = c.frame :: .exec (next' (.ok ())) :: rest' →
          ¬b.Looping ∧ ∃ above, rest' = above ++ .teardown :: base) ∧
        (∀ p, b.taken? = some p → ∃ first last next' above, more = first ++ .step :: last ∧
          (play code first (step code a)).stack = .exec (.run next') :: above ++ .teardown :: base ∧
          b.stack = .next :: .exec (next' (.ok ())) :: above ++ .teardown :: base) ∧
        (b.stack = base → ∀ later, let d := play code later b
          d.sim.phase = .destroyed ∧ taken code later b = [] ∧
          ∀ (c : Call) next' rest', d.stack = .exec (c.program next') :: rest' →
            step code d = { d with stack := .exec (next' (.error .destroyed)) :: rest' }) := by
  intro a
  obtain ⟨hb, h, -⟩ := timely_play code moves (a := idle identity kind buckets sync m)
    (Simulator.timely_create ..) rfl
  have hi : a.InTurn (chronicle code moves (idle identity kind buckets sync m)) :=
    (inTurn_idle identity kind buckets sync m).play code moves (Simulator.timely_create ..) rfl
  refine ⟨fun c next rest hstack => ⟨?_, ?_, ?_⟩, ?_⟩
  · exact fun hl => c.step_of_running code hstack hb (hl.phase_eq hi.orderly)
  · exact c.step_of_destroyed code hstack hb
  · exact fun hl hdestroyed => c.stack_step code hstack
      (fun hphase => hl (hi.orderly.nested.running_iff.mp hphase)) hdestroyed
  · intro next rest hstack haccepted more b base
    obtain ⟨hb₁, h₁, -⟩ := timely_move code .step h hb
    have hi₁ := hi.move code .step h hb
    have hb₂ := timely_play code more h₁ hb₁
    have hi₂ := hi₁.play code more h₁ hb₁
    have hbegun : (step code a).UnderWay base := ⟨[], .teardown, haccepted, Or.inl rfl⟩
    have hu := underWay_play code more (Or.inl hbegun) hi₁ h₁ hb₁
    refine ⟨?_, ?_, ?_⟩
    · intro c next' rest' hstack' haccepted'
      obtain ⟨hrunning, hdestroyed⟩ := c.phase_of_accepted code hstack' hb₂.1 haccepted'
      refine ⟨fun hl => hrunning (hl.phase_eq hi₂.orderly), ?_⟩
      exact (hu.resolve_right hdestroyed).of_cons hi₂.closing hstack' (by simp)
    · intro p htaken
      have hrunning := (Call.phase_of_accepted code .destroy hstack hb haccepted).1
      have houter := hi.orderly.nested.isOuter hrunning
      have hnone : loopBases (step code a).stack = [] := by
        rw [haccepted]
        refine loopBases_eq_nil fun f hf => ?_
        rcases List.mem_cons.mp hf with rfl | hf
        · trivial
        rcases List.mem_cons.mp hf with rfl | hf
        · trivial
        · exact houter f (by rw [hstack]; exact List.mem_cons_of_mem _ hf)
      exact exists_run_of_taken? hi₂ hu h₁ hb₁ hnone htaken
    · intro hreturn later d
      have hphase := hu.resolve_left (not_underWay_self hreturn)
      have hd := timely_play code later hb₂.2.1 hb₂.1
      have hend := destroyed_play code later hi₂ hb₂.2.1 hb₂.1 hphase
      refine ⟨hend, taken_of_destroyed code later hi₂ hb₂.2.1 hb₂.1 hphase, ?_⟩
      exact fun c next' rest' hstack' => c.step_of_destroyed code hstack' hd.1 hend

/-- Note down an answer. -/
def record (answer : Except SimError PUnit) : Program Bool (List (Except SimError PUnit)) PUnit :=
  .ask (.update (answer :: ·)) fun _ => .done ()

/-- The teardown event runs the loop and tears the simulator down itself. -/
def nesting : Code Bool (List (Except SimError PUnit)) where
  routine
    | true => .run fun r => (record r).bind fun _ => .destroy record
    | false => .done ()
  observe _ _ _ u := (u, [])

/-- The owner has scheduled an event and registered the teardown event, and is about to tear the
simulator down. -/
def beforeTeardown : Machine Bool (List (Except SimError PUnit)) :=
  play nesting
    [.enter id (.ask (.sim (.schedule (.clamp 5) false)) fun _ =>
      .ask (.sim (.scheduleDestroy true)) fun _ => .destroy record), .step, .step]
    (idle 0 .list 1 .sequential { user := [] })

/-- The machine so many steps later. -/
def inTeardown (n : Nat) : Machine Bool (List (Except SimError PUnit)) :=
  play nesting (List.replicate n .step) beforeTeardown

/-- Calls that a teardown event makes are not refused: it can run the loop, which takes an event off
the queue, and it can tear the simulator down, so that both calls to tear it down succeed. -/
theorem teardown_accepts_calls :
    (beforeTeardown.stack = [.exec (.destroy record)] ∧
      (inTeardown 1).stack = [.teardown, .exec (record (.ok ()))]) ∧
    (∃ next, (inTeardown 3).stack = [.exec (.run next), .teardown, .exec (record (.ok ()))] ∧
      (inTeardown 4).stack =
        [.loop, .exec (next (.ok ())), .teardown, .exec (record (.ok ()))]) ∧
    ((inTeardown 5).taken?.map (·.2.key.time) = some (.clamp 5) ∧
      (inTeardown 5).UnderWay [.exec (record (.ok ()))]) ∧
    ((inTeardown 12).stack = [.exec (.destroy record), .teardown, .exec (record (.ok ()))] ∧
      (inTeardown 13).stack =
        [.teardown, .exec (record (.ok ())), .teardown, .exec (record (.ok ()))]) ∧
    (inTeardown 23).stack = [] ∧ (inTeardown 23).memory.user = [.ok (), .ok (), .ok ()] := by
  refine ⟨⟨rfl, rfl⟩, ⟨_, rfl, rfl⟩, ⟨by decide +kernel, [_, _], _, rfl, Or.inl rfl⟩, ⟨?_, ?_⟩, ?_,
    by decide +kernel⟩ <;> with_unfolding_all rfl

end Machine

end EventKernel
