import EventKernel.Proofs.Machine.Reentry

/-!
# The context of the running callback

A round of the loop sets the context to that of the event it starts, and puts a frame on the stack,
below the callback, that gives back the one from before. Loops do not run within callbacks of other
loops, so the one from before is always none; and teardown, which takes the context away, is
refused while a callback runs. So the context tells the event whose callback runs, whatever the
callback does in between.
-/

namespace EventKernel

open Simulator (Course EventCourse Timely)

variable {K U : Type} {s t : Simulator K} {turns : List (Turn K)} {keys : List EventKey}

/-! ### What leaves the context as it is -/

lemma Simulator.EventCourse.context_eq (h : EventCourse s turns t) : t.context = s.context := by
  rw [h.unchanged]

lemma SimRequest.context_apply (r : SimRequest K) (s : Simulator K) :
    (r.apply s).2.context = s.context := by
  rcases r.effect_apply s with h | ⟨-, stop, sync, observer, -, h⟩
  · exact h.context_eq
  · rw [h]

lemma Request.context_apply (r : Request K U) (s : Simulator K) (m : Memory K U) :
    (r.apply s m).2.1.context = s.context := by
  cases r with
  | sim r => exact r.context_apply s
  | inbox target r => rw [apply, (m.askInbox_unchanged target r s).1]
  | _ => exact (eventCourse_apply _ s m (by simp) (by simp)).context_eq

lemma Simulator.context_drainInbox (s : Simulator K) : s.drainInbox.context = s.context := by
  rw [drainInbox_eq, insertAll_unchanged]

namespace Machine

lemma context_start (code : Code K U) (task : Task K) (s : Simulator K) (m : Memory K U)
    (rest : List (Frame K U)) : (start code task s m rest).sim.context = s.context := by
  cases task with
  | stop => rfl
  | user | watchdog | trickleInterval | trickleFire =>
    exact (eventCourse_start code _ s m rest (by simp)).context_eq

/-- Only the start of teardown takes the context away. -/
lemma context_exec (p : Program K U PUnit) (s : Simulator K) (m : Memory K U)
    (rest : List (Frame K U)) :
    (exec p s m rest).sim.context = s.context ∨
      s.phase ≠ .running ∧ (exec p s m rest).sim.context = .none := by
  cases p with
  | done | perform => exact Or.inl rfl
  | ask r next => exact Or.inl (r.context_apply s m)
  | run next =>
    rw [exec]
    split <;> exact Or.inl rfl
  | destroy next =>
    rw [exec]
    split
    · exact Or.inl rfl
    · exact Or.inl rfl
    · next hphase => exact Or.inr ⟨by simp [hphase], rfl⟩
    · next hphase => exact Or.inr ⟨by simp [hphase], rfl⟩

/-- Rounds of the loop set the context, and behind a callback the one from before is given back. -/
lemma context_stepFrame (code : Code K U) {f : Frame K U} (s : Simulator K) (m : Memory K U)
    (rest : List (Frame K U)) (hnext : f ≠ .next) (hrestore : ∀ c, f ≠ .restore c) :
    (stepFrame code f s m rest).sim.context = s.context ∨
      s.phase ≠ .running ∧ (stepFrame code f s m rest).sim.context = .none := by
  cases f with
  | next => exact absurd rfl hnext
  | restore c => exact absurd rfl (hrestore c)
  | exec p => exact context_exec p s m rest
  | task task => exact Or.inl (context_start code task s m rest)
  | loop => exact Or.inl s.context_drainInbox
  | rearmWatchdog | rearmTrickle | close | clear => exact Or.inl rfl
  | teardown =>
    rw [stepFrame, nextTeardown]
    dsimp only
    split <;> exact Or.inl rfl

lemma stack_launch (code : Code K U) (id : EventId) (ev : Event (Task K)) (s : Simulator K)
    (m : Memory K U) (rest : List (Frame K U)) : (launch code id ev s m rest).stack =
      .task ev.task :: .restore s.context :: .loop :: rest := by
  have hcontext : (notify code ⟨id, ev.key.time, ev.context⟩ s m).1.context = s.context := by
    rw [(notify_unchanged code _ s m).1]
  rw [← hcontext]
  rfl

/-- Only rounds of the loop put down where to find the context from before. -/
lemma Leaves.restore_not_mem {f : Frame K U} {phase : Phase} {top : List (Frame K U)}
    (h : Leaves s f phase top) (hf : f ≠ .next) (c : ContextId) : .restore c ∉ top := by
  cases h with
  | dispatch => exact absurd rfl hf
  | finished | next | perform | run | destroy | done | routine | expire | fire | drained
  | finishRun | passOver | restored | rearmedWatchdog | rearmedTrickle | teardown | close | closed
  | cleared => simp

/-! ### The event whose callback runs -/

variable {a b : Machine K U} {p : EventId × Event (Task K)}
  {current : Option (EventId × Event (Task K))}

/-- The event whose callback runs behind a move: the callback starts when the event is taken off the
queue, and has come back when the context is restored. -/
def currentAfter (current : Option (EventId × Event (Task K))) (a : Machine K U) :
    Move K U → Option (EventId × Event (Task K))
  | .step =>
    match a.taken?, a.stack with
    | some p, _ => if p.2.cancelled then current else some p
    | none, .restore _ :: _ => none
    | none, _ => current
  | .remote _ | .enter .. => current

/-- The event whose callback runs behind the moves of a run. -/
def currentEvent (code : Code K U) :
    List (Move K U) → Machine K U → Option (EventId × Event (Task K)) →
      Option (EventId × Event (Task K))
  | [], _, current => current
  | mv :: moves, a, current => currentEvent code moves (move code a mv) (a.currentAfter current mv)

/-- The context is that of the event whose callback runs, and none if there is no such event. -/
inductive InContext (a : Machine K U) : Option (EventId × Event (Task K)) → Prop where
  | outside (hcontext : a.sim.context = .none) (hstack : ∀ c, .restore c ∉ a.stack) :
      InContext a none
  | inside {p : EventId × Event (Task K)} {above below : List (Frame K U)}
      (hcontext : a.sim.context = p.2.context)
      (hstack : a.stack = above ++ .restore .none :: .loop :: below)
      (habove : ∀ c, .restore c ∉ above) (hbelow : ∀ c, .restore c ∉ below) : InContext a (some p)

lemma inContext_idle (identity : Nat) (kind : QueueKind) (buckets : Nat) (sync : SyncMode)
    (m : Memory K U) : (idle identity kind buckets sync m : Machine K U).InContext none :=
  .outside rfl fun _ hmem => by cases hmem

lemma InContext.congr (h : a.InContext current) (hcontext : b.sim.context = a.sim.context)
    (hstack : b.stack = a.stack) : b.InContext current := by
  cases h with
  | outside hnone hrestore =>
    exact .outside (hcontext.trans hnone) (hstack ▸ hrestore)
  | inside hsome hsplit habove hbelow =>
    exact .inside (hcontext.trans hsome) (hstack.trans hsplit) habove hbelow

/-- A round of the loop begins when no callback runs. -/
lemma InContext.of_next (h : a.InContext current) (ho : a.Orderly) {rest : List (Frame K U)}
    (hstack : a.stack = .next :: rest) :
    current = none ∧ a.sim.context = .none ∧ ∀ c, .restore c ∉ a.stack := by
  cases h with
  | outside hcontext hrestore => exact ⟨rfl, hcontext, hrestore⟩
  | @inside p above below hcontext hsplit habove hbelow =>
    have hnested := ho.nested
    rw [hstack] at hnested hsplit
    refine absurd ?_ hnested.loop_not_mem
    cases above with
    | nil => cases hsplit
    | cons f above =>
      obtain ⟨-, rfl⟩ := List.cons.inj hsplit
      simp

lemma InContext.round (code : Code K U) (h : a.InContext current) (ho : a.Orderly)
    {rest : List (Frame K U)} (hstack : a.stack = .next :: rest)
    (htaken : a.taken? = a.sim.upcoming?) (hround : Round code a.sim a.memory rest b) :
    b.InContext (a.currentAfter current .step) := by
  obtain ⟨rfl, hcontext, hrestore⟩ := h.of_next ho hstack
  rw [hstack] at hrestore
  have hrest : ∀ c, .restore c ∉ rest := fun c hmem => hrestore c (List.mem_cons_of_mem _ hmem)
  rw [currentAfter, htaken, hstack]
  cases hround with
  | finish hnone =>
    rw [hnone]
    exact .outside hcontext hrest
  | pass hsome hnext hcancelled =>
    rw [hsome]
    dsimp only
    rw [if_pos hcancelled]
    refine .outside hcontext fun c hmem => ?_
    rcases List.mem_cons.mp hmem with hmem | hmem
    · cases hmem
    · exact hrest c hmem
  | @start id ev q hsome hnext hlive =>
    rw [hsome]
    dsimp only
    rw [hlive, if_neg Bool.false_ne_true]
    obtain ⟨hsim, -⟩ := launch_unchanged code id ev
      { a.sim with scheduler := q, now := ev.key.time } a.memory rest
    have hstack := stack_launch code id ev { a.sim with scheduler := q, now := ev.key.time }
      a.memory rest
    rw [hcontext] at hstack
    exact .inside (by rw [hsim]) (hstack.trans (List.singleton_append ..).symm) (by simp) hrest

/-- The callback has come back, and with it the context from before. -/
lemma InContext.restore (code : Code K U) (h : a.InContext current) {c : ContextId}
    {rest : List (Frame K U)} (hstack : a.stack = .restore c :: rest) :
    (step code a).InContext (a.currentAfter current .step) := by
  obtain ⟨s, m, stack, broken⟩ := a
  obtain rfl : stack = .restore c :: rest := hstack
  cases h with
  | outside hcontext hrestore => exact absurd List.mem_cons_self (hrestore c)
  | @inside p above below hcontext hsplit habove hbelow =>
    cases above with
    | nil =>
      obtain ⟨hc, rfl⟩ := List.cons.inj hsplit
      obtain rfl : c = .none := Frame.restore.inj hc
      refine .outside rfl fun c hmem => ?_
      rcases List.mem_cons.mp hmem with hmem | hmem
      · cases hmem
      · exact hbelow c hmem
    | cons f above =>
      obtain ⟨rfl, -⟩ := List.cons.inj hsplit
      exact absurd List.mem_cons_self (habove c)

lemma currentAfter_step {f : Frame K U} {rest : List (Frame K U)} (hstack : a.stack = f :: rest)
    (hnext : f ≠ .next) (hrestore : ∀ c, f ≠ .restore c) :
    a.currentAfter current .step = current := by
  obtain ⟨s, m, stack, broken⟩ := a
  obtain rfl : stack = f :: rest := hstack
  cases f with
  | next => exact absurd rfl hnext
  | restore c => exact absurd rfl (hrestore c)
  | exec | task | loop | rearmWatchdog | rearmTrickle | teardown | close | clear => rfl

/-- Whatever else a callback does, its event stays the current one. -/
lemma InContext.other (code : Code K U) (h : a.InContext current) (ho : a.Orderly)
    (htimely : a.sim.Timely keys) {f : Frame K U} {rest : List (Frame K U)}
    (hstack : a.stack = f :: rest) (hnext : f ≠ .next) (hrestore : ∀ c, f ≠ .restore c) :
    (step code a).InContext (a.currentAfter current .step) := by
  rw [currentAfter_step hstack hnext hrestore]
  obtain ⟨s, m, stack, broken⟩ := a
  obtain rfl : stack = f :: rest := hstack
  obtain ⟨top, hleaves, htop⟩ := leaves_stepFrame code f htimely m rest
  have hcontext := context_stepFrame code s m rest hnext hrestore
  have hnone := hleaves.restore_not_mem hnext
  cases h with
  | outside hbefore hall =>
    refine .outside ?_ fun c hmem => ?_
    · rcases hcontext with hsame | ⟨-, hnone⟩
      · exact hsame.trans hbefore
      · exact hnone
    · rw [step, htop] at hmem
      rcases List.mem_append.mp hmem with hmem | hmem
      · exact hnone c hmem
      · exact hall c (List.mem_cons_of_mem f hmem)
  | @inside p above below hbefore hsplit habove hbelow =>
    cases above with
    | nil =>
      obtain ⟨rfl, -⟩ := List.cons.inj hsplit
      exact absurd rfl (hrestore .none)
    | cons g above =>
      obtain ⟨rfl, rfl⟩ := List.cons.inj hsplit
      -- a loop is on the stack, so teardown is refused
      have hrunning : s.phase = .running := ho.nested.running_iff.mpr ⟨.loop, by simp, rfl⟩
      refine .inside ?_ (htop.trans (List.append_assoc ..).symm) (fun c hmem => ?_) hbelow
      · exact (hcontext.resolve_right fun h => h.1 hrunning).trans hbefore
      · rcases List.mem_append.mp hmem with hmem | hmem
        · exact hnone c hmem
        · exact habove c (List.mem_cons_of_mem f hmem)

lemma InContext.move (code : Code K U) (mv : Move K U) (h : a.InContext current) (ho : a.Orderly)
    (htimely : a.sim.Timely keys) (hb : a.broken = false) :
    (Machine.move code a mv).InContext (a.currentAfter current mv) := by
  cases mv with
  | remote r => exact h.congr rfl rfl
  | enter f p =>
    rw [Machine.move]
    split
    · next hdone =>
      have hnil : a.stack = [] := List.isEmpty_iff.mp hdone
      cases h with
      | outside hcontext =>
        refine .outside hcontext fun c hmem => ?_
        cases List.mem_singleton.mp hmem
      | inside hcontext hsplit =>
        rw [hnil] at hsplit
        simp at hsplit
    · exact h
  | step =>
    rcases moveCase code .step htimely hb with ⟨hnext, -, -, -⟩ | ⟨-, hstack, htaken, -, hround⟩
    · cases hstack : a.stack with
      | nil =>
        obtain ⟨s, m, stack, broken⟩ := a
        obtain rfl : stack = [] := hstack
        exact h
      | cons f rest =>
        have hf : f ≠ .next := fun hf => hnext rest rfl (hf ▸ hstack)
        by_cases hrestore : ∃ c, f = .restore c
        · obtain ⟨c, rfl⟩ := hrestore
          exact h.restore code hstack
        · exact h.other code ho htimely hstack hf fun c hc => hrestore ⟨c, hc⟩
    · exact h.round code ho hstack htaken hround

lemma InContext.play (code : Code K U) (moves : List (Move K U)) (h : a.InContext current)
    (ho : a.Orderly) (htimely : a.sim.Timely keys) (hb : a.broken = false) :
    (Machine.play code moves a).InContext (currentEvent code moves a current) := by
  induction moves generalizing a current keys with
  | nil => exact h
  | cons mv moves ih =>
    obtain ⟨hb', htimely', -⟩ := timely_move code mv htimely hb
    exact ih (h.move code mv ho htimely hb) (ho.move code mv htimely hb) htimely' hb'

/-- The event whose callback runs is the one that was started last. -/
lemma getLast?_of_currentEvent (code : Code K U) (moves : List (Move K U))
    (hcurrent : currentEvent code moves a current = some p) :
    (invoked code moves a).getLast? = some p ∨ invoked code moves a = [] ∧ current = some p := by
  induction moves generalizing a current with
  | nil => exact Or.inr ⟨rfl, hcurrent⟩
  | cons mv moves ih =>
    rw [invoked, takenWith_cons]
    rcases ih hcurrent with hlast | ⟨hnil, hbefore⟩
    · exact Or.inl (by rw [List.getLast?_append, hlast, Option.some_or])
    · rw [show takenWith false code moves (move code a mv) = [] from hnil, List.append_nil]
      cases mv with
      | remote | enter => exact Or.inr ⟨rfl, hbefore⟩
      | step =>
        rw [currentAfter] at hbefore
        rw [takenBy?]
        cases htaken : a.taken? with
        | none =>
          rw [htaken] at hbefore
          refine Or.inr ⟨rfl, ?_⟩
          split at hbefore
          · next hsome => cases hsome
          · cases hbefore
          · exact hbefore
        | some q =>
          rw [htaken] at hbefore
          dsimp only at hbefore
          rw [Option.toList_some, List.filter_singleton]
          cases hcancelled : q.2.cancelled with
          | true =>
            rw [if_pos hcancelled] at hbefore
            exact Or.inr ⟨rfl, hbefore⟩
          | false =>
            rw [hcancelled, if_neg Bool.false_ne_true] at hbefore
            exact Or.inl hbefore

end Machine

end EventKernel
