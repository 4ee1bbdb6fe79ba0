import EventKernel.Proofs.Machine.Timers

/-!
# Watchdogs in a run

Whatever the callbacks do with their timers, every watchdog keeps track of its expiry, and an expiry
is handled no later than at the deadline, while the function of the watchdog is in its place. So a
watchdog that was pinged and is left alone from then on runs its function once, at its deadline.

The deadline is `delay` from the ping, unless the expiry that is pending is due no later than that.
In this case a ping does not move the deadline forward, so it can be later than was asked for.
-/

namespace EventKernel.Machine

open Simulator (Passage Timely)
open Watchdog (Resting)

variable {K U : Type} {keys : List EventKey}

/-! ### The timers along a run -/

/-- The timers are looked after: a function is missing only while it runs, and an expiry that is
about to be handled is the only one of its watchdog, and not late. -/
structure Attended (a : Machine K U) : Prop where
  sound : a.sim.Sound
  orderly : a.Orderly
  guards : a.memory.Guards a.sim
  absent : ∀ w d, a.memory.watchdog? w = some d → d.function = none →
    ∃ k, .rearmWatchdog w k ∈ a.stack
  due : ∀ w d rest, a.stack = .task (.watchdog w) :: rest → a.memory.watchdog? w = some d →
    Resting w a.sim ∧ a.sim.now ≤ d.deadline

/-- Whether the owner leaves the timers to the programs. -/
def KeepsTimers (a : Machine K U) : Move K U → Prop
  | .enter f _ =>
    (f a.memory).watchdogs = a.memory.watchdogs ∧ (f a.memory).trickles = a.memory.trickles
  | .step | .remote _ => True

lemma keepsTimers_steps (code : Code K U) (n : Nat) (a : Machine K U) :
    Along code KeepsTimers (List.replicate n .step) a := by
  induction n generalizing a with
  | zero => trivial
  | succ n ih => exact ⟨trivial, ih _⟩

lemma attended_idle (identity : Nat) (kind : QueueKind) (buckets : Nat) (sync : SyncMode)
    (inboxes : Array (Inbox (Task K))) (u : U) :
    (idle identity kind buckets sync { inboxes, user := u }).Attended where
  sound := (Simulator.told_create identity kind buckets sync).sound
  orderly := orderly_idle identity kind buckets sync _
  guards := by
    refine ⟨?_, ?_, ?_⟩
    · intro w d hd
      cases Memory.lt_size_of_watchdog? hd
    · intro n d hd
      cases Memory.lt_size_of_trickle? hd
    · intro id ev w hev
      have hnone := (Simulator.told_create (K := K) identity kind buckets sync).life id
      rw [show (Simulator.create identity kind buckets sync).find? id = some ev from hev] at hnone
      cases hnone
  absent w d hd := by cases Memory.lt_size_of_watchdog? hd
  due w d rest hstack := by cases hstack

section

variable {code : Code K U} {s : Simulator K} {m : Memory K U} {f : Frame K U}
  {rest : List (Frame K U)} {broken : Bool}

/-- No step but a round of the loop comes to an expiry. -/
lemma Attended.stack_ne (ha : (⟨s, m, f :: rest, broken⟩ : Machine K U).Attended)
    (h : s.Timely keys) (hf : f ≠ .next) (w : Nat) (rest' : List (Frame K U)) :
    (stepFrame code f s m rest).stack ≠ .task (.watchdog w) :: rest' := by
  obtain ⟨top, hleaves, hstack⟩ := leaves_stepFrame code f h m rest
  rw [hstack]
  intro heq
  have hmem : .task (.watchdog w) ∈ top ++ rest := by
    rw [heq]
    exact List.mem_cons_self
  rcases List.mem_append.mp hmem with hmem | hmem
  · exact hleaves.task_not_mem ha.orderly.userCode hf (by simp) hmem
  · exact ha.orderly.nested.task_not_mem (by simp) hmem

lemma Attended.tends (code : Code K U)
    (ha : (⟨s, m, f :: rest, broken⟩ : Machine K U).Attended) (h : s.Timely keys) (hf : f ≠ .next) :
    Tends s m f (f.turns s m) (stepFrame code f s m rest).sim
      (stepFrame code f s m rest).memory := by
  refine tends_stepFrame code rest ha.sound h ha.orderly.userCode ha.guards hf ?_
  rintro w d rfl hd
  obtain ⟨hrunning, -⟩ := ha.orderly.nested.of_expiry
  obtain ⟨hresting, hle⟩ := ha.due w d rest rfl hd
  refine ⟨?_, hresting, hle⟩
  rw [show s.phase = .running from hrunning]
  simp

/-- The expiry of a watchdog finds the function in its place. -/
lemma Attended.function_ne {w : Nat}
    (ha : (⟨s, m, .task (.watchdog w) :: rest, broken⟩ : Machine K U).Attended) {d : Watchdog K}
    (hd : m.watchdog? w = some d) : d.function ≠ none := by
  intro hnone
  obtain ⟨k, hmem⟩ := ha.absent w d hd hnone
  rcases List.mem_cons.mp hmem with hmem | hmem
  · cases hmem
  · exact ha.orderly.nested.of_expiry.2 w k hmem

/-- A function that is taken out to be run is put back behind the run. -/
lemma Attended.absent_stepFrame (ha : (⟨s, m, f :: rest, broken⟩ : Machine K U).Attended)
    (h : s.Timely keys) (hf : f ≠ .next) {w : Nat} {d' : Watchdog K}
    (hd' : (stepFrame code f s m rest).memory.watchdog? w = some d') (hnone : d'.function = none) :
    ∃ k, .rearmWatchdog w k ∈ (stepFrame code f s m rest).stack := by
  obtain ⟨top, -, hstack⟩ := leaves_stepFrame code f h m rest
  rcases (ha.tends code h hf).of_function_none hd' hnone with ⟨d, hd, hold⟩ | rfl
  · obtain ⟨k, hmem⟩ := ha.absent w d hd hold
    rcases List.mem_cons.mp hmem with rfl | hmem
    · -- the frame on top has just put the function back
      rw [stepFrame, hd, Memory.watchdog?_setWatchdog,
        if_pos ⟨rfl, Memory.lt_size_of_watchdog? hd⟩] at hd'
      obtain rfl : d.restore k = d' := Option.some.inj hd'
      cases (Option.or_eq_none_iff.mp hnone).2
    · rw [hstack]
      exact ⟨k, List.mem_append_right top hmem⟩
  · cases hd : m.watchdog? w with
    | none =>
      rw [stepFrame, start, hd] at hd'
      cases hd.symm.trans hd'
    | some d =>
      have hplace := ha.function_ne hd
      have hfunction := Watchdog.function_expire d w s
      simp only [stepFrame, start, hd] at hd' ⊢
      generalize d.expire w s = r at hfunction hd' ⊢
      obtain ⟨_ | k, d'', t⟩ := r
      · rw [Memory.watchdog?_setWatchdog, if_pos ⟨rfl, Memory.lt_size_of_watchdog? hd⟩] at hd'
        rw [← Option.some.inj hd'] at hnone
        exact absurd ((hfunction rfl).symm.trans hnone) hplace
      · exact ⟨k, by simp⟩

/-- What a round takes off the queue was issued before. -/
lemma fate_of_upcoming {s : Simulator K} {x : Turn K}
    (hx : x ∈ (Frame.next : Frame K U).turns s m) : x.fate ≠ .issued := by
  obtain ⟨p, -, hx⟩ := List.mem_flatMap.mp hx
  exact (Simulator.of_mem_takeTurn hx).2

lemma Attended.takeNext (code : Code K U)
    (ha : (⟨s, m, .next :: rest, broken⟩ : Machine K U).Attended) (h : s.Timely keys)
    (hp : Passage s ((Frame.next : Frame K U).turns s m) (takeNext code s m rest).sim)
    (ho : (takeNext code s m rest).Orderly) : (Machine.takeNext code s m rest).Attended := by
  have hround := round_takeNext code m rest h.consistent h.now_le
  have habsent : ∀ w d, m.watchdog? w = some d → d.function = none →
      ∃ k, .rearmWatchdog w k ∈ rest := by
    intro w d hd hnone
    obtain ⟨k, hmem⟩ := ha.absent w d hd hnone
    rcases List.mem_cons.mp hmem with hmem | hmem
    · cases hmem
    · exact ⟨k, hmem⟩
  have hguards : ∀ {m' : Memory K U}, m'.watchdogs = m.watchdogs → m'.trickles = m.trickles →
      m'.Guards (Machine.takeNext code s m rest).sim :=
    ha.guards.passage hp fun x hx hissued => absurd hissued (fate_of_upcoming hx)
  generalize Machine.takeNext code s m rest = a at hp ho hround hguards ⊢
  cases hround with
  | finish hnone hempty =>
    refine ⟨hp.sound, ho, hguards rfl rfl, habsent, ?_⟩
    intro w d rest' hstack
    have hnot : .task (.watchdog w) ∉ rest := ha.orderly.nested.task_not_mem (by simp)
    refine absurd ?_ hnot
    rw [show rest = .task (.watchdog w) :: rest' from hstack]
    exact List.mem_cons_self
  | pass hsome hnext hcancelled =>
    refine ⟨hp.sound, ho, hguards rfl rfl, ?_, ?_⟩
    · intro w d hd hnone
      obtain ⟨k, hmem⟩ := habsent w d hd hnone
      exact ⟨k, List.mem_cons_of_mem _ hmem⟩
    · intro w d rest' hstack
      cases hstack
  | @start id ev q hsome hnext hlive =>
    obtain ⟨hsim, hmemory⟩ :=
      launch_unchanged code id ev { s with scheduler := q, now := ev.key.time } m rest
    have hw := congrArg Memory.watchdogs hmemory
    have ht := congrArg Memory.trickles hmemory
    refine ⟨hp.sound, ho, hguards hw ht, ?_, ?_⟩
    · intro w d hd hnone
      obtain ⟨k, hmem⟩ := habsent w d ((Memory.watchdog?_congr hw w).symm.trans hd) hnone
      exact ⟨k, by simp [launch, hmem]⟩
    · intro w d rest' hstack hd
      have htask : ev.task = .watchdog w := Frame.task.inj (List.cons.inj hstack).1
      have hkept := ha.guards.watchdog w d ((Memory.watchdog?_congr hw w).symm.trans hd)
      obtain ⟨hresting, hle⟩ := hkept.take ha.sound hnext htask hlive
      rw [hsim]
      exact ⟨hresting, hle⟩

end

lemma Attended.move (code : Code K U) (mv : Move K U) {a : Machine K U} (ha : a.Attended)
    (h : a.sim.Timely keys) (hb : a.broken = false) (hkeeps : a.KeepsTimers mv) :
    (Machine.move code a mv).Attended := by
  have hp := passage_move code mv h hb ha.sound
  have ho := ha.orderly.move code mv h hb
  obtain ⟨s, m, stack, broken⟩ := a
  cases mv with
  | remote r =>
    refine ⟨hp.sound, ho, ha.guards.passage hp (fun x hx => by cases hx) rfl rfl, ha.absent, ?_⟩
    intro w d rest hstack hd
    obtain ⟨hresting, hle⟩ := ha.due w d rest hstack hd
    exact ⟨hresting.passage hp fun x hx => (by cases hx), hle⟩
  | enter f p =>
    rw [Machine.move] at hp ho ⊢
    split
    · next hdone =>
      rw [if_pos hdone] at hp ho
      obtain rfl : stack = [] := List.isEmpty_iff.mp hdone
      refine ⟨hp.sound, ho,
        ha.guards.passage hp (fun x hx => by cases hx) hkeeps.1 hkeeps.2, ?_, ?_⟩
      · intro w d hd hnone
        obtain ⟨k, hmem⟩ := ha.absent w d ((Memory.watchdog?_congr hkeeps.1 w).symm.trans hd) hnone
        cases hmem
      · intro w d rest hstack
        cases hstack
    · exact ha
  | step =>
    cases stack with
    | nil => exact ha
    | cons f rest =>
      rw [turns_step] at hp
      by_cases hf : f = .next
      · subst hf
        exact ha.takeNext code h hp ho
      · refine ⟨hp.sound, ho, (ha.tends code h hf).guards hp ha.guards,
          fun w d' => ha.absent_stepFrame h hf, ?_⟩
        intro w d' rest' hstack
        exact absurd hstack (ha.stack_ne h hf w rest')

lemma attended_play (code : Code K U) (moves : List (Move K U)) {a : Machine K U}
    (ha : a.Attended) (h : a.sim.Timely keys) (hb : a.broken = false)
    (halong : Along code KeepsTimers moves a) : (play code moves a).Attended := by
  induction moves generalizing a keys with
  | nil => exact ha
  | cons mv moves ih =>
    obtain ⟨hb', h', -⟩ := timely_move code mv h hb
    exact ih (ha.move code mv h hb halong.1) h' hb' halong.2

/-- A run goes well as long as the timers are looked after and events are taken in order. -/
structure Going (a : Machine K U) : Prop where
  attended : a.Attended
  timely : ∃ keys, a.sim.Timely keys
  unbroken : a.broken = false

lemma going_idle (identity : Nat) (kind : QueueKind) (buckets : Nat) (sync : SyncMode)
    (inboxes : Array (Inbox (Task K))) (u : U) :
    (idle identity kind buckets sync { inboxes, user := u }).Going where
  attended := attended_idle identity kind buckets sync inboxes u
  timely := ⟨[], Simulator.timely_create identity kind buckets sync⟩
  unbroken := rfl

lemma Going.play (code : Code K U) (moves : List (Move K U)) {a : Machine K U} (h : a.Going)
    (halong : Along code KeepsTimers moves a) : (play code moves a).Going := by
  obtain ⟨ha, ⟨keys, htimely⟩, hb⟩ := h
  obtain ⟨hb', htimely', -⟩ := timely_play code moves htimely hb
  exact ⟨attended_play code moves ha htimely hb halong, ⟨_, htimely'⟩, hb'⟩

lemma Going.step (code : Code K U) {a : Machine K U} (h : a.Going) : (step code a).Going :=
  h.play code [.step] ⟨trivial, trivial⟩

/-! ### Invocations -/

/-- Whether the expiry of a watchdog is handled next. -/
def expires (w : Nat) (a : Machine K U) : Bool :=
  match a.stack with
  | .task (.watchdog v) :: _ => v = w
  | _ => false

/-- The function that the next step takes out of a watchdog, to run it. -/
def firing? (w : Nat) (a : Machine K U) : Option K :=
  match a.stack with
  | .task (.watchdog v) :: _ =>
    if v = w then (a.memory.watchdog? w).bind fun d => (d.expire w a.sim).1 else none
  | _ => none

lemma step_of_firing? (code : Code K U) {w : Nat} {a : Machine K U} {k : K}
    (h : a.firing? w = some k) :
    ∃ rest, a.stack = .task (.watchdog w) :: rest ∧
      (step code a).stack = .exec (code.routine k) :: .rearmWatchdog w k :: rest := by
  obtain ⟨s, m, stack, broken⟩ := a
  rw [firing?] at h
  split at h
  · next v rest hstack =>
    obtain rfl : stack = .task (.watchdog v) :: rest := hstack
    split at h
    · next hv =>
      subst hv
      obtain ⟨d, hd, hk⟩ := Option.bind_eq_some_iff.mp h
      refine ⟨rest, rfl, ?_⟩
      simp only [step, stepFrame, start, show m.watchdog? v = some d from hd]
      generalize d.expire v s = r at hk ⊢
      obtain ⟨found, d', t⟩ := r
      obtain rfl : found = some k := hk
      rfl
    · cases h
  · cases h

/-- The time at which a move invokes the function of a watchdog. -/
def firedBy (w : Nat) (a : Machine K U) : Move K U → List Time
  | .step => (a.firing? w).toList.map fun _ => a.sim.now
  | .remote _ | .enter .. => []

/-- The times at which the function of a watchdog is invoked in the course of a run. -/
def firings (code : Code K U) (w : Nat) : List (Move K U) → Machine K U → List Time
  | [], _ => []
  | mv :: moves, a => a.firedBy w mv ++ firings code w moves (move code a mv)

/-- Whether a move leaves a watchdog alone. -/
def spares (w : Nat) (a : Machine K U) : Move K U → Bool
  | .step => a.stack.head?.all (·.spares w a.memory)
  | .remote _ | .enter .. => true

/-- How far a watchdog that is left alone has come: an expiry is pending, or is about to be handled,
or its function has been invoked. -/
inductive Watched (w : Nat) (deadline : Time) (a : Machine K U) : Bool → Prop where
  | armed {d : Watchdog K} (hd : a.memory.watchdog? w = some d) (hdeadline : d.deadline = deadline)
      (hlive : d.cancelled = false) (hpending : a.sim.isExpired d.event = false) :
      Watched w deadline a false
  | due {d : Watchdog K} {rest : List (Frame K U)} (hd : a.memory.watchdog? w = some d)
      (hdeadline : d.deadline = deadline) (hlive : d.cancelled = false)
      (hstack : a.stack = .task (.watchdog w) :: rest) : Watched w deadline a false
  | gone {d : Watchdog K} (hd : a.memory.watchdog? w = some d) (hdeadline : d.deadline = deadline)
      (hresting : Resting w a.sim) (hstack : ∀ rest, a.stack ≠ .task (.watchdog w) :: rest) :
      Watched w deadline a true

section

variable {w : Nat} {deadline : Time} {a b : Machine K U} {fired : Bool}

lemma Watched.deadline_eq (hw : Watched w deadline a fired) :
    (a.memory.watchdog? w).map (·.deadline) = some deadline := by
  cases hw with
  | armed hd hdeadline | due hd hdeadline | gone hd hdeadline =>
    rw [hd, Option.map_some, hdeadline]

/-- The event of an armed watchdog. -/
lemma Attended.find?_event (ha : a.Attended) {d : Watchdog K}
    (hd : a.memory.watchdog? w = some d) (hpending : a.sim.isExpired d.event = false) :
    ∃ ev, a.sim.find? d.event = some ev ∧ ev.cancelled = false ∧ ev.task = .watchdog w ∧
      ev.key.time ≤ d.deadline := by
  obtain ⟨ev, hev, hlive, -⟩ := ha.sound.delayLeft_of_pending hpending
  have hkept := ha.guards.watchdog w d hd
  have htask := hkept.owns.2 ev hev
  exact ⟨ev, hev, hlive, htask, (hkept.expiry _ ev hev htask hlive).2⟩

/-- An expiry that is about to be handled is not pending any more. -/
lemma Attended.expired_of_due (ha : a.Attended) {d : Watchdog K} {rest : List (Frame K U)}
    (hd : a.memory.watchdog? w = some d) (hstack : a.stack = .task (.watchdog w) :: rest) :
    a.sim.isExpired d.event = true := by
  by_contra hnot
  obtain ⟨ev, hev, hlive, htask, -⟩ := ha.find?_event hd (Bool.eq_false_iff.mpr hnot)
  have hcancelled := (ha.due w d rest hstack hd).1 _ ev hev htask
  rw [hlive] at hcancelled
  cases hcancelled

/-- A move that does not disturb a watchdog leaves it where it is. -/
lemma Watched.undisturbed {turns : List (Turn K)} (hw : Watched w deadline a fired)
    (ha : a.Attended) (hp : Passage a.sim turns b.sim)
    (hun : ∀ d, a.memory.watchdog? w = some d → Undisturbed w d a.sim turns b.memory)
    (hdue : ∀ rest, a.stack = .task (.watchdog w) :: rest → b.stack = a.stack)
    (hover : (∀ rest, a.stack ≠ .task (.watchdog w) :: rest) →
      ∀ rest, b.stack ≠ .task (.watchdog w) :: rest) : Watched w deadline b fired := by
  cases hw with
  | @armed d hd hdeadline hlive hpending =>
    obtain ⟨⟨k, hrecord⟩, -, hevent⟩ := hun d hd
    obtain ⟨ev, hev, -⟩ := ha.find?_event hd hpending
    refine .armed hrecord hdeadline hlive ?_
    show b.sim.isExpired d.event = false
    rw [hp.isExpired_eq ha.sound (ha.guards.watchdog w d hd).owns.1 (hevent ⟨ev, hev⟩)]
    exact hpending
  | @due d rest hd hdeadline hlive hstack =>
    obtain ⟨k, hrecord⟩ := (hun d hd).record
    exact .due hrecord hdeadline hlive ((hdue rest hstack).trans hstack)
  | @gone d hd hdeadline hresting hstack =>
    obtain ⟨⟨k, hrecord⟩, hissued, -⟩ := hun d hd
    exact .gone hrecord hdeadline (hresting.passage hp hissued) (hover hstack)

section

variable {code : Code K U} {s : Simulator K} {m : Memory K U} {rest : List (Frame K U)}
  {broken : Bool}

/-- The expiry of a watchdog is handled: it is scheduled again, or the function is invoked. -/
lemma Watched.start (code : Code K U)
    (ha : (⟨s, m, .task (.watchdog w) :: rest, broken⟩ : Machine K U).Attended)
    (h : s.Timely keys)
    (hw : Watched w deadline (⟨s, m, .task (.watchdog w) :: rest, broken⟩ : Machine K U) fired) :
    fired = false ∧
      (firing? w (⟨s, m, .task (.watchdog w) :: rest, broken⟩ : Machine K U) = none ∧
          Watched w deadline (start code (.watchdog w) s m rest) false ∨
        (∃ k, firing? w (⟨s, m, .task (.watchdog w) :: rest, broken⟩ : Machine K U) = some k) ∧
          s.now = deadline ∧ Watched w deadline (start code (.watchdog w) s m rest) true) := by
  cases hw with
  | armed hd hdeadline hlive hpending =>
    rw [ha.expired_of_due hd rfl] at hpending
    cases hpending
  | gone hd hdeadline hresting hstack => exact absurd rfl (hstack rest)
  | @due d _ hd hdeadline hlive hstack =>
    obtain ⟨hresting, hle⟩ := ha.due w d rest rfl hd
    have halive : s.phase ≠ .destroyed := by
      rw [show s.phase = .running from ha.orderly.nested.of_expiry.1]
      simp
    have hd : m.watchdog? w = some d := hd
    have hrecord : ∀ d' : Watchdog K, (m.setWatchdog w (some d')).watchdog? w = some d' := by
      intro d'
      rw [Memory.watchdog?_setWatchdog, if_pos ⟨rfl, Memory.lt_size_of_watchdog? hd⟩]
    have hfiring : firing? w (⟨s, m, .task (.watchdog w) :: rest, broken⟩ : Machine K U) =
        (d.expire w s).1 := by
      simp [firing?, hd]
    refine ⟨rfl, ?_⟩
    rw [hfiring, Machine.start, hd]
    dsimp only
    rcases Watchdog.expire_cases d ha.sound hresting h.now_nonneg hle halive with
      ⟨hcancelled, -⟩ | ⟨-, id, t, he, hpending, -⟩ | ⟨-, hnow, he⟩
    · rw [hlive] at hcancelled
      cases hcancelled
    · rw [he]
      exact Or.inl ⟨rfl, .armed (hrecord _) hdeadline hlive hpending⟩
    · obtain ⟨k, hk⟩ := Option.ne_none_iff_exists'.mp (ha.function_ne hd)
      rw [he, hk]
      refine Or.inr ⟨⟨k, rfl⟩, hnow.trans hdeadline, .gone (hrecord _) hdeadline hresting ?_⟩
      intro rest' hcons
      cases hcons

/-- A round of the loop comes to the expiry of a watchdog, or passes it by. -/
lemma Watched.takeNext (ha : (⟨s, m, .next :: rest, broken⟩ : Machine K U).Attended)
    (h : s.Timely keys)
    (hp : Passage s ((Frame.next : Frame K U).turns s m) (takeNext code s m rest).sim)
    (hw : Watched w deadline (⟨s, m, .next :: rest, broken⟩ : Machine K U) fired) :
    Watched w deadline (Machine.takeNext code s m rest) fired := by
  have hround := round_takeNext code m rest h.consistent h.now_le
  cases hw with
  | @armed d hd hdeadline hlive hpending =>
    obtain ⟨ev', hev', hlive', htask, -⟩ := ha.find?_event hd hpending
    -- the expiry stays pending unless it is the event that is taken
    have hkeep : (∀ p, s.upcoming? = some p → p.1 ≠ d.event) →
        (Machine.takeNext code s m rest).sim.isExpired d.event = false := by
      intro hne
      refine (hp.isExpired_eq ha.sound (ha.guards.watchdog w d hd).owns.1 ?_).trans hpending
      intro x hx hid
      obtain ⟨p, hup, hx⟩ := List.mem_flatMap.mp hx
      exact absurd ((Simulator.of_mem_takeTurn hx).1.symm.trans hid)
        (hne p (Option.mem_toList.mp hup))
    have hne : ∀ {id : EventId} {ev : Event (Task K)}, s.upcoming? = some (id, ev) →
        id ≠ d.event → ∀ p, s.upcoming? = some p → p.1 ≠ d.event := by
      intro id ev hsome hid p hup
      obtain rfl : (id, ev) = p := Option.some.inj (hsome.symm.trans hup)
      exact hid
    generalize Machine.takeNext code s m rest = b at hround hkeep ⊢
    cases hround with
    | finish hnone hempty =>
      refine .armed hd hdeadline hlive (hkeep ?_)
      intro p hup
      rw [hnone] at hup
      cases hup
    | @pass id ev q hsome hnext hcancelled =>
      refine .armed hd hdeadline hlive (hkeep (hne hsome ?_))
      rintro rfl
      rw [(ha.sound.find?_take hnext s.now).1] at hev'
      rw [Option.some.inj hev', hlive'] at hcancelled
      cases hcancelled
    | @start id ev q hsome hnext hlive'' =>
      have hmemory := (launch_unchanged code id ev
        { s with scheduler := q, now := ev.key.time } m rest).2
      have hd := (Memory.watchdog?_congr (congrArg Memory.watchdogs hmemory) w).trans hd
      by_cases hid : id = d.event
      · subst hid
        rw [(ha.sound.find?_take hnext s.now).1] at hev'
        obtain rfl : ev = ev' := Option.some.inj hev'
        exact .due hd hdeadline hlive (congrArg (Frame.task · :: _) htask)
      · exact .armed hd hdeadline hlive (hkeep (hne hsome hid))
  | due hd hdeadline hlive hstack => cases hstack
  | @gone d hd hdeadline hresting hstack =>
    have hresting' : Resting w (Machine.takeNext code s m rest).sim :=
      hresting.passage hp fun x hx hissued => absurd hissued (fate_of_upcoming hx)
    generalize Machine.takeNext code s m rest = b at hround hresting' ⊢
    cases hround with
    | finish hnone hempty =>
      refine .gone hd hdeadline hresting' ?_
      rintro rest' rfl
      exact ha.orderly.nested.task_not_mem (by simp) List.mem_cons_self
    | pass hsome hnext hcancelled =>
      refine .gone hd hdeadline hresting' ?_
      intro rest' hcons
      cases hcons
    | @start id ev q hsome hnext hlive =>
      have hmemory := (launch_unchanged code id ev
        { s with scheduler := q, now := ev.key.time } m rest).2
      have hd := (Memory.watchdog?_congr (congrArg Memory.watchdogs hmemory) w).trans hd
      refine .gone hd hdeadline hresting' ?_
      intro rest' hcons
      have htask : ev.task = .watchdog w := Frame.task.inj (List.cons.inj hcons).1
      have hcancelled := hresting id ev (ha.sound.find?_take hnext s.now).1 htask
      rw [hlive] at hcancelled
      cases hcancelled

end

/-- A watchdog that is left alone invokes its function at most once more, at its deadline. -/
lemma Watched.move (code : Code K U) {mv : Move K U} (hw : Watched w deadline a fired)
    (ha : a.Attended) (h : a.sim.Timely keys) (hb : a.broken = false)
    (hkeeps : a.KeepsTimers mv) (hspares : a.spares w mv) :
    a.firedBy w mv = [] ∧ Watched w deadline (Machine.move code a mv) fired ∨
      fired = false ∧ a.firedBy w mv = [deadline] ∧
        Watched w deadline (Machine.move code a mv) true := by
  have hp := passage_move code mv h hb ha.sound
  obtain ⟨s, m, stack, broken⟩ := a
  cases mv with
  | remote r =>
    refine Or.inl ⟨rfl, hw.undisturbed ha hp (fun d hd => undisturbed_nil hd rfl) ?_ ?_⟩
    · exact fun rest _ => rfl
    · exact fun hstack => hstack
  | enter f p =>
    refine Or.inl ⟨rfl, ?_⟩
    rw [Machine.move] at hp ⊢
    split
    · next hdone =>
      rw [if_pos hdone] at hp
      obtain rfl : stack = [] := List.isEmpty_iff.mp hdone
      refine hw.undisturbed ha hp (fun d hd => undisturbed_nil hd hkeeps.1) ?_ ?_
      · intro rest hcons
        cases hcons
      · intro _ rest hcons
        cases hcons
    · exact hw
  | step =>
    cases stack with
    | nil => exact Or.inl ⟨rfl, hw⟩
    | cons f rest =>
      rw [turns_step] at hp
      by_cases hf : f = .next
      · subst hf
        exact Or.inl ⟨rfl, hw.takeNext ha h hp⟩
      · by_cases hexpiry : f = .task (.watchdog w)
        · subst hexpiry
          obtain ⟨rfl, ⟨hnone, hw'⟩ | ⟨⟨k, hk⟩, rfl, hw'⟩⟩ := hw.start code ha h
          · refine Or.inl ⟨?_, hw'⟩
            rw [firedBy, hnone]
            rfl
          · refine Or.inr ⟨rfl, ?_, hw'⟩
            rw [firedBy, hk]
            rfl
        · have hfiring : firing? w (⟨s, m, f :: rest, broken⟩ : Machine K U) = none := by
            rw [firing?]
            split
            · next v rest' hstack =>
              obtain ⟨rfl, -⟩ := List.cons.inj hstack
              rw [if_neg fun hv => hexpiry (by rw [hv])]
            · rfl
          refine Or.inl ⟨by rw [firedBy, hfiring]; rfl, ?_⟩
          refine hw.undisturbed ha hp (fun d hd => ?_) ?_ ?_
          · exact (ha.tends code h hf).undisturbed ha.guards ha.orderly.userCode hd hspares hexpiry
          · intro rest' hcons
            exact absurd (List.cons.inj hcons).1 hexpiry
          · exact fun _ => ha.stack_ne h hf w

lemma Watched.play (code : Code K U) (moves : List (Move K U)) (hw : Watched w deadline a fired)
    (ha : a.Attended) (h : a.sim.Timely keys) (hb : a.broken = false)
    (halong : Along code (fun b mv => b.KeepsTimers mv ∧ b.spares w mv) moves a) :
    firings code w moves a = [] ∧ Watched w deadline (Machine.play code moves a) fired ∨
      fired = false ∧ firings code w moves a = [deadline] ∧
        Watched w deadline (Machine.play code moves a) true := by
  induction moves generalizing a keys fired with
  | nil => exact Or.inl ⟨rfl, hw⟩
  | cons mv moves ih =>
    obtain ⟨hb', h', -⟩ := timely_move code mv h hb
    obtain ⟨⟨hkeeps, hspares⟩, halong⟩ := halong
    have ha' := ha.move code mv h hb hkeeps
    rw [firings, play_cons]
    rcases hw.move code ha h hb hkeeps hspares with ⟨hnone, hw'⟩ | ⟨rfl, hone, hw'⟩
    · rw [hnone]
      exact ih hw' ha' h' hb' halong
    · rw [hone]
      rcases ih hw' ha' h' hb' halong with ⟨hrest, hw''⟩ | ⟨hfired, -⟩
      · rw [hrest]
        exact Or.inr ⟨rfl, rfl, hw''⟩
      · cases hfired

/-- As long as the function has not been invoked, the deadline has not passed, and there is
something left to do. -/
lemma Watched.of_not_fired (hw : Watched w deadline a false) (ha : a.Attended)
    (h : a.sim.Timely keys) :
    a.sim.now ≤ deadline ∧
      (a.sim.scheduler.isEmpty = false ∨ ∃ rest, a.stack = .task (.watchdog w) :: rest) := by
  cases hw with
  | @armed d hd hdeadline hlive hpending =>
    obtain ⟨ev, hev, -, htask, hle⟩ := ha.find?_event hd hpending
    refine ⟨hdeadline ▸ Int.le_trans (h.le_of_find? hev) hle, Or.inl ?_⟩
    rw [Bool.eq_false_iff, Ne, h.consistent.isEmpty_iff]
    intro hnil
    generalize hid : d.event = id at hev
    cases id with
    | queued slot n =>
      have hmem := Arena.mem_entries_of_get? hev
      rw [hnil] at hmem
      cases hmem
    | destroy n =>
      refine absurd rfl (ha.orderly.userCode.ne_destroy hev ?_ n)
      rw [htask]
      exact fun k => by simp
  | due hd hdeadline hlive hstack =>
    exact ⟨hdeadline ▸ (ha.due w _ _ hstack hd).2, Or.inr ⟨_, hstack⟩⟩

end

/-! ### What a ping promises -/

/-- A ping that succeeds arms the watchdog. The deadline is `delay` from now, or the later one
recorded before if the pending expiry is due no later than `delay` from now. If the watchdog is left
alone from then on, its function is invoked at the deadline and at no other time: once when the
clock has gone past the deadline, or when nothing is left to run, and until then at most once. -/
theorem fires_once_at_deadline (code : Code K U) (identity : Nat) (kind : QueueKind)
    (buckets : Nat) (sync : SyncMode) (inboxes : Array (Inbox (Task K))) (u : U)
    (moves : List (Move K U))
    (hkeeps : Along code KeepsTimers moves
      (idle identity kind buckets sync { inboxes := inboxes, user := u })) :
    let a := play code moves (idle identity kind buckets sync { inboxes := inboxes, user := u })
    ∀ w d delay next rest, a.memory.watchdog? w = some d →
      a.stack = .exec (.ask (.watchdog w (.ping delay)) next) :: rest →
      (d.ping w delay a.sim).1 = .ok () →
      ∃ d', (step code a).memory.watchdog? w = some d' ∧ d'.isPending (step code a).sim = true ∧
        d'.deadline = d.pingedDeadline delay a.sim ∧ a.sim.now + delay ≤ d'.deadline ∧
        ∀ more, Along code (fun b mv => b.KeepsTimers mv ∧ b.spares w mv) more (step code a) →
          let b := play code more (step code a)
          (b.memory.watchdog? w).map (·.deadline) = some d'.deadline ∧
          (firings code w more (step code a) = [] ∨
            firings code w more (step code a) = [d'.deadline]) ∧
          (d'.deadline < b.sim.now ∨ b.sim.scheduler.isEmpty = true ∧
              (∀ rest, b.stack ≠ .task (.watchdog w) :: rest) →
            firings code w more (step code a) = [d'.deadline]) := by
  intro a w d delay next rest hd hstack hok
  have hstart : Simulator.Timely [] (idle identity kind buckets sync
    ({ inboxes := inboxes, user := u } : Memory K U)).sim := Simulator.timely_create ..
  obtain ⟨hb, h, -⟩ := timely_play code moves hstart rfl
  have ha : a.Attended := attended_play code moves
    (attended_idle identity kind buckets sync inboxes u) hstart rfl hkeeps
  obtain ⟨hb', h', -⟩ := timely_move code .step h hb
  have ha' : (step code a).Attended := ha.move code .step h hb trivial
  obtain ⟨-, -, hping⟩ := (ha.guards.watchdog w d hd).ping ha.sound h.now_nonneg
    (fun _ _ => h.le_of_find?) delay
  obtain ⟨hlive, hpending, hdeadline, hle⟩ := hping hok
  have hstep : (step code a).memory = a.memory.setWatchdog w (some (d.ping w delay a.sim).2.1) ∧
      (step code a).sim = (d.ping w delay a.sim).2.2 := by
    clear_value a
    obtain ⟨s, m, stack, broken⟩ := a
    obtain rfl : stack = _ := hstack
    have hd : m.watchdog? w = some d := hd
    simp only [step, stepFrame, exec, Request.apply, hd]
    exact ⟨rfl, rfl⟩
  have hrecord : (step code a).memory.watchdog? w = some (d.ping w delay a.sim).2.1 := by
    rw [hstep.1, Memory.watchdog?_setWatchdog, if_pos ⟨rfl, Memory.lt_size_of_watchdog? hd⟩]
  rw [← hstep.2] at hpending
  refine ⟨_, hrecord, ?_, hdeadline, hle, ?_⟩
  · rw [Watchdog.isPending, hlive, hpending]
    rfl
  · intro more halong b
    have hkeeps' : Along code KeepsTimers more (step code a) := halong.mono fun _ _ => And.left
    obtain ⟨-, hlater, -⟩ := timely_play code more h' hb'
    have hb : b.Attended := attended_play code more ha' h' hb' hkeeps'
    rcases (Watched.armed hrecord rfl hlive hpending).play code more ha' h' hb' halong with
      ⟨hnone, hw⟩ | ⟨-, hone, hw⟩
    · refine ⟨hw.deadline_eq, Or.inl hnone, ?_⟩
      obtain ⟨hnow, hleft⟩ := hw.of_not_fired hb hlater
      rintro (hpast | ⟨hempty, hstack⟩)
      · exact absurd hpast (Int.not_lt.mpr hnow)
      · rcases hleft with hleft | ⟨rest, hleft⟩
        · rw [show b.sim.scheduler.isEmpty = true from hempty] at hleft
          cases hleft
        · exact absurd hleft (hstack rest)
    · exact ⟨hw.deadline_eq, Or.inr hone, fun _ => hone⟩

/-- The owner makes a watchdog, pings it with three delays and has the events dispatched. The
function of the watchdog records the time. -/
def alarm : Code Bool (List Time) where
  routine
    | true =>
      .ask (.newWatchdog false) fun w => .ask (.watchdog w (.ping (.clamp 10))) fun _ =>
        .ask (.watchdog w (.ping (.clamp 100))) fun _ =>
          .ask (.watchdog w (.ping (.clamp 50))) fun _ => .run fun _ => .done ()
    | false =>
      .ask (.sim .now) fun t => .ask (.update fun (times : List Time) => t :: times) fun _ => .done ()
  observe _ _ _ u := (u, [])

/-- The machine that is about to make the third ping. -/
def thirdPing : Machine Bool (List Time) :=
  play alarm (.enter id (alarm.routine true) :: List.replicate 3 .step)
    (idle 0 .list 1 .sequential { user := [] })

theorem fires_once_at_deadline_third_ping :
    Along alarm KeepsTimers (.enter id (alarm.routine true) :: List.replicate 3 .step)
        (idle 0 .list 1 .sequential { user := [] }) ∧
      ∃ d', (step alarm thirdPing).memory.watchdog? 0 = some d' ∧ d'.deadline = .clamp 100 ∧
        firings alarm 0 (List.replicate 8 .step) (step alarm thirdPing) = [d'.deadline] := by
  have hkeeps : Along alarm KeepsTimers (.enter id (alarm.routine true) :: List.replicate 3 .step)
      (idle 0 .list 1 .sequential { user := [] }) :=
    ⟨⟨rfl, rfl⟩, trivial, trivial, trivial, trivial⟩
  refine ⟨hkeeps, ?_⟩
  obtain ⟨d', hd', -, hdeadline, -, hrun⟩ :=
    fires_once_at_deadline alarm 0 .list 1 .sequential #[] [] _ hkeeps 0 _ (.clamp 50) _ _ rfl rfl rfl
  have hkeeps' : Along alarm KeepsTimers (List.replicate 8 .step) (step alarm thirdPing) :=
    ⟨trivial, trivial, trivial, trivial, trivial, trivial, trivial, trivial, trivial⟩
  have hspares : Along alarm (fun b mv => b.spares 0 mv) (List.replicate 8 .step)
      (step alarm thirdPing) := by
    decide +kernel
  obtain ⟨-, -, hfired⟩ := hrun (List.replicate 8 .step) (hkeeps'.and hspares)
  refine ⟨d', hd', hdeadline.trans (by decide +kernel), hfired (Or.inr ⟨by decide +kernel, ?_⟩)⟩
  intro rest hstack
  have hnot : (play alarm (List.replicate 8 .step) (step alarm thirdPing)).expires 0 = false := by
    decide +kernel
  rw [expires, show (play alarm (List.replicate 8 .step) (step alarm thirdPing)).stack = _ from
    hstack] at hnot
  cases hnot

/-- A ping that succeeds need not set the deadline to `delay` from now: of the pings with 10, 100
and 50 the last one leaves the deadline at 100, and this is when the function is invoked. -/
theorem deadline_ne_of_third_ping :
    (∃ next rest, thirdPing.stack =
      .exec (.ask (.watchdog 0 (.ping (.clamp 50))) next) :: rest) ∧
      (thirdPing.memory.watchdog? 0).map (fun d => (d.ping 0 (.clamp 50) thirdPing.sim).1) =
        some (.ok ()) ∧
      thirdPing.sim.now + .clamp 50 = .clamp 50 ∧
      ((step alarm thirdPing).memory.watchdog? 0).map (·.deadline) = some (.clamp 100) ∧
      firings alarm 0 (List.replicate 16 .step) (step alarm thirdPing) = [.clamp 100] ∧
      (play alarm (List.replicate 16 .step) (step alarm thirdPing)).isDone = true ∧
      (play alarm (List.replicate 16 .step) (step alarm thirdPing)).memory.user = [.clamp 100] := by
  refine ⟨⟨_, _, rfl⟩, rfl, ?_, ?_, ?_, ?_, ?_⟩ <;> decide +kernel

end EventKernel.Machine
