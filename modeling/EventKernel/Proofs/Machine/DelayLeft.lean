import EventKernel.Proofs.Machine.Teardown
import EventKernel.Proofs.Machine.Timers
import EventKernel.Proofs.Timer.Calls

/-!
# The time left to an event

A call that schedules an event, be it the call of a callback or of a timer, fixes the time at which
the event is due: the time of the call and the delay, or "never" if that is less. As long as the
handle has not expired, the clock and the time left add up to it, and when the event is started, its
callback finds the clock there. What else runs, is cancelled, removed or moved to another queue in
between makes no difference.
-/

namespace EventKernel

open Simulator (Passage Sound)

variable {K U : Type} {s t : Simulator K} {turns : List (Turn K)} {id : EventId} {delay due : Time}
  {task : Task K} {keys : List EventKey}

/-! ### Requests -/

/-- What a request schedules: the delay, the task, and the handle that is given out. -/
inductive SimRequest.Schedules (s : Simulator K) :
    SimRequest K → Time → Task K → EventId → Prop where
  | schedule {delay : Time} {k : K} {id : EventId} (h : (s.schedule delay (.user k)).1 = .ok id) :
      Schedules s (.schedule delay k) delay (.user k) id
  | scheduleNow {k : K} {id : EventId} (h : (s.scheduleNow (.user k)).1 = .ok id) :
      Schedules s (.scheduleNow k) .zero (.user k) id
  | scheduleWith {context : ContextId} {delay : Time} {k : K} {id : EventId}
      (h : (s.scheduleWith context delay (.user k)).1 = .ok id) :
      Schedules s (.scheduleWith context delay k) delay (.user k) id
  | stopAfter {delay : Time} {id : EventId} (h : (s.stopAfter delay).1 = .ok id) :
      Schedules s (.stopAfter delay) delay .stop id

lemma SimRequest.Schedules.scheduled {r : SimRequest K} (h : r.Schedules s delay task id) :
    s.Scheduled (r.apply s).2 delay task id := by
  cases h with
  | schedule h | scheduleNow h | scheduleWith h | stopAfter h => exact .call (.refl s) h (.refl _)

/-- A request lets an interval begin, with a certain state of the timer and in a certain
simulator. -/
inductive TrickleRequest.Begins (d : Trickle K) (s : Simulator K) :
    TrickleRequest K → Trickle K → Simulator K → Prop where
  | enable : Begins d s .enable d.drawn s
  | reset : Begins d s .reset { d with interval := d.minInterval } (d.stop s)
  | inconsistent (h : d.minInterval < d.interval) :
      Begins d s .inconsistent { d with interval := d.minInterval } (d.stop s)

lemma TrickleRequest.Begins.scheduled {r : TrickleRequest K} {d d' : Trickle K} {n : Nat}
    (h : r.Begins d s d' t) (hcall : d'.Schedules n t delay task id) :
    s.Scheduled (r.apply n d s).2.2 delay task id := by
  cases h with
  | enable => exact hcall.scheduled
  | reset => exact hcall.scheduled.behind (d.course_stop s)
  | inconsistent hlonger =>
    rw [apply, Trickle.inconsistent, if_pos hlonger]
    exact hcall.scheduled.behind (d.course_stop s)

/-! ### The time left -/

namespace Simulator

/-- The clock and the time left add up to the time at which a pending event is due. -/
lemma Sound.now_add_delayLeft (h : s.Sound) (htimely : s.Timely keys)
    (hpending : s.isExpired id = false) :
    ∃ ev, s.find? id = some ev ∧ s.delayLeft id = ev.key.time - s.now ∧
      0 ≤ (s.delayLeft id).ticks ∧
      s.now.ticks + (s.delayLeft id).ticks = ev.key.time.ticks ∧
      s.now + s.delayLeft id = ev.key.time := by
  obtain ⟨ev, hev, -, hleft⟩ := h.delayLeft_of_pending hpending
  have hle : s.now.ticks ≤ ev.key.time.ticks := htimely.le_of_find? hev
  have hnow := htimely.now_nonneg
  have hlt := ev.key.time.ticks_lt
  -- Neither the difference nor the sum leaves the range of times.
  have hticks : (s.delayLeft id).ticks = ev.key.time.ticks - s.now.ticks := by
    rw [hleft, Time.ticks_sub, Time.ticks_clamp]
    omega
  refine ⟨ev, hev, hleft, by omega, by omega, ?_⟩
  ext
  rw [Time.ticks_add, Time.ticks_clamp]
  omega

/-- A teardown event is due as late as the clock can go. -/
lemma time_of_find?_destroy {n : Nat} {ev : Event (Task K)}
    (hev : s.find? (.destroy n) = some ev) : ev.key.time = .never := by
  obtain ⟨old, -, rfl⟩ := Option.map_eq_some_iff.mp hev
  rfl

/-- The sum of the clock and a delay that is not negative stops at "never". -/
lemma Timely.ticks_now_add (h : s.Timely keys) (hdelay : delay.isNegative = false) :
    (s.now + delay).ticks = min (s.now.ticks + delay.ticks) Time.never.ticks := by
  have hnow := h.now_nonneg
  rw [Time.isNegative, decide_eq_false_iff_not] at hdelay
  rw [Time.ticks_add, Time.ticks_clamp]
  simp only [Time.never]
  omega

end Simulator

namespace Machine

variable {a : Machine K U}

/-! ### Steps that schedule -/

/-- The next step makes a call that schedules an event: at the request of a callback, or for a
timer. -/
inductive Schedules (a : Machine K U) : Time → Task K → EventId → Prop where
  | request {r : SimRequest K} {next : r.Reply → Program K U PUnit} {below : List (Frame K U)}
      {delay : Time} {task : Task K} {id : EventId}
      (hstack : a.stack = .exec (.ask (.sim r) next) :: below)
      (hcall : r.Schedules a.sim delay task id) : Schedules a delay task id
  | ping {w : Nat} {delay : Time} {next : Option (Except SimError PUnit) → Program K U PUnit}
      {below : List (Frame K U)} {d : Watchdog K} {s : Simulator K} {id : EventId}
      (hstack : a.stack = .exec (.ask (.watchdog w (.ping delay)) next) :: below)
      (hd : a.memory.watchdog? w = some d) (harms : d.PingArms delay a.sim s)
      (hok : (s.schedule delay (.watchdog w)).1 = .ok id) : Schedules a delay (.watchdog w) id
  | expire {w : Nat} {below : List (Frame K U)} {d : Watchdog K} {id : EventId}
      (hstack : a.stack = .task (.watchdog w) :: below) (hd : a.memory.watchdog? w = some d)
      (hlive : d.cancelled = false) (hmoved : a.sim.now < d.deadline)
      (hok : (a.sim.schedule (d.deadline - a.sim.now) (.watchdog w)).1 = .ok id) :
      Schedules a (d.deadline - a.sim.now) (.watchdog w) id
  | begin {n : Nat} {r : TrickleRequest K} {next : Option r.Reply → Program K U PUnit}
      {below : List (Frame K U)} {d d' : Trickle K} {s : Simulator K} {delay : Time} {task : Task K}
      {id : EventId} (hstack : a.stack = .exec (.ask (.trickle n r) next) :: below)
      (hd : a.memory.trickle? n = some d) (hbegins : r.Begins d a.sim d' s)
      (hcall : d'.Schedules n s delay task id) : Schedules a delay task id
  | endInterval {n : Nat} {below : List (Frame K U)} {d : Trickle K} {delay : Time} {task : Task K}
      {id : EventId} (hstack : a.stack = .task (.trickleInterval n) :: below)
      (hd : a.memory.trickle? n = some d)
      (hcall : Trickle.Schedules n
        { d with interval := (d.interval.scale 2).earlier d.maxInterval } a.sim delay task id) :
      Schedules a delay task id

lemma Schedules.scheduled (code : Code K U) (h : a.Schedules delay task id) :
    a.sim.Scheduled (step code a).sim delay task id := by
  obtain ⟨s, m, stack, broken⟩ := a
  cases h with
  | request hstack hcall =>
    obtain rfl : stack = _ := hstack
    exact hcall.scheduled
  | @ping w _ _ _ d _ _ hstack hd harms hok =>
    obtain rfl : stack = _ := hstack
    have hcall := harms.scheduled hok
    have hd : m.watchdog? w = some d := hd
    simp only [step, stepFrame, exec, Request.apply, hd]
    exact hcall
  | @expire w _ d _ hstack hd hlive hmoved hok =>
    obtain rfl : stack = _ := hstack
    have hcall := Watchdog.scheduled_expire hlive hmoved hok
    have hd : m.watchdog? w = some d := hd
    rw [step, stepFrame, start, hd]
    dsimp only
    split
    · next hexpire => rwa [hexpire] at hcall
    · next hexpire => rwa [hexpire] at hcall
  | @begin n _ _ _ d _ _ _ _ _ hstack hd hbegins hcall =>
    obtain rfl : stack = _ := hstack
    have hd : m.trickle? n = some d := hd
    simp only [step, stepFrame, exec, Request.apply, hd]
    exact hbegins.scheduled hcall
  | @endInterval n _ d _ _ _ hstack hd hcall =>
    obtain rfl : stack = _ := hstack
    have hd : m.trickle? n = some d := hd
    rw [step, stepFrame, start, hd]
    exact hcall.scheduled

/-! ### Runs -/

lemma books_move (code : Code K U) (mv : Move K U) (h : a.sim.Timely keys) (hb : a.broken = false)
    (hs : a.sim.Sound) (hbooks : a.sim.Books id due task) :
    (move code a mv).sim.Sound ∧ (move code a mv).sim.Books id due task := by
  have hp := passage_move code mv h hb hs
  exact ⟨hp.sound, hbooks.passage hp⟩

lemma books_play (code : Code K U) (moves : List (Move K U)) (h : a.sim.Timely keys)
    (hb : a.broken = false) (hs : a.sim.Sound) (hbooks : a.sim.Books id due task) :
    (play code moves a).sim.Sound ∧ (play code moves a).sim.Books id due task := by
  induction moves generalizing a keys with
  | nil => exact ⟨hs, hbooks⟩
  | cons mv moves ih =>
    obtain ⟨hb', h', -⟩ := timely_move code mv h hb
    obtain ⟨hs', hbooks'⟩ := books_move code mv h hb hs hbooks
    exact ih h' hb' hs' hbooks'

/-! ### Callbacks -/

/-- Frames stand on the stack above `base`. -/
def Above (base : List (Frame K U)) (a : Machine K U) : Prop :=
  ∃ f above, a.stack = f :: above ++ base

/-- The clock does not advance while a callback runs. -/
lemma now_move_of_above (code : Code K U) (mv : Move K U) (h : a.sim.Timely keys)
    (hb : a.broken = false) (ho : a.Orderly) {context : ContextId} {rest : List (Frame K U)}
    (habove : a.Above (.restore context :: .loop :: rest)) :
    (move code a mv).sim.now = a.sim.now := by
  cases moveCase code mv h hb with
  | course hnext hnone hbroken hcourse => exact hcourse.unchanged.2.1
  | @round below hstep hstack htaken hturns hround =>
    obtain ⟨f, above, hcons⟩ := habove
    have hnested := ho.nested
    rw [hstack] at hnested
    obtain ⟨-, rfl⟩ := List.cons.inj (hstack.symm.trans hcons)
    exact absurd (by simp) hnested.loop_not_mem

lemma now_play_of_above (code : Code K U) (moves : List (Move K U)) (h : a.sim.Timely keys)
    (hb : a.broken = false) (ho : a.Orderly) {context : ContextId} {rest : List (Frame K U)}
    (halong : Along code (fun c _ => c.Above (.restore context :: .loop :: rest)) moves a) :
    (play code moves a).sim.now = a.sim.now := by
  induction moves generalizing a keys with
  | nil => rfl
  | cons mv moves ih =>
    obtain ⟨hb', h', -⟩ := timely_move code mv h hb
    rw [play_cons, ih h' hb' (ho.move code mv h hb) halong.2]
    exact now_move_of_above code mv h hb ho halong.1

/-- A callback whose event is booked finds the clock at the time that was booked. -/
lemma now_of_books (code : Code K U) (h : a.sim.Timely keys) (hb : a.broken = false)
    (ho : a.Orderly) (hs : a.sim.Sound) (hbooks : a.sim.Books id due task) {ev : Event (Task K)}
    (htaken : a.taken? = some (id, ev)) (hlive : ev.cancelled = false) :
    ∃ context rest, a.stack = .next :: rest ∧
      (step code a).stack = .task task :: .restore context :: .loop :: rest ∧
      ∀ during,
        Along code (fun c _ => c.Above (.restore context :: .loop :: rest)) during (step code a) →
        (play code during (step code a)).sim.now = due := by
  obtain ⟨⟨context, rest, hstack, hstart⟩, -, hnow, -⟩ := step_of_taken? code h hb htaken hlive
  obtain ⟨hdue, htask⟩ := hbooks.2 ev (hs.find?_of_upcoming? (upcoming?_of_taken? htaken)).1
  rw [htask] at hstart
  refine ⟨context, rest, hstack, hstart, ?_⟩
  intro during habove
  obtain ⟨hb', h', -⟩ := timely_move code .step h hb
  have hstay := now_play_of_above code during h' hb' (ho.move code .step h hb) habove
  exact hstay.trans (hnow.trans hdue)

/-- From the call that schedules an event until the handle expires, the clock and the time left add
up to the time of the call and the delay, which stops at "never"; and when the event is started, its
callback finds the clock there for as long as it runs. A pending teardown event is as far away as
the clock can go, and for a handle that has expired no time is left. -/
theorem delayLeft_exact (code : Code K U) (identity : Nat) (kind : QueueKind) (buckets : Nat)
    (sync : SyncMode) (m : Memory K U) (moves : List (Move K U)) :
    let b := play code moves (idle identity kind buckets sync m)
    (∀ delay task id, b.Schedules delay task id → ∀ more,
      let due := b.sim.now + delay
      let a := play code more (step code b)
      due.ticks = min (b.sim.now.ticks + delay.ticks) Time.never.ticks ∧
      (a.sim.isExpired id = false →
        0 ≤ (a.sim.delayLeft id).ticks ∧
        a.sim.now.ticks + (a.sim.delayLeft id).ticks = due.ticks ∧
        a.sim.now + a.sim.delayLeft id = due) ∧
      ∀ ev, a.taken? = some (id, ev) → ev.cancelled = false →
        ∃ context rest, a.stack = .next :: rest ∧
          (step code a).stack = .task task :: .restore context :: .loop :: rest ∧
          ∀ during,
            Along code (fun c _ => c.Above (.restore context :: .loop :: rest)) during
              (step code a) →
            (play code during (step code a)).sim.now = due) ∧
    (∀ id, b.sim.isExpired id = true → b.sim.delayLeft id = .zero) ∧
    ∀ n, b.sim.isExpired (.destroy n) = false →
      b.sim.delayLeft (.destroy n) = .never - b.sim.now ∧
      b.sim.now.ticks + (b.sim.delayLeft (.destroy n)).ticks = Time.never.ticks := by
  intro b
  obtain ⟨hbroken, htimely, -⟩ : b.broken = false ∧ b.sim.Timely _ ∧ _ := timely_play code moves
    (Simulator.timely_create identity kind buckets sync) rfl
  have hturn : b.InTurn _ := (inTurn_idle identity kind buckets sync m).play code moves
    (Simulator.timely_create ..) rfl
  clear_value b
  refine ⟨?_, ?_, ?_⟩
  · intro delay task id hcall more due a
    obtain ⟨hdelay, hbooks⟩ := hturn.told.sound.books_of_scheduled (hcall.scheduled code)
    obtain ⟨hbroken', htimely', -⟩ :
        (step code b).broken = false ∧ (step code b).sim.Timely _ ∧ _ :=
      timely_move code .step htimely hbroken
    have hturn' : (step code b).InTurn _ := hturn.move code .step htimely hbroken
    obtain ⟨hsound, hbooks⟩ := books_play code more htimely' hbroken' hturn'.told.sound hbooks
    obtain ⟨hbroken'', htimely'', -⟩ := timely_play code more htimely' hbroken'
    refine ⟨htimely.ticks_now_add hdelay, ?_, ?_⟩
    · intro hpending
      obtain ⟨ev, hev, -, hnonneg, hticks, hsum⟩ := hsound.now_add_delayLeft htimely'' hpending
      obtain ⟨hdue, -⟩ := hbooks.2 ev hev
      rw [hdue] at hticks hsum
      exact ⟨hnonneg, hticks, hsum⟩
    · intro ev htaken hlive
      have horderly := (hturn'.play code more htimely' hbroken').orderly
      exact now_of_books code htimely'' hbroken'' horderly hsound hbooks htaken hlive
  · intro id hexpired
    simp only [Simulator.delayLeft, hexpired, if_true]
  · intro n hpending
    obtain ⟨ev, hev, hleft, -, hticks, -⟩ :=
      hturn.told.sound.now_add_delayLeft htimely hpending
    rw [Simulator.time_of_find?_destroy hev] at hleft hticks
    exact ⟨hleft, hticks⟩

/-- One event looks at the clock, the other does nothing. -/
def looking : Code Bool Time where
  routine
    | true => .ask (.sim .now) fun now => .ask (.update fun _ => now) fun _ => .done ()
    | false => .done ()
  observe _ _ _ u := (u, [])

/-- An event is scheduled five ticks ahead, another one in front of it; then the queue is exchanged
and the loop is run. -/
theorem delayLeft_exact_looking :
    let b : Machine Bool Time := play looking
      [.enter (fun m => m) (.ask (.sim (.schedule (.clamp 5) true)) fun _ =>
        .ask (.sim (.schedule (.clamp 2) false)) fun _ =>
          .ask (.sim (.setScheduler .heap)) fun _ => .run fun _ => .done ())]
      (idle 0 .list 1 .sequential { user := .zero })
    let a := play looking (List.replicate 9 .step) (step looking b)
    b.Schedules (.clamp 5) (.user true) (.queued 0 1) ∧
      a.sim.isExpired (.queued 0 1) = false ∧ a.sim.now = .clamp 2 ∧
      (a.sim.now.ticks + (a.sim.delayLeft (.queued 0 1)).ticks = 5) ∧
      (∃ ev, a.taken? = some (.queued 0 1, ev) ∧ ev.cancelled = false) ∧
      (play looking [.step, .step] (step looking a)).sim.now = .clamp 5 := by
  intro b a
  have hcall : b.Schedules (.clamp 5) (.user true) (.queued 0 1) :=
    .request rfl (.schedule (by decide +kernel))
  have hpending : a.sim.isExpired (.queued 0 1) = false := by decide +kernel
  have htaken : a.taken?.map (fun p => (p.1, p.2.cancelled)) = some (.queued 0 1, false) := by
    decide +kernel
  obtain ⟨⟨id, ev⟩, htaken, hev⟩ := Option.map_eq_some_iff.mp htaken
  obtain ⟨rfl, hlive⟩ := Prod.mk.inj hev
  obtain ⟨-, hleft, hrun⟩ :=
    (delayLeft_exact looking 0 .list 1 .sequential { user := .zero } _).1 _ _ _ hcall
      (List.replicate 9 .step)
  obtain ⟨context, rest, -, hstart, hnow⟩ := hrun ev htaken hlive
  refine ⟨hcall, hpending, by decide +kernel, (hleft hpending).2.1, ⟨ev, htaken, hlive⟩, ?_⟩
  refine hnow [.step, .step] ⟨⟨_, [], hstart⟩, ?_, trivial⟩
  have hnext : ∀ c : Machine Bool Time,
      c.stack = .task (.user true) :: .restore context :: .loop :: rest →
        (step looking c).stack =
          .exec (looking.routine true) :: .restore context :: .loop :: rest := by
    rintro ⟨s, m, stack, broken⟩ rfl
    rfl
  exact ⟨_, [], hnext _ hstart⟩

end Machine

end EventKernel
