import EventKernel.Proofs.Machine.Teardown
import EventKernel.Proofs.Machine.Watchdog

/-!
# Watchdogs and the latest ping

A watchdog goes by the latest ping that succeeded, unless it was cancelled later. Its deadline is no
earlier than this ping asks for, and its function is invoked exactly at the deadline. Only a ping
moves the deadline, and only a ping arms the watchdog, so this can be read off a run: every step
keeps the record of a watchdog, or it disarms it, or it is a ping.
-/

namespace EventKernel.Machine

open Simulator (Timely)

variable {K U : Type} {keys : List EventKey}

/-- The time a ping was made at, and the delay it asked for. -/
structure Ping where
  time : Time
  delay : Time

/-- The ping that a watchdog goes by after a move, if it went by `p` before. -/
def heededAfter (w : Nat) (a : Machine K U) (mv : Move K U) (p : Option Ping) : Option Ping :=
  match mv, a.stack with
  | .step, .exec (.ask (.watchdog v (.ping delay)) _) :: _ =>
    if v = w ∧ (a.memory.watchdog? w).any (fun d => (d.ping w delay a.sim).1.isOk) then
      some ⟨a.sim.now, delay⟩
    else p
  | .step, .exec (.ask (.watchdog v .cancel) _) :: _ => if v = w then none else p
  | _, _ => p

/-- The ping that a watchdog goes by at the end of a run: the latest one that succeeded, unless the
watchdog was cancelled later. -/
def heeded (code : Code K U) (w : Nat) : List (Move K U) → Machine K U → Option Ping → Option Ping
  | [], _, p => p
  | mv :: moves, a, p => heeded code w moves (move code a mv) (a.heededAfter w mv p)

/-! ### The record of a watchdog -/

/-- What a move leaves of the record of a watchdog that goes by `p`, and which ping the watchdog
goes by afterwards. -/
inductive Records (w : Nat) (a : Machine K U) (p : Option Ping) :
    Watchdog K → Option Ping → Prop where
  | kept {d d' : Watchdog K} (hd : a.memory.watchdog? w = some d)
      (hcancelled : d'.cancelled = d.cancelled) (hdeadline : d'.deadline = d.deadline) :
      Records w a p d' p
  | disarmed {d' : Watchdog K} {p' : Option Ping} (hcancelled : d'.cancelled = true) :
      Records w a p d' p'
  | pinged {d : Watchdog K} {delay : Time} (hd : a.memory.watchdog? w = some d)
      (hok : (d.ping w delay a.sim).1 = .ok ()) :
      Records w a p (d.ping w delay a.sim).2.1 (some ⟨a.sim.now, delay⟩)
  | refused {d : Watchdog K} {delay : Time} {e : SimError} (hd : a.memory.watchdog? w = some d)
      (herror : (d.ping w delay a.sim).1 = .error e) :
      Records w a p (d.ping w delay a.sim).2.1 p

section

variable {w : Nat} {a : Machine K U} {p : Option Ping} {d' : Watchdog K}

lemma Records.of_eq {m' : Memory K U} (hw : m'.watchdogs = a.memory.watchdogs)
    (hd' : m'.watchdog? w = some d') : Records w a p d' p :=
  .kept ((Memory.watchdog?_congr hw w).symm.trans hd') rfl rfl

/-- A watchdog is changed in nothing that matters to its deadline. -/
lemma Records.of_setWatchdog {v : Nat} {d d₁ : Watchdog K} (hd : a.memory.watchdog? v = some d)
    (hcancelled : d₁.cancelled = d.cancelled) (hdeadline : d₁.deadline = d.deadline)
    (hd' : (a.memory.setWatchdog v (some d₁)).watchdog? w = some d') : Records w a p d' p := by
  rw [Memory.watchdog?_setWatchdog] at hd'
  split at hd'
  · next heq =>
    rw [heq.1, ← Option.some.inj hd']
    exact .kept hd hcancelled hdeadline
  · exact .kept hd' rfl rfl

lemma Records.of_setWatchdog_ne {v : Nat} {new : Option (Watchdog K)} (hv : w ≠ v)
    (hd' : (a.memory.setWatchdog v new).watchdog? w = some d') : Records w a p d' p := by
  rw [Memory.watchdog?_setWatchdog, if_neg fun hand => hv hand.1] at hd'
  exact .kept hd' rfl rfl

end

lemma expire_unchanged (d : Watchdog K) (w : Nat) (s : Simulator K) :
    (d.expire w s).2.1.cancelled = d.cancelled ∧ (d.expire w s).2.1.deadline = d.deadline := by
  have hschedule : ∀ delay, (d.scheduleExpiry w delay s).2.1.cancelled = d.cancelled ∧
      (d.scheduleExpiry w delay s).2.1.deadline = d.deadline := by
    intro delay
    rw [Watchdog.scheduleExpiry]
    split <;> exact ⟨rfl, rfl⟩
  rw [Watchdog.expire]
  split
  · exact ⟨rfl, rfl⟩
  · split
    · exact hschedule _
    · exact ⟨rfl, rfl⟩

section

variable {w : Nat} {s : Simulator K} {m : Memory K U} {rest : List (Frame K U)} {broken : Bool}
  {p : Option Ping} {d' : Watchdog K}

lemma records_watchdog {v : Nat} {r : WatchdogRequest K} {next : Option r.Reply → Program K U PUnit}
    (hd' : (Request.apply (.watchdog v r) s m).2.2.watchdog? w = some d') :
    Records w ⟨s, m, .exec (.ask (.watchdog v r) next) :: rest, broken⟩ p d'
      (heededAfter w ⟨s, m, .exec (.ask (.watchdog v r) next) :: rest, broken⟩ .step p) := by
  rw [Request.apply] at hd'
  cases hd : m.watchdog? v with
  | none =>
    simp only [hd] at hd'
    have hv : v ≠ w := by
      rintro rfl
      rw [hd] at hd'
      cases hd'
    cases r <;> simp only [heededAfter, hv, if_false, false_and] <;> exact .of_eq rfl hd'
  | some d =>
    simp only [hd] at hd'
    by_cases hv : v = w
    · subst hv
      rw [Memory.watchdog?_setWatchdog, if_pos ⟨rfl, Memory.lt_size_of_watchdog? hd⟩] at hd'
      obtain rfl : (r.apply v d s).2.1 = d' := Option.some.inj hd'
      cases r with
      | setFunction k => exact .kept hd rfl rfl
      | info => exact .kept hd rfl rfl
      | cancel => exact .disarmed rfl
      | ping delay =>
        simp only [heededAfter, hd, Option.any_some, true_and]
        cases hanswer : (d.ping v delay s).1 with
        | ok => exact .pinged hd hanswer
        | error e => exact .refused hd hanswer
    · have hkept : Records w ⟨s, m, .exec (.ask (.watchdog v r) next) :: rest, broken⟩ p d' p :=
        .of_setWatchdog_ne (Ne.symm hv) hd'
      cases r <;> simpa only [heededAfter, hv, if_false, false_and] using hkept

lemma records_request {r : Request K U} {next : r.Reply → Program K U PUnit}
    (hd' : (r.apply s m).2.2.watchdog? w = some d') :
    Records w ⟨s, m, .exec (.ask r next) :: rest, broken⟩ p d'
      (heededAfter w ⟨s, m, .exec (.ask r next) :: rest, broken⟩ .step p) := by
  cases r with
  | watchdog v r => exact records_watchdog hd'
  | sim | load | update | newTrickle | dropTrickle => exact .of_eq rfl hd'
  | inbox target r =>
    refine .of_eq ?_ hd'
    show (m.askInbox target r s).2.2.watchdogs = m.watchdogs
    rw [(m.askInbox_unchanged target r s).2]
  | trickle n r =>
    refine .of_eq ?_ hd'
    rw [Request.apply]
    split <;> rfl
  | newWatchdog k =>
    rw [Request.apply, Memory.watchdog?, Array.getElem?_push] at hd'
    split at hd'
    · rw [← (Option.some.inj hd' : Watchdog.create k = d')]
      exact .disarmed rfl
    · exact .kept hd' rfl rfl
  | dropWatchdog v =>
    by_cases hv : w = v
    · subst hv
      rw [Request.apply, Memory.watchdog?_setWatchdog] at hd'
      split at hd'
      · cases hd'
      · exact .kept hd' rfl rfl
    · exact .of_setWatchdog_ne hv hd'

lemma records_start (code : Code K U) {task : Task K}
    (hd' : (start code task s m rest).memory.watchdog? w = some d') :
    Records w ⟨s, m, .task task :: rest, broken⟩ p d' p := by
  cases task with
  | user | stop => exact .of_eq rfl hd'
  | watchdog v =>
    rw [start] at hd'
    cases hd : m.watchdog? v with
    | none =>
      rw [hd] at hd'
      exact .of_eq rfl hd'
    | some d =>
      obtain ⟨hcancelled, hdeadline⟩ := expire_unchanged d v s
      simp only [hd] at hd'
      generalize d.expire v s = r at hcancelled hdeadline hd'
      obtain ⟨_ | k, d₁, t⟩ := r <;> exact .of_setWatchdog hd hcancelled hdeadline hd'
  | trickleInterval n =>
    refine .of_eq ?_ hd'
    rw [start]
    split <;> rfl
  | trickleFire n =>
    refine .of_eq ?_ hd'
    rw [start]
    split
    · rfl
    · split <;> rfl

end

/-- A move keeps the record of a watchdog, disarms it, or pings it. -/
lemma records_move (code : Code K U) (mv : Move K U) {a : Machine K U} (h : a.sim.Timely keys)
    (hkeeps : a.KeepsTimers mv) {w : Nat} (p : Option Ping) {d' : Watchdog K}
    (hd' : (move code a mv).memory.watchdog? w = some d') :
    Records w a p d' (a.heededAfter w mv p) := by
  obtain ⟨s, m, stack, broken⟩ := a
  cases mv with
  | remote r => exact .of_eq rfl hd'
  | enter f q =>
    rw [move] at hd'
    split at hd'
    · exact .of_eq hkeeps.1 hd'
    · exact .of_eq rfl hd'
  | step =>
    cases stack with
    | nil => exact .of_eq rfl hd'
    | cons f rest =>
      rw [move, step] at hd'
      cases f with
      | exec q =>
        cases q with
        | ask r next => exact records_request hd'
        | done | perform => exact .of_eq rfl hd'
        | run next =>
          refine .of_eq ?_ hd'
          rw [stepFrame, exec]
          split <;> rfl
        | destroy next =>
          refine .of_eq ?_ hd'
          rw [stepFrame, exec]
          split <;> rfl
      | task task => exact records_start code hd'
      | next =>
        have hround := round_takeNext code m rest h.consistent h.now_le
        rw [stepFrame] at hd'
        generalize takeNext code s m rest = b at hround hd'
        cases hround with
        | finish | pass => exact .of_eq rfl hd'
        | @start id ev q =>
          refine .of_eq ?_ hd'
          rw [(launch_unchanged code id ev { s with scheduler := q, now := ev.key.time } m rest).2]
      | rearmWatchdog v k =>
        rw [stepFrame] at hd'
        cases hd : m.watchdog? v with
        | none =>
          rw [hd] at hd'
          exact .of_eq (m.watchdogs_setWatchdog_none hd) hd'
        | some d =>
          rw [hd, Option.map_some] at hd'
          have hcancelled : (d.restore k).cancelled = d.cancelled := rfl
          exact .of_setWatchdog hd hcancelled rfl hd'
      | teardown =>
        refine .of_eq ?_ hd'
        rw [stepFrame, nextTeardown]
        dsimp only
        split <;> rfl
      | loop | restore | rearmTrickle | close | clear => exact .of_eq rfl hd'

/-! ### The deadline and the latest ping -/

/-- Unless it is cancelled, a watchdog goes by a ping, and its deadline is no earlier than this ping
asks for. -/
structure Paced (w : Nat) (p : Option Ping) (a : Machine K U) : Prop where
  attended : a.Attended
  closing : a.Closing
  ping : ∀ d, a.memory.watchdog? w = some d → d.cancelled = false → a.sim.phase ≠ .destroyed →
    ∃ q, p = some q ∧ q.time + q.delay ≤ d.deadline

lemma paced_idle (w identity : Nat) (kind : QueueKind) (buckets : Nat) (sync : SyncMode)
    (inboxes : Array (Inbox (Task K))) (u : U) :
    (idle identity kind buckets sync { inboxes, user := u }).Paced w none where
  attended := attended_idle identity kind buckets sync inboxes u
  closing := closing_idle identity kind buckets sync _
  ping d hd := by cases Memory.lt_size_of_watchdog? hd

lemma Paced.move (code : Code K U) (mv : Move K U) {w : Nat} {p : Option Ping} {a : Machine K U}
    (hp : a.Paced w p) (h : a.sim.Timely keys) (hb : a.broken = false)
    (hkeeps : a.KeepsTimers mv) : (Machine.move code a mv).Paced w (a.heededAfter w mv p) where
  attended := hp.attended.move code mv h hb hkeeps
  closing := hp.closing.move code mv hp.attended.orderly h
  ping := by
    intro d' hd' hlive halive
    have halive : a.sim.phase ≠ .destroyed := fun hphase =>
      halive (destroyed_move code mv hp.attended.orderly hp.closing hphase)
    generalize hafter : a.heededAfter w mv p = p'
    have hrecords := records_move code mv h hkeeps p hd'
    rw [hafter] at hrecords
    cases hrecords with
    | kept hd hcancelled hdeadline =>
      rw [hdeadline]
      exact hp.ping _ hd (hcancelled.symm.trans hlive) halive
    | disarmed hcancelled =>
      rw [hcancelled] at hlive
      cases hlive
    | @pinged d delay hd hok =>
      have hping := ((hp.attended.guards.watchdog w d hd).ping hp.attended.sound h.now_nonneg
        (fun _ _ => h.le_of_find?) delay).2.2 hok
      exact ⟨_, rfl, hping.2.2.2⟩
    | refused hd herror =>
      rw [Watchdog.ping_of_error hp.attended.sound halive herror] at hlive ⊢
      exact hp.ping _ hd hlive halive

lemma Paced.play (code : Code K U) (moves : List (Move K U)) {w : Nat} {p : Option Ping}
    {a : Machine K U} (hp : a.Paced w p) (h : a.sim.Timely keys) (hb : a.broken = false)
    (halong : Along code KeepsTimers moves a) :
    (Machine.play code moves a).Paced w (heeded code w moves a p) := by
  induction moves generalizing a keys p with
  | nil => exact hp
  | cons mv moves ih =>
    obtain ⟨hb', h', -⟩ := timely_move code mv h hb
    exact ih (hp.move code mv h hb halong.1) h' hb' halong.2

/-- A function is invoked at the deadline of a watchdog that is not cancelled. -/
lemma Attended.due_of_firing? {w : Nat} {a : Machine K U} (ha : a.Attended) (h : a.sim.Timely keys)
    {d : Watchdog K} (hd : a.memory.watchdog? w = some d) {k : K} (hfiring : a.firing? w = some k) :
    d.cancelled = false ∧ a.sim.now = d.deadline ∧ a.sim.phase = .running := by
  obtain ⟨s, m, stack, broken⟩ := a
  obtain ⟨rest, rfl, hexpire⟩ : ∃ rest, stack = .task (.watchdog w) :: rest ∧
      (d.expire w s).1 = some k := by
    rw [firing?] at hfiring
    split at hfiring
    · next v rest hstack =>
      split at hfiring
      · next hv =>
        subst hv
        rw [hd] at hfiring
        exact ⟨rest, hstack, hfiring⟩
      · cases hfiring
    · cases hfiring
  obtain ⟨hresting, hle⟩ := ha.due w d rest rfl hd
  have hrunning : s.phase = .running := ha.orderly.nested.of_expiry.1
  have halive : s.phase ≠ .destroyed := by
    rw [hrunning]
    simp
  rcases Watchdog.expire_cases d ha.sound hresting h.now_nonneg hle halive with
    ⟨-, he⟩ | ⟨-, id, t, he, -⟩ | ⟨hlive, hnow, -⟩
  · rw [he] at hexpire
    cases hexpire
  · rw [he] at hexpire
    cases hexpire
  · exact ⟨hlive, hnow, hrunning⟩

/-- At most one expiry of a watchdog is stored that is not cancelled, the one that it names, and its
time is not past the deadline. The function is invoked exactly at the deadline, not before the time
that the latest successful ping asked for, and never after the watchdog was cancelled without such
a ping since. If an armed watchdog is neither pinged, cancelled nor dropped any more, then its
function has been invoked exactly once when the loop is left while no stop is pending; and none is
if nobody has asked for one. -/
theorem fires_as_pinged (code : Code K U) (identity : Nat) (kind : QueueKind) (buckets : Nat)
    (sync : SyncMode) (inboxes : Array (Inbox (Task K))) (u : U) (moves : List (Move K U))
    (hkeeps : Along code KeepsTimers moves
      (idle identity kind buckets sync { inboxes := inboxes, user := u })) :
    let a₀ := idle identity kind buckets sync { inboxes := inboxes, user := u }
    let a := play code moves a₀
    ∀ w d, a.memory.watchdog? w = some d →
      (∀ id ev, a.sim.find? id = some ev → ev.task = .watchdog w → ev.cancelled = false →
        id = d.event ∧ ev.key.time ≤ d.deadline) ∧
      (∀ k, a.firing? w = some k → d.cancelled = false ∧ a.sim.now = d.deadline ∧
        ∃ p, heeded code w moves a₀ none = some p ∧ p.time + p.delay ≤ a.sim.now) ∧
      (d.isPending a.sim = true → ∀ more,
        Along code (fun b mv => b.KeepsTimers mv ∧ b.spares w mv) more a →
        let b := play code more a
        ∀ rest, b.stack = .next :: rest → (step code b).stack = rest →
          b.sim.stopPending = false → firings code w more a = [d.deadline]) ∧
      (a.sim.stopPending = false → ∀ more, Along code (fun b mv => ¬b.AsksStop code mv) more a →
        (play code more a).sim.stopPending = false) := by
  intro a₀ a w d hd
  have hstart : Simulator.Timely [] a₀.sim := Simulator.timely_create ..
  obtain ⟨hb, h, -⟩ := timely_play code moves hstart rfl
  have hp : a.Paced w (heeded code w moves a₀ none) :=
    (paced_idle w identity kind buckets sync inboxes u).play code moves hstart rfl hkeeps
  have ha := hp.attended
  refine ⟨(ha.guards.watchdog w d hd).expiry, ?_, ?_,
    fun hstop more halong => stopPending_play code more h hb hstop halong⟩
  · intro k hfiring
    obtain ⟨hlive, hnow, hrunning⟩ := ha.due_of_firing? h hd hfiring
    obtain ⟨p, hp, hle⟩ := hp.ping d hd hlive (by rw [hrunning]; simp)
    exact ⟨hlive, hnow, p, hp, hnow ▸ hle⟩
  · intro hpending more halong b rest hstack hreturn hstop
    rw [Watchdog.isPending, Bool.and_eq_true, Bool.not_eq_true', Bool.not_eq_true'] at hpending
    obtain ⟨-, hlater, -⟩ := timely_play code more h hb
    have hb' : b.Attended :=
      attended_play code more ha h hb (halong.mono fun _ _ hand => hand.1)
    rcases (Watched.armed hd rfl hpending.1 hpending.2).play code more ha h hb halong with
      ⟨-, hw⟩ | ⟨-, hone, -⟩
    · rcases (hw.of_not_fired hb' hlater).2 with hleft | ⟨below, hleft⟩
      · have hnil := (finish_of_return code hlater hstack hstop hreturn).1
        rw [hlater.consistent.isEmpty_iff.mpr hnil] at hleft
        cases hleft
      · rw [show b.stack = _ from hstack] at hleft
        cases hleft
    · exact hone

/-- The owner makes a watchdog, pings it and has the events dispatched. The function of the watchdog
pings it again the first time. -/
def keptAlive : Code Bool Nat where
  routine
    | true => .ask (.newWatchdog false) fun w => .ask (.watchdog w (.ping (.clamp 10))) fun _ =>
        .run fun _ => .done ()
    | false => .ask .load fun (n : Nat) => .ask (.update (· + 1)) fun _ =>
        if n = 0 then .ask (.watchdog 0 (.ping (.clamp 5))) fun _ => .done () else .done ()
  observe _ _ _ u := (u, [])

/-- The owner enters its program, and some steps are made. -/
def keepAlive (n : Nat) : List (Move Bool Nat) :=
  .enter id (keptAlive.routine true) :: List.replicate n .step

theorem fires_as_pinged_from_callback :
    Along keptAlive KeepsTimers (keepAlive 5) (idle 0 .list 1 .sequential { user := 0 }) ∧
      Along keptAlive KeepsTimers (keepAlive 9) (idle 0 .list 1 .sequential { user := 0 }) ∧
      (∃ p, heeded keptAlive 0 (keepAlive 5) (idle 0 .list 1 .sequential { user := 0 }) none =
        some p ∧ p.time + p.delay ≤ .clamp 10) ∧
      firings keptAlive 0 (List.replicate 12 .step)
        (play keptAlive (keepAlive 9) (idle 0 .list 1 .sequential { user := 0 })) =
          [.clamp 15] := by
  have hsteps : ∀ n a, Along keptAlive KeepsTimers (List.replicate n .step) a := by
    intro n
    induction n with
    | zero => exact fun _ => trivial
    | succ n ih => exact fun _ => ⟨trivial, ih _⟩
  have hkeeps : ∀ n, Along keptAlive KeepsTimers (keepAlive n)
      (idle 0 .list 1 .sequential { user := 0 }) := fun n => ⟨⟨rfl, rfl⟩, hsteps n _⟩
  refine ⟨hkeeps 5, hkeeps 9, ?_, ?_⟩
  · have hany : ((play keptAlive (keepAlive 5)
        (idle 0 .list 1 .sequential { user := 0 })).memory.watchdog? 0).isSome = true := by
      decide +kernel
    obtain ⟨d, hd⟩ := Option.isSome_iff_exists.mp hany
    obtain ⟨-, hfires, -⟩ :=
      fires_as_pinged keptAlive 0 .list 1 .sequential #[] 0 _ (hkeeps 5) 0 d hd
    obtain ⟨-, -, p, hp, hle⟩ := hfires false (by decide +kernel)
    refine ⟨p, hp, ?_⟩
    have hnow : (play keptAlive (keepAlive 5)
        (idle 0 .list 1 .sequential { user := 0 })).sim.now = .clamp 10 := by
      decide +kernel
    rw [← hnow]
    exact hle
  · have hany : ((play keptAlive (keepAlive 9)
        (idle 0 .list 1 .sequential { user := 0 })).memory.watchdog? 0).any (fun d =>
          d.isPending (play keptAlive (keepAlive 9)
            (idle 0 .list 1 .sequential { user := 0 })).sim && d.deadline = .clamp 15) = true := by
      decide +kernel
    obtain ⟨d, hd, hand⟩ := (Option.any_eq_true _ _).mp hany
    rw [Bool.and_eq_true, decide_eq_true_iff] at hand
    obtain ⟨-, -, hruns, -⟩ :=
      fires_as_pinged keptAlive 0 .list 1 .sequential #[] 0 _ (hkeeps 9) 0 d hd
    rw [← hand.2]
    have hspares : Along keptAlive (fun b mv => b.spares 0 mv) (List.replicate 12 .step)
        (play keptAlive (keepAlive 9) (idle 0 .list 1 .sequential { user := 0 })) := by
      decide +kernel
    refine hruns hand.1 (List.replicate 12 .step) ((hsteps 12 _).and hspares) [.exec (.done ())]
      ?_ ?_ ?_
    · with_unfolding_all rfl
    · with_unfolding_all rfl
    · decide +kernel

end EventKernel.Machine
