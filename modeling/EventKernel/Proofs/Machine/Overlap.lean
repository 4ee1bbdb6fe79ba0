import EventKernel.Proofs.Machine.Trickle

/-!
# Overlapping intervals

A trickle timer remembers only the events of the interval that began last. Resetting it cancels
these before a new interval begins, but enabling it does not, so the intervals of a timer that is
enabled while it runs overlap, and each of them is followed by further ones. As long as this does
not happen, the timer names all of its pending events, except for firing points that are due now.
Then stopping it works: its function is not invoked any more, except for a firing point that was due
when the timer was stopped.
-/

namespace EventKernel

open Simulator (EventCourse Passage Sound Timely)
open Trickle (Ended OwnEvent OwnTask NoneIssued Sole)

variable {K U : Type} {s t : Simulator K} {turns : List (Turn K)} {keys : List EventKey}
  {n : Nat} {d : Trickle K}

/-! ### One timer -/

namespace Trickle

/-- What is held and the clock are all that matters. -/
lemma Sole.of_find? (h : d.Sole n s) (hfind : ∀ id, t.find? id = s.find? id)
    (hnow : t.now = s.now) : d.Sole n t where
  interval id ev hev := h.interval id ev ((hfind id).symm.trans hev)
  fire id ev hev := by
    rw [hnow]
    exact h.fire id ev ((hfind id).symm.trans hev)
  order last ev hlast hpending hev :=
    h.order last ev ((hfind _).symm.trans hlast) hpending ((hfind _).symm.trans hev)

lemma Ended.of_find? (h : Ended n s) (hfind : ∀ id, t.find? id = s.find? id)
    (hnow : t.now = s.now) : Ended n t where
  interval id ev hev := h.interval id ev ((hfind id).symm.trans hev)
  fire id ev hev := by
    rw [hnow]
    exact h.fire id ev ((hfind id).symm.trans hev)

lemma core_eq_iff {d' : Trickle K} : d'.core = d.core ↔ ∃ k, d' = { d with function := k } := by
  constructor
  · intro h
    refine ⟨d'.function, ?_⟩
    obtain ⟨⟩ := d
    obtain ⟨⟩ := d'
    cases h
    rfl
  · rintro ⟨k, rfl⟩
    rfl

end Trickle

/-- The record of a timer of which only the function may have changed. -/
lemma Memory.of_core_eq {m m' : Memory K U} {d' : Trickle K}
    (h : (m'.trickle? n).map Trickle.core = (m.trickle? n).map Trickle.core)
    (hd' : m'.trickle? n = some d') :
    ∃ d k, m.trickle? n = some d ∧ d' = { d with function := k } := by
  rw [hd', Option.map_some, eq_comm, Option.map_eq_some_iff] at h
  obtain ⟨d, hd, hcore⟩ := h
  obtain ⟨k, hk⟩ := Trickle.core_eq_iff.mp hcore.symm
  exact ⟨d, k, hd, hk⟩

/-- What is done in front of a new interval leaves the handles in place and issues nothing. -/
lemma Starts.spec {f : Frame K U} {first : Trickle K} (h : Starts n d s f first t turns) :
    EventCourse s turns t ∧ first.intervalEvent = d.intervalEvent ∧
      first.fireEvent = d.fireEvent ∧ t.now = s.now ∧ t.phase = s.phase ∧ NoneIssued n turns := by
  have hstop := d.course_stop s
  have hnow : (d.stop s).now = s.now := hstop.course.unchanged.2.1
  have hphase : (d.stop s).phase = s.phase := by rw [hstop.unchanged]
  cases h with
  | enable | interval => exact ⟨.refl s, rfl, rfl, rfl, rfl, fun x hx => by cases hx⟩
  | reset | inconsistent =>
    exact ⟨hstop, rfl, rfl, hnow, hphase, Trickle.noneIssued_stopTurns n d s⟩

namespace Machine

/-! ### No overlap -/

/-- Whether a move begins an interval of a timer while an event of it is pending. -/
def overlaps (n : Nat) (a : Machine K U) (mv : Move K U) : Bool :=
  (a.memory.trickle? n).any fun d => (a.call? n mv).any (·.overlaps d a.sim)

/-- The intervals of a timer do not overlap: it names its pending events, and the end of its
interval that is handled next is the only one. -/
structure Single (n : Nat) (a : Machine K U) : Prop where
  sole : ∀ d, a.memory.trickle? n = some d → d.Sole n a.sim
  ended : ∀ d, a.memory.trickle? n = some d → a.handled? = some (.interval n) → Ended n a.sim
  known : ∀ id ev, a.sim.find? id = some ev → OwnTask n ev.task → n < a.memory.trickles.size

lemma single_idle (n identity : Nat) (kind : QueueKind) (buckets : Nat) (sync : SyncMode)
    (inboxes : Array (Inbox (Task K))) (u : U) :
    (idle identity kind buckets sync { inboxes, user := u }).Single n where
  sole d hd := by cases Memory.lt_size_of_trickle? hd
  ended d hd := by cases Memory.lt_size_of_trickle? hd
  known id ev hev := by
    have hnone := (Simulator.told_create (K := K) identity kind buckets sync).life id
    rw [show (Simulator.create identity kind buckets sync).find? id = some ev from hev] at hnone
    cases hnone

section

variable {a b : Machine K U} {mv : Move K U} {f : Frame K U}

/-- Where a timer begins an interval, none of its intervals is left. -/
lemma Single.ended_of_starts (h : a.Single n) (ha : a.Attended) (hover : a.overlaps n .step = false)
    {rest : List (Frame K U)} (hstack : a.stack = f :: rest) {first : Trickle K}
    (hd : a.memory.trickle? n = some d) (hstarts : Starts n d a.sim f first t turns) :
    Ended n t := by
  have hsole := h.sole d hd
  have hkept := ha.guards.trickle n d hd
  cases hstarts with
  | enable next =>
    have hcall : a.call? n .step = some .enable := by
      rw [call?, hstack, List.head?_cons, Option.bind_some]
      exact if_pos rfl
    rw [overlaps, hd, Option.any_some, hcall, Option.any_some, TrickleRequest.overlaps,
      Bool.not_eq_false', Bool.and_eq_true] at hover
    exact hsole.ended ha.sound hover.1 hover.2
  | reset | inconsistent => exact hsole.stop ha.sound hkept
  | interval =>
    refine h.ended d hd ?_
    rw [handled?, hstack]
    rfl

lemma Single.serves (h : a.Single n) (ha : a.Attended) (hover : a.overlaps n .step = false)
    {rest : List (Frame K U)} (hstack : a.stack = f :: rest) (hhandled : b.handled? = none)
    (hserves : Serves n a.sim a.memory f turns b.sim b.memory) : b.Single n := by
  obtain ⟨hacts, hlt⟩ := hserves
  -- it is enough that the new record names what is pending now
  have hsuff : (∀ d, b.memory.trickle? n = some d → d.Sole n b.sim) → b.Single n := by
    refine fun hsole => ⟨hsole, ?_, fun _ _ _ _ => hlt⟩
    intro d _ hinterval
    rw [hhandled] at hinterval
    cases hinterval
  obtain ⟨t, m, stack, broken⟩ := b
  dsimp only at hacts hsuff
  generalize hr : m.trickle? n = r at hacts hsuff
  refine hsuff ?_
  rintro d' hd'
  cases hacts with
  | @count d hcall hd =>
    obtain rfl := Option.some.inj hd'
    exact (h.sole d hd).congr rfl rfl
  | @stop d hcall hd =>
    obtain rfl := Option.some.inj hd'
    have hkept := ha.guards.trickle n d hd
    exact ((h.sole d hd).stop ha.sound hkept).sole
      (hkept.passage (ha.sound.passage (d.course_stop a.sim).course))
  | @begin d first u turns hstarts hd =>
    obtain rfl := Option.some.inj hd'
    obtain ⟨hcourse, hinterval, hfire, -, -, -⟩ := hstarts.spec
    have hp := ha.sound.passage hcourse.course
    have hkept := (ha.guards.trickle n d hd).passage hp
    refine (h.ended_of_starts ha hover hstack hd hstarts).begin
      (Trickle.begun_beginInterval n first hp.sound) ⟨?_, ?_⟩
    · rw [hinterval]
      exact hkept.interval
    · rw [hfire]
      exact hkept.fire
  | @create d hn hinterval hfire =>
    have hnone : ∀ {id ev}, a.sim.find? id = some ev → ¬OwnTask n ev.task := by
      intro id ev hev htask
      exact absurd (h.known id ev hev htask) (by omega)
    obtain rfl := Option.some.inj hd'
    refine ⟨?_, ?_, ?_⟩
    · exact fun id ev hev htask => absurd (Or.inl htask) (hnone hev)
    · exact fun id ev hev htask => absurd (Or.inr htask) (hnone hev)
    · intro last ev hlast
      rw [hinterval, ha.sound.find?_of_isDetached rfl] at hlast
      cases hlast
  | drop => cases hd'

/-- Intervals that do not overlap go on so, unless a move begins another one too early. -/
lemma Single.move (h : a.Single n) (ha : a.Attended) (htimely : a.sim.Timely keys)
    (hb : b.Attended) (hp : Passage a.sim (a.turns mv) b.sim) (hfares : Fares n a mv b)
    (hover : a.overlaps n mv = false) : b.Single n := by
  cases hfares with
  | still hrecord hsize hnow hissued hcall hhandled hevent =>
    refine ⟨?_, ?_, ?_⟩
    · intro d' hd'
      obtain ⟨d, k, hd, rfl⟩ := Memory.of_core_eq hrecord hd'
      have hsole : ({ d with function := k } : Trickle K).Sole n a.sim :=
        (h.sole d hd).congr rfl rfl
      exact hsole.passage hp hnow hissued (hb.guards.trickle n _ hd')
    · intro d' hd' hhandled'
      obtain ⟨d, k, hd, rfl⟩ := Memory.of_core_eq hrecord hd'
      rcases hhandled with hsame | ⟨hnone, -⟩
      · exact (h.ended d hd (hsame.symm.trans hhandled')).passage hp hnow hissued
      · rw [hnone] at hhandled'
        cases hhandled'
    · intro id ev hev htask
      obtain ⟨old, hold, -, htask', -⟩ := hissued.held hp hev htask
      exact Nat.lt_of_lt_of_le (h.known id old hold (htask' ▸ htask)) hsize
  | serves hstep hstack hnow hhandled hserves =>
    subst hstep
    exact h.serves ha hover hstack hhandled hserves
  | @take rest id ev q hstep hstack hsome hnext hfind hnow htrickles hhandled =>
    refine ⟨?_, ?_, ?_⟩
    · intro d hd
      rw [Memory.trickle?_congr htrickles] at hd
      exact ((h.sole d hd).take ha.sound htimely hnext).1.of_find? hfind hnow
    · intro d hd hinterval
      rw [Memory.trickle?_congr htrickles] at hd
      rw [hhandled] at hinterval
      split at hinterval
      · cases hinterval
      · next hlive =>
        exact (((h.sole d hd).take ha.sound htimely hnext).2
          (Task.timerEvent?_eq_some_iff.mp hinterval) (Bool.eq_false_iff.mpr hlive)).of_find?
            hfind hnow
    · intro j other hj htask
      rw [hfind, (ha.sound.find?_take hnext ev.key.time).2] at hj
      split at hj
      · cases hj
      · rw [htrickles]
        exact h.known j other hj htask

lemma Single.play (code : Code K U) (moves : List (Move K U)) (h : a.Single n) (ha : a.Attended)
    (htimely : a.sim.Timely keys) (hb : a.broken = false)
    (halong : Along code (fun b mv => b.KeepsTimers mv ∧ b.overlaps n mv = false) moves a) :
    (Machine.play code moves a).Single n := by
  induction moves generalizing a keys with
  | nil => exact h
  | cons mv moves ih =>
    obtain ⟨⟨hkeeps, hover⟩, halong⟩ := halong
    obtain ⟨hb', htimely', -⟩ := timely_move code mv htimely hb
    have ha' := ha.move code mv htimely hb hkeeps
    exact ih (h.move ha htimely ha' (passage_move code mv htimely hb ha.sound)
      (fares_move code mv ha htimely hkeeps n) hover) ha' htimely' hb' halong

end

/-! ### Invocations -/

/-- The function that the next step takes out of a trickle timer, to run it. -/
def triggered? (n : Nat) (a : Machine K U) : Option K :=
  match a.stack with
  | .task (.trickleFire v) :: _ =>
    if v = n then (a.memory.trickle? n).bind fun d => d.fire.1 else none
  | _ => none

/-- The time at which a move invokes the function of a trickle timer. -/
def triggeredBy (n : Nat) (a : Machine K U) : Move K U → List Time
  | .step => (a.triggered? n).toList.map fun _ => a.sim.now
  | .remote _ | .enter .. => []

/-- The times at which the function of a trickle timer is invoked in the course of a run. -/
def triggers (code : Code K U) (n : Nat) : List (Move K U) → Machine K U → List Time
  | [], _ => []
  | mv :: moves, a => a.triggeredBy n mv ++ triggers code n moves (move code a mv)

section

variable {a b : Machine K U} {mv : Move K U}

lemma handled?_of_triggered? {k : K} (h : a.triggered? n = some k) :
    a.handled? = some (.fire n) := by
  rw [triggered?] at h
  split at h
  · next v rest hstack =>
    split at h
    · next hv =>
      subst hv
      rw [handled?, hstack]
      rfl
    · cases h
  · cases h

/-- The function is run next, and put back behind. -/
lemma step_of_triggered? (code : Code K U) {k : K} (h : a.triggered? n = some k) :
    ∃ rest, (step code a).stack = .exec (code.routine k) :: .rearmTrickle n k :: rest := by
  obtain ⟨s, m, stack, broken⟩ := a
  rw [triggered?] at h
  split at h
  · next v rest hstack =>
    obtain rfl : stack = .task (.trickleFire v) :: rest := hstack
    split at h
    · next hv =>
      subst hv
      obtain ⟨d, hd, hk⟩ := Option.bind_eq_some_iff.mp h
      refine ⟨rest, ?_⟩
      simp only [step, stepFrame, start, show m.trickle? v = some d from hd]
      generalize d.fire = r at hk ⊢
      obtain ⟨found, d'⟩ := r
      obtain rfl : found = some k := hk
      rfl
    · cases h
  · cases h

/-! ### Stopping -/

/-- Whether a move asks a timer to begin an interval. -/
def starts (n : Nat) (a : Machine K U) (mv : Move K U) : Bool := (a.call? n mv).any (·.starts)

/-- A timer that was stopped: no end of an interval is pending or handled, and firing points only if
some were left, all of them due at one time. -/
structure Stopped (n : Nat) (left : Prop) (due : Time) (a : Machine K U) : Prop where
  interval : ∀ id ev, a.sim.find? id = some ev → ev.task = .trickleInterval n → ev.cancelled = true
  fire : ∀ id ev, a.sim.find? id = some ev → ev.task = .trickleFire n → ev.cancelled = false →
    left ∧ ev.key.time = due
  not_ended : a.handled? ≠ some (.interval n)
  fired : a.handled? = some (.fire n) → left ∧ a.sim.now = due
  known : n < a.memory.trickles.size

variable {left : Prop} {due : Time}

lemma Stopped.of_noneIssued (h : a.Stopped n left due) (hp : Passage a.sim turns b.sim)
    (hissued : NoneIssued n turns) (hnow : b.sim.now = a.sim.now)
    (hhandled : b.handled? = a.handled? ∨ b.handled? = none)
    (hlt : n < b.memory.trickles.size) : b.Stopped n left due where
  interval id ev hev htask := by
    by_contra hlive
    obtain ⟨old, hold, -, htask', hlive'⟩ := hissued.held hp hev (Or.inl htask)
    have hcancelled := h.interval id old hold (htask'.trans htask)
    rw [hlive' (Bool.eq_false_iff.mpr hlive)] at hcancelled
    cases hcancelled
  fire id ev hev htask hlive := by
    obtain ⟨old, hold, hkey, htask', hlive'⟩ := hissued.held hp hev (Or.inr htask)
    rw [← hkey]
    exact h.fire id old hold (htask'.trans htask) (hlive' hlive)
  not_ended := by
    rcases hhandled with hsame | hnone
    · rw [hsame]
      exact h.not_ended
    · rw [hnone]
      simp
  fired := by
    rcases hhandled with hsame | hnone
    · rw [hsame, hnow]
      exact h.fired
    · rw [hnone]
      exact fun hfire => by cases hfire
  known := hlt

lemma Stopped.move (h : a.Stopped n left due) (ha : a.Attended)
    (hp : Passage a.sim (a.turns mv) b.sim) (hfares : Fares n a mv b)
    (hstarts : a.starts n mv = false) : b.Stopped n left due := by
  cases hfares with
  | still hrecord hsize hnow hissued hcall hhandled hevent =>
    exact h.of_noneIssued hp hissued hnow (hhandled.imp_right And.left)
      (Nat.lt_of_lt_of_le h.known hsize)
  | @serves f rest hstep hstack hnow hhandled hserves =>
    obtain ⟨hacts, hlt⟩ := hserves
    subst hstep
    have hissued : NoneIssued n (a.turns .step) := by
      generalize b.memory.trickle? n = r at hacts
      generalize b.sim = t at hacts
      generalize a.turns .step = turns at hacts
      cases hacts with
      | count | drop => exact fun x hx => by cases hx
      | stop => exact Trickle.noneIssued_stopTurns n _ _
      | create hn => exact absurd h.known (by omega)
      | begin hbegin hd =>
        -- no interval begins by itself when none has ended
        have hcall : ∀ r : TrickleRequest K, f.call? n = some r → r.starts = false := by
          intro r hr
          rw [starts, call?, hstack, List.head?_cons, Option.bind_some, hr] at hstarts
          exact hstarts
        cases hbegin with
        | enable | reset | inconsistent =>
          exact absurd (hcall _ (if_pos rfl)) (by simp [TrickleRequest.starts])
        | interval =>
          refine absurd ?_ h.not_ended
          rw [handled?, hstack]
          rfl
    exact h.of_noneIssued hp hissued hnow (Or.inr hhandled) hlt
  | @take rest id ev q hstep hstack hsome hnext hfind hnow htrickles hhandled =>
    obtain ⟨hev, hfind'⟩ := ha.sound.find?_take hnext ev.key.time
    have hheld : ∀ {j other}, b.sim.find? j = some other → a.sim.find? j = some other := by
      intro j other hj
      rw [hfind, hfind'] at hj
      split at hj
      · cases hj
      · exact hj
    have htask : ∀ {e : TimerEvent}, b.handled? = some e →
        ev.cancelled = false ∧ ev.task = e.task := by
      intro e he
      rw [hhandled] at he
      split at he
      · cases he
      · next hlive => exact ⟨Bool.eq_false_iff.mpr hlive, Task.timerEvent?_eq_some_iff.mp he⟩
    refine ⟨fun j other hj => h.interval j other (hheld hj),
      fun j other hj => h.fire j other (hheld hj), ?_, ?_, ?_⟩
    · intro hended
      obtain ⟨hlive, htask⟩ := htask hended
      have hcancelled := h.interval id ev hev htask
      rw [hlive] at hcancelled
      cases hcancelled
    · intro hfire
      obtain ⟨hlive, htask⟩ := htask hfire
      rw [hnow]
      exact h.fire id ev hev htask hlive
    · rw [htrickles]
      exact h.known

/-- A timer that was stopped invokes its function only at firing points that were left. -/
lemma Stopped.triggers (code : Code K U) (moves : List (Move K U)) (h : a.Stopped n left due)
    (ha : a.Attended) (htimely : a.sim.Timely keys) (hb : a.broken = false)
    (halong : Along code (fun b mv => b.KeepsTimers mv ∧ b.starts n mv = false) moves a) :
    (Machine.play code moves a).Stopped n left due ∧
      ∀ time ∈ Machine.triggers code n moves a, left ∧ time = due := by
  induction moves generalizing a keys with
  | nil => exact ⟨h, fun time htime => by cases htime⟩
  | cons mv moves ih =>
    obtain ⟨⟨hkeeps, hstarts⟩, halong⟩ := halong
    obtain ⟨hb', htimely', -⟩ := timely_move code mv htimely hb
    have hp := passage_move code mv htimely hb ha.sound
    obtain ⟨hstopped, hrest⟩ := ih (h.move ha hp (fares_move code mv ha htimely hkeeps n) hstarts)
      (ha.move code mv htimely hb hkeeps) htimely' hb' halong
    refine ⟨hstopped, fun time htime => ?_⟩
    rw [Machine.triggers] at htime
    rcases List.mem_append.mp htime with htime | htime
    · cases mv with
      | step =>
        obtain ⟨k, hk, rfl⟩ := List.mem_map.mp htime
        exact h.fired (handled?_of_triggered? (Option.mem_toList.mp hk))
      | remote | enter => cases htime
    · exact hrest time htime

end

/-- A pending event of a timer that the timer does not name. -/
def Stray (n : Nat) (d : Trickle K) (s : Simulator K) (id : EventId) : Prop :=
  ∃ ev, s.find? id = some ev ∧ ev.cancelled = false ∧ OwnTask n ev.task ∧ ¬d.OwnEvent id

/-- A stray firing point that is due now. -/
def Overtaken (n : Nat) (s : Simulator K) (id : EventId) : Prop :=
  ∃ ev, s.find? id = some ev ∧ ev.task = .trickleFire n ∧ ev.key.time = s.now

lemma not_overtaken (hlater : ∀ e ∈ s.scheduler.arena.entries, e.key.time ≠ s.now)
    (hteardown : s.teardown = []) (id : EventId) : ¬Overtaken n s id := by
  rintro ⟨ev, hev, -, hdue⟩
  cases id with
  | queued slot number => exact hlater _ (Arena.mem_entries_of_get? hev) hdue
  | destroy number =>
    rw [Simulator.find?, hteardown] at hev
    cases hev

/-- Stopping a timer cancels what it names. -/
lemma stopped_of_strays {a b : Machine K U} (ha : a.Attended) (hd : a.memory.trickle? n = some d)
    (hsim : b.sim = d.stop a.sim) (hsize : b.memory.trickles.size = a.memory.trickles.size)
    (hhandled : b.handled? = none)
    (hstray : ∀ id, Stray n d a.sim id → Overtaken n a.sim id) :
    b.Stopped n (∃ id, Stray n d a.sim id) a.sim.now := by
  have hp := ha.sound.passage (d.course_stop a.sim).course
  obtain ⟨hinterval, hfire⟩ := Trickle.isExpired_stop ha.sound d
  have hexpired : ∀ {id ev}, (d.stop a.sim).find? id = some ev → ev.cancelled = false →
      ¬d.OwnEvent id := by
    rintro id ev hev hlive (rfl | rfl)
    · rw [hp.sound.isExpired_eq, hev, Option.any_some, hlive] at hinterval
      cases hinterval
    · rw [hp.sound.isExpired_eq, hev, Option.any_some, hlive] at hfire
      cases hfire
  have hstray' : ∀ {id ev}, (d.stop a.sim).find? id = some ev → ev.cancelled = false →
      OwnTask n ev.task → Stray n d a.sim id ∧ ev.task = .trickleFire n ∧
        ev.key.time = a.sim.now := by
    intro id ev hev hlive htask
    obtain ⟨old, hold, hkey, htask', hlive'⟩ :=
      (Trickle.noneIssued_stopTurns n d a.sim).held hp hev htask
    have hstrays : Stray n d a.sim id :=
      ⟨old, hold, hlive' hlive, htask' ▸ htask, hexpired hev hlive⟩
    obtain ⟨old', hold', hfire, hdue⟩ := hstray id hstrays
    obtain rfl := Option.some.inj (hold.symm.trans hold')
    exact ⟨hstrays, htask' ▸ hfire, hkey ▸ hdue⟩
  rw [← hsim] at hstray'
  refine ⟨?_, ?_, ?_, ?_, ?_⟩
  · intro id ev hev htask
    by_contra hlive
    have hfire := (hstray' hev (Bool.eq_false_iff.mpr hlive) (Or.inl htask)).2.1
    rw [htask] at hfire
    cases hfire
  · intro id ev hev htask hlive
    obtain ⟨hstrays, -, hdue⟩ := hstray' hev hlive (Or.inr htask)
    exact ⟨⟨id, hstrays⟩, hdue⟩
  · rw [hhandled]
    simp
  · rw [hhandled]
    exact fun hfire => by cases hfire
  · rw [hsize]
    exact Memory.lt_size_of_trickle? hd

/-- Stopping a timer whose intervals did not overlap silences it. As long as the timer was never
enabled while one of its events was pending, its stray events are firing points that are due now.
And if this is so when it is stopped, then until it is asked to begin an interval again it does not
run, and it invokes its function at no later time, and not at all if there was no stray event. -/
theorem silent_after_stop (code : Code K U) (identity : Nat) (kind : QueueKind) (buckets : Nat)
    (sync : SyncMode) (inboxes : Array (Inbox (Task K))) (u : U) (moves : List (Move K U))
    (hkeeps : Along code KeepsTimers moves
      (idle identity kind buckets sync { inboxes := inboxes, user := u })) :
    let start := idle identity kind buckets sync { inboxes := inboxes, user := u }
    let a := play code moves start
    ∀ n d next rest, a.memory.trickle? n = some d →
      a.stack = .exec (.ask (.trickle n .stop) next) :: rest →
      (Along code (fun b mv => b.overlaps n mv = false) moves start →
        ∀ id, Stray n d a.sim id → Overtaken n a.sim id) ∧
      ((∀ id, Stray n d a.sim id → Overtaken n a.sim id) →
        ∀ more, Along code (fun b mv => b.KeepsTimers mv ∧ b.starts n mv = false) more
            (step code a) →
          let b := play code more (step code a)
          (∀ d', b.memory.trickle? n = some d' → d'.isRunning b.sim = false) ∧
          (∀ time ∈ triggers code n more (step code a), time = a.sim.now) ∧
          ((∀ id, ¬Stray n d a.sim id) → triggers code n more (step code a) = [])) := by
  intro start a n d next rest hd hstack
  have hidle := going_idle (K := K) identity kind buckets sync inboxes u
  have hgoing : a.Going := hidle.play code moves hkeeps
  obtain ⟨hattended, ⟨_, hstart⟩, -⟩ := hidle
  refine ⟨fun hover id hstray => ?_, ?_⟩
  · obtain ⟨ev, hev, hlive, htask, hnot⟩ := hstray
    have hsole := ((single_idle n identity kind buckets sync inboxes u).play code moves hattended
      hstart rfl (hkeeps.and hover)).sole d hd
    rcases htask with htask | htask
    · exact absurd (Or.inl (hsole.interval id ev hev htask hlive)) hnot
    · rcases hsole.fire id ev hev htask hlive with hnamed | hdue
      · exact absurd (Or.inr hnamed) hnot
      · exact ⟨ev, hev, htask, hdue⟩
  · intro hstrays more halong b
    have hgoing' := hgoing.step code
    obtain ⟨_, h'⟩ := hgoing'.timely
    have hstep : (step code a).sim = d.stop a.sim ∧
        (step code a).memory = a.memory.setTrickle n (some d) ∧
        ∃ p, (step code a).stack = .exec p :: rest := by
      clear_value a
      obtain ⟨s, m, stack, broken⟩ := a
      obtain rfl : stack = _ := hstack
      have hd : m.trickle? n = some d := hd
      simp only [step, stepFrame, exec, Request.apply, hd]
      exact ⟨rfl, rfl, _, rfl⟩
    obtain ⟨hsim, hmemory, p, hstack'⟩ := hstep
    have hhandled : (step code a).handled? = none := by
      rw [handled?, hstack']
      rfl
    have hstopped := stopped_of_strays hgoing.attended hd hsim
      (by rw [hmemory, Memory.size_setTrickle]) hhandled hstrays
    obtain ⟨hfinal, htriggers⟩ := hstopped.triggers code more hgoing'.attended h'
      hgoing'.unbroken halong
    refine ⟨fun d' hd' => ?_, fun time htime => (htriggers time htime).2, fun hnone => ?_⟩
    · have hb := (hgoing'.play code more (halong.mono fun _ _ => And.left)).attended
      rw [Trickle.isRunning, hb.sound.isExpired_eq, Bool.not_not]
      cases hev : b.sim.find? d'.intervalEvent with
      | none => rfl
      | some ev =>
        rw [Option.any_some,
          hfinal.interval _ ev hev ((hb.guards.trickle n d' hd').interval.2 ev hev)]
        rfl
    · refine List.eq_nil_iff_forall_not_mem.mpr fun time htime => ?_
      obtain ⟨id, hid⟩ := (htriggers time htime).1
      exact hnone id hid

/-! ### A timer at work -/

/-- A program that makes some requests to a trickle timer, one after the other. -/
def requests (n : Nat) (rs : List (TrickleRequest Bool)) (next : Program Bool (List Time) PUnit) :
    Program Bool (List Time) PUnit :=
  rs.foldr (fun r p => .ask (.trickle n r) fun _ => p) next

/-- The owner makes a trickle timer, makes some requests to it and has the events dispatched. The
function of the timer records the time. -/
def ticker (minInterval : Time) (doublings : Nat) (redundancy : UInt16)
    (rs : List (TrickleRequest Bool)) : Code Bool (List Time) where
  routine
    | true =>
      .ask (.newTrickle minInterval doublings redundancy 0) fun n => .ask (.trickle n (.setFunction false))
        fun _ => requests n rs (.run fun _ => .done ())
    | false =>
      .ask (.sim .now) fun t => .ask (.update fun (times : List Time) => t :: times) fun _ =>
        .done ()
  observe _ _ _ u := (u, [])

/-- The moves by which the owner enters its program and gets through some steps of it. -/
def ticks (code : Code Bool (List Time)) (n : Nat) : List (Move Bool (List Time)) :=
  .enter id (code.routine true) :: List.replicate n .step

/-- The machine on which the owner of a `ticker` has made some steps. -/
def ticked (code : Code Bool (List Time)) (n : Nat) : Machine Bool (List Time) :=
  play code (ticks code n) (idle 0 .list 1 .sequential { user := [] })

lemma keepsTimers_ticks (code : Code Bool (List Time)) (n : Nat) :
    Along code KeepsTimers (ticks code n) (idle 0 .list 1 .sequential { user := [] }) :=
  ⟨⟨rfl, rfl⟩, keepsTimers_steps code n _⟩

theorem silent_after_stop_reset :
    let code := ticker (.clamp 10) 0 0 [.reset, .stop]
    let a := ticked code 3
    ∃ d next rest, a.memory.trickle? 0 = some d ∧
      a.stack = .exec (.ask (.trickle 0 .stop) next) :: rest ∧
      (∀ id, ¬Stray 0 d a.sim id) ∧
      Along code (fun b mv => b.starts 0 mv = false) (List.replicate 20 .step) (step code a) ∧
      triggers code 0 (List.replicate 20 .step) (step code a) = [] := by
  intro code a
  have hany : (a.memory.trickle? 0).isSome = true := by decide +kernel
  obtain ⟨d, hd⟩ := Option.isSome_iff_exists.mp hany
  refine ⟨d, _, _, hd, rfl, ?_⟩
  obtain ⟨hstray, hsilent⟩ := silent_after_stop code 0 .list 1 .sequential #[] []
    (ticks code 3) (keepsTimers_ticks code 3) 0 d _ _ hd rfl
  have hnone : ∀ id, ¬Stray 0 d a.sim id := by
    have hlater : ∀ e ∈ a.sim.scheduler.arena.entries, e.key.time ≠ a.sim.now := by decide +kernel
    have hteardown : a.sim.teardown = [] := by decide +kernel
    exact fun id hid => not_overtaken hlater hteardown id (hstray (by decide +kernel) id hid)
  have hstarts : Along code (fun b mv => b.starts 0 mv = false) (List.replicate 20 .step)
      (step code a) := by
    decide +kernel
  exact ⟨hnone, hstarts, (hsilent (fun id hid => absurd hid (hnone id)) _
    ((keepsTimers_steps code 20 _).and hstarts)).2.2 hnone⟩

/-- Enabling a timer twice and stopping it leaves the first of the two intervals pending. The timer
goes on by itself after the stop: its function is invoked again and again, and intervals begin. -/
theorem triggers_after_stop_of_overlap :
    let code := ticker (.clamp 10) 0 0 [.enable, .enable, .stop]
    let a := ticked code 4
    (∃ next rest, a.stack = .exec (.ask (.trickle 0 .stop) next) :: rest) ∧ a.sim.now = .zero ∧
      Along code (fun b mv => b.starts 0 mv = false) (List.replicate 20 .step) (step code a) ∧
      triggers code 0 (List.replicate 20 .step) (step code a) =
        [.clamp 7, .clamp 19] ∧
      ((step code a).memory.trickle? 0).any (·.isRunning (step code a).sim) = false ∧
      ((ticked code 25).memory.trickle? 0).any (·.isRunning (ticked code 25).sim) = true := by
  refine ⟨⟨_, _, rfl⟩, ?_, ?_, ?_, ?_, ?_⟩ <;> decide +kernel

end Machine

end EventKernel
