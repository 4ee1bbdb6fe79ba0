import EventKernel.Proofs.Machine.Account
import EventKernel.Proofs.Machine.Overlap

/-!
# Suppressed firing points

A firing point is judged by the transmissions that a trickle timer has counted. If it is due before
the end of its interval, and intervals do not overlap, then these are the ones counted since the
interval began. A firing point that is due together with the end of its interval is handled behind
it, when the count has begun anew.
-/

namespace EventKernel

open Simulator (Passage Sound Timely)
open Trickle (Begun NoneIssued OwnTask)

variable {K U : Type} {s t : Simulator K} {turns : List (Turn K)} {keys : List EventKey} {n : Nat}

/-! ### The count -/

lemma Trickle.toNat_counter_consistent (d : Trickle K) :
    d.consistent.counter.toNat = min 65535 (d.counter.toNat + 1) := by
  have hlt := d.counter.toNat_lt
  rw [consistent]
  split
  · next hfull =>
    rw [hfull]
    rfl
  · next hroom =>
    have hne : d.counter.toNat ≠ 65535 := fun h => hroom (UInt16.toNat_inj.mp h)
    rw [UInt16.toNat_add, UInt16.toNat_one]
    omega

/-- A firing point runs the function unless as many transmissions were counted as the timer asks
for. -/
lemma Trickle.fire_eq {d : Trickle K} {c : Nat} (hcounter : d.counter.toNat = min 65535 c) :
    d.fire.1 = if d.redundancy ≠ 0 ∧ d.redundancy.toNat ≤ c then none else d.function := by
  have hlt := d.redundancy.toNat_lt
  have hiff : d.redundancy ≤ d.counter ↔ d.redundancy.toNat ≤ c := by
    rw [UInt16.le_iff_toNat_le, hcounter]
    omega
  simp only [fire, hiff]
  split <;> rfl

namespace Machine

/-- The number of transmissions that are reported to a timer in the course of a run. -/
def heard (code : Code K U) (n : Nat) : List (Move K U) → Machine K U → Nat
  | [], _ => 0
  | mv :: moves, a =>
    (a.call? n mv).toList.countP (·.counts) + heard code n moves (move code a mv)

variable {a b : Machine K U} {mv : Move K U} {id : EventId} {k : UInt16} {c : Nat}
  {d : Trickle K}

/-! ### The interval of a firing point -/

/-- A timer is in the interval of a firing point, and has counted `c` transmissions in it. -/
structure InInterval (n : Nat) (id : EventId) (k : UInt16) (c : Nat) (a : Machine K U)
    (d : Trickle K) : Prop where
  named : d.fireEvent = id
  redundancy : d.redundancy = k
  counter : d.counter.toNat = min 65535 c
  order : ∀ ev last, a.sim.find? id = some ev → a.sim.find? d.intervalEvent = some last →
    ev.key.time < last.key.time
  not_ended : a.handled? ≠ some (.interval n)

/-- While a firing point is pending, its timer is in the interval of it. -/
structure Awaited (n : Nat) (id : EventId) (k : UInt16) (c : Nat) (a : Machine K U) : Prop where
  known : id.sequence < a.sim.sequences.next
  made : n < a.memory.trickles.size
  task : ∀ ev, a.sim.find? id = some ev → ev.task = .trickleFire n
  interval : ∀ ev, a.sim.find? id = some ev → ev.cancelled = false →
    ∀ d, a.memory.trickle? n = some d → a.InInterval n id k c d

lemma InInterval.passage (h : a.InInterval n id k c d) (hp : Passage a.sim turns b.sim)
    (hknown : id.sequence < a.sim.sequences.next) (hkept : d.Kept n a.sim)
    (d' : Trickle K) (hcore : d'.fireEvent = d.fireEvent ∧ d'.intervalEvent = d.intervalEvent ∧
      d'.redundancy = d.redundancy)
    {c' : Nat} (hcounter : d'.counter.toNat = min 65535 c')
    (hhandled : b.handled? ≠ some (.interval n)) : b.InInterval n id k c' d' where
  named := hcore.1.trans h.named
  redundancy := hcore.2.2.trans h.redundancy
  counter := hcounter
  order ev last hev hlast := by
    obtain ⟨old, hold, hkey, -⟩ := hp.held_of_lt hev hknown
    rw [hcore.2.1] at hlast
    obtain ⟨old', hold', hkey', -⟩ := hp.held_of_lt hlast hkept.interval.1
    rw [← hkey, ← hkey']
    exact h.order old old' hold hold'
  not_ended := hhandled

/-- Where another interval begins, a firing point that was pending has expired. -/
lemma InInterval.not_starts (h : a.InInterval n id k c d) (ha : a.Attended)
    (hd : a.memory.trickle? n = some d) (hover : a.overlaps n .step = false) {f : Frame K U}
    {rest : List (Frame K U)} (hstack : a.stack = f :: rest) {first : Trickle K}
    (hstarts : Starts n d a.sim f first t turns) {ev : Event (Task K)}
    (hev : a.sim.find? id = some ev) (hlive : ev.cancelled = false) : t.isExpired id = true := by
  have hnamed := h.named
  have hpending : a.sim.isExpired d.fireEvent = false := by
    rw [ha.sound.isExpired_eq, hnamed, hev, Option.any_some, hlive]
    rfl
  rw [← hnamed]
  cases hstarts with
  | enable next =>
    have hcall : a.call? n .step = some .enable := by
      rw [call?, hstack, List.head?_cons, Option.bind_some]
      exact if_pos rfl
    rw [overlaps, hd, Option.any_some, hcall, Option.any_some, TrickleRequest.overlaps, hpending,
      Bool.and_false] at hover
    cases hover
  | reset | inconsistent => exact (Trickle.isExpired_stop ha.sound d).2
  | interval =>
    refine absurd ?_ h.not_ended
    rw [handled?, hstack]
    rfl

/-- What serves a timer and leaves an awaited firing point pending counts a transmission. -/
lemma Awaited.counts_of_acts (h : a.Awaited n id k c) (ha : a.Attended)
    (hover : a.overlaps n .step = false) {f : Frame K U} {rest : List (Frame K U)}
    (hstack : a.stack = f :: rest) (hacts : Acts n a.sim a.memory f turns t (some d))
    {old ev : Event (Task K)} (hold : a.sim.find? id = some old) (hpending : old.cancelled = false)
    (hsound : t.Sound) (hev : t.find? id = some ev) (hlive : ev.cancelled = false) :
    ∃ d', a.memory.trickle? n = some d' ∧ f.call? n = some .consistent ∧ d = d'.consistent := by
  have hnot_expired : t.isExpired id = false := by
    rw [hsound.isExpired_eq, hev, Option.any_some, hlive]
    rfl
  cases hacts with
  | count hcall hd => exact ⟨_, hd, hcall, rfl⟩
  | stop hcall hd =>
    have hexpired := (Trickle.isExpired_stop ha.sound d).2
    rw [(h.interval old hold hpending d hd).named, hnot_expired] at hexpired
    cases hexpired
  | @begin d' first u turns hstarts hd =>
    have hexpired := (h.interval old hold hpending d' hd).not_starts ha hd hover hstack hstarts
      hold hpending
    have hp := ha.sound.passage hstarts.spec.1.course
    have hbegun := Trickle.begun_beginInterval n first hp.sound
    have hknown := Nat.lt_of_lt_of_le h.known hp.next_le
    -- the handles of the new interval are new ones, so that the firing point expired before
    have hsame : (first.beginInterval n u).2.2.find? id = u.find? id := by
      generalize first.beginTurns n u = issued at hbegun
      generalize first.beginInterval n u = r at hbegun
      cases hbegun with
      | refused => rfl
      | @begun interval fire t' halive hinterval hseq hseq' hsound' hnow hfind =>
        rw [hfind, if_neg, if_neg]
        · rintro rfl
          omega
        · rintro rfl
          omega
    rw [hsound.isExpired_eq, hsame, ← hp.sound.isExpired_eq, hexpired] at hnot_expired
    cases hnot_expired
  | create hn => exact absurd h.made (by omega)

lemma Awaited.take (h : a.Awaited n id k c) (hsingle : a.Single n) (ha : a.Attended)
    (htimely : a.sim.Timely keys) {next : EventId} {taken ev : Event (Task K)}
    {q : Scheduler (Task K)} (hnext : a.sim.scheduler.removeNext = (some (next, taken), q))
    (hne : id ≠ next) (hev : a.sim.find? id = some ev) (hlive : ev.cancelled = false)
    (hd : a.memory.trickle? n = some d) (htaken : taken.task = .trickleInterval n)
    (hpending : taken.cancelled = false) : False := by
  have hheld := (ha.sound.find?_take hnext taken.key.time).1
  obtain rfl := (hsingle.sole d hd).interval next taken hheld htaken hpending
  have hlater := (h.interval ev hev hlive d hd).order ev taken hev hheld
  have hsooner := htimely.time_le_of_removeNext hnext hev hne ha.sound
  exact absurd hlater (Int.not_lt.mpr hsooner)

/-- A firing point that is awaited stays so. -/
lemma Awaited.move (h : a.Awaited n id k c) (hsingle : a.Single n) (ha : a.Attended)
    (htimely : a.sim.Timely keys) (hp : Passage a.sim (a.turns mv) b.sim) (hfares : Fares n a mv b)
    (hover : a.overlaps n mv = false) :
    b.Awaited n id k (c + (a.call? n mv).toList.countP (·.counts)) := by
  have hsuff : n < b.memory.trickles.size →
      (∀ old ev, a.sim.find? id = some old → old.cancelled = false → b.sim.find? id = some ev →
        ev.cancelled = false → ∀ d, b.memory.trickle? n = some d →
          b.InInterval n id k (c + (a.call? n mv).toList.countP (·.counts)) d) →
      b.Awaited n id k (c + (a.call? n mv).toList.countP (·.counts)) := by
    intro hmade hinterval
    refine ⟨Nat.lt_of_lt_of_le h.known hp.next_le, hmade, ?_, ?_⟩
    · intro ev hev
      obtain ⟨old, hold, -, htask, -⟩ := hp.held_of_lt hev h.known
      exact htask ▸ h.task old hold
    · intro ev hev hlive d hd
      obtain ⟨old, hold, -, -, hlive'⟩ := hp.held_of_lt hev h.known
      exact hinterval old ev hold (hlive' hlive) hev hlive d hd
  cases hfares with
  | still hrecord hsize hnow hissued hcall hhandled hevent =>
    refine hsuff (Nat.lt_of_lt_of_le h.made hsize) ?_
    intro old ev hold hpending hev hlive d' hd'
    obtain ⟨d, k', hd, hsame⟩ := Memory.of_core_eq hrecord hd'
    have hin := h.interval old hold hpending d hd
    have hcount : (a.call? n mv).toList.countP (·.counts) = 0 := by
      rcases hcall with hcall | hnone
      · rw [List.countP_eq_zero]
        intro r hr
        rw [Option.mem_toList.mp hr, Option.all_some, Bool.not_eq_true'] at hcall
        rw [hcall]
        exact Bool.false_ne_true
      · rw [hd] at hnone
        cases hnone
    rw [hcount, Nat.add_zero]
    subst hsame
    refine hin.passage hp h.known (ha.guards.trickle n d hd) { d with function := k' }
      ⟨rfl, rfl, rfl⟩ hin.counter ?_
    rcases hhandled with hsame | ⟨hnone, -⟩
    · rw [hsame]
      exact hin.not_ended
    · rw [hnone]
      simp
  | @serves f rest hstep hstack hnow hhandled hserves =>
    subst hstep
    obtain ⟨hacts, hlt⟩ := hserves
    refine hsuff hlt ?_
    intro old ev hold hpending hev hlive d' hd'
    rw [hd'] at hacts
    obtain ⟨d, hd, hcall, rfl⟩ :=
      h.counts_of_acts ha hover hstack hacts hold hpending hp.sound hev hlive
    have hin := h.interval old hold hpending d hd
    rw [call?, hstack, List.head?_cons, Option.bind_some, hcall]
    refine hin.passage hp h.known (ha.guards.trickle n d hd) d.consistent ⟨rfl, rfl, rfl⟩ ?_ ?_
    · rw [Trickle.toNat_counter_consistent, hin.counter]
      show min 65535 (min 65535 c + 1) = min 65535 (c + 1)
      omega
    · rw [hhandled]
      simp
  | @take rest next taken q hstep hstack hsome hnext hfind hnow htrickles hhandled =>
    subst hstep
    refine hsuff (htrickles ▸ h.made) ?_
    intro old ev hold hpending hev hlive d hd
    rw [Memory.trickle?_congr htrickles] at hd
    have hin := h.interval old hold hpending d hd
    rw [call?, hstack, List.head?_cons, Option.bind_some]
    refine hin.passage hp h.known (ha.guards.trickle n d hd) d ⟨rfl, rfl, rfl⟩ hin.counter ?_
    have hne : id ≠ next := by
      rintro rfl
      rw [hfind, (ha.sound.find?_take hnext taken.key.time).2, if_pos rfl] at hev
      cases hev
    intro hinterval
    rw [hhandled] at hinterval
    split at hinterval
    · cases hinterval
    · next hnot =>
      exact h.take hsingle ha htimely hnext hne hold hpending hd
        (Task.timerEvent?_eq_some_iff.mp hinterval) (Bool.eq_false_iff.mpr hnot)

lemma Awaited.play (code : Code K U) (moves : List (Move K U)) (h : a.Awaited n id k c)
    (hsingle : a.Single n) (ha : a.Attended) (htimely : a.sim.Timely keys) (hb : a.broken = false)
    (halong : Along code (fun b mv => b.KeepsTimers mv ∧ b.overlaps n mv = false) moves a) :
    (Machine.play code moves a).Awaited n id k (c + heard code n moves a) := by
  induction moves generalizing a keys c with
  | nil => exact h
  | cons mv moves ih =>
    obtain ⟨⟨hkeeps, hover⟩, halong⟩ := halong
    obtain ⟨hb', htimely', -⟩ := timely_move code mv htimely hb
    have ha' := ha.move code mv htimely hb hkeeps
    have hp := passage_move code mv htimely hb ha.sound
    have hfares := fares_move code mv ha htimely hkeeps n
    have hlater := ih (h.move hsingle ha htimely hp hfares hover)
      (hsingle.move ha htimely ha' hp hfares hover) ha' htimely' hb' halong
    rw [heard, ← Nat.add_assoc]
    exact hlater

/-! ### Where an interval begins -/

/-- A step has begun an interval of a timer: the timer names the two events of the interval, and
nothing is counted yet. -/
structure Opens (n : Nat) (id : EventId) (a b : Machine K U) (d : Trickle K) : Prop where
  record : b.memory.trickle? n = some d
  named : d.fireEvent = id
  counter : d.counter = 0
  nonneg : 0 ≤ d.interval.ticks
  events : ∃ (g : Generator) (fire last : Event (Task K)),
    b.sim.find? id = some fire ∧ fire.key.time = a.sim.now + d.interval.scaleBy g.upperHalf.1 ∧
      b.sim.find? d.intervalEvent = some last ∧ last.key.time = a.sim.now + d.interval ∧
      last.key.sequence < fire.key.sequence
  handled : b.handled? = none

/-- A step that schedules a firing point begins an interval. -/
lemma exists_opens_of_issued (ha : a.Attended)
    (hfares : Fares n a .step b) (hid : id ∈ issuedFor (.fire n) (a.turns .step)) :
    ∃ d, Opens n id a b d := by
  have hnil : issuedFor (.fire n) (a.turns .step) = [] → ∃ d, Opens n id a b d := by
    intro hnil
    rw [hnil] at hid
    cases hid
  have hnone : NoneIssued n (a.turns .step) → ∃ d, Opens n id a b d := by
    intro hnone
    obtain ⟨x, hx, hissued, htask, -⟩ := mem_issuedFor.mp hid
    exact absurd (Or.inr htask) (hnone x hx hissued)
  cases hfares with
  | still hrecord hsize hnow hissued => exact hnone hissued
  | @take rest next ev q _ _ _ _ _ _ _ _ hissued => exact hnone hissued
  | @serves f rest hstep hstack hnow hhandled hserves =>
    obtain ⟨hacts, -⟩ := hserves
    generalize a.turns .step = turns at hid hnil hnone hacts
    generalize hr : b.memory.trickle? n = r at hacts
    generalize ht : b.sim = t at hacts hnow
    cases hacts with
    | count | create | drop => exact hnil rfl
    | stop => exact hnone (Trickle.noneIssued_stopTurns n _ _)
    | @begin d first u turns hstarts hd =>
      obtain ⟨hcourse, -, -, hnow', -, hissued⟩ := hstarts.spec
      have hbegun := Trickle.begun_beginInterval n first (ha.sound.passage hcourse.course).sound
      rw [issuedFor_append, List.mem_append] at hid
      have hid := hid.resolve_left fun hid => by
        obtain ⟨x, hx, hissued', htask, -⟩ := mem_issuedFor.mp hid
        exact hissued x hx hissued' (Or.inr htask)
      generalize first.beginTurns n u = issued at hid hbegun
      generalize first.beginInterval n u = r at hbegun hr ht
      cases hbegun with
      | refused => cases hid
      | @begun interval fire t' halive hinterval hseq hseq' hsound' _ hfind =>
        obtain rfl : id = fire := by simpa [issuedFor, Trickle.firingPoint, Trickle.intervalEnd,
          Task.timerEvent?] using hid
        have hne : interval ≠ id := by
          rintro rfl
          omega
        subst ht
        have hlast := (hfind interval).trans ((if_neg hne).trans (if_pos rfl))
        refine ⟨_, hr, rfl, rfl, hinterval, ⟨first.generator, _, _, (hfind id).trans (if_pos rfl),
          ?_, hlast, ?_, Nat.lt_succ_self _⟩, hhandled⟩
        · rw [← hnow']
          rfl
        · rw [← hnow']
          rfl

/-- A firing point that is due before the end of its interval is awaited. -/
lemma Opens.awaited (h : Opens n id a b d) (hb : b.Attended)
    (hsooner : ∀ ev last, b.sim.find? id = some ev → b.sim.find? d.intervalEvent = some last →
      ev.key.time < last.key.time) : b.Awaited n id d.redundancy 0 where
  known := h.named ▸ (hb.guards.trickle n d h.record).fire.1
  made := Memory.lt_size_of_trickle? h.record
  task := h.named ▸ (hb.guards.trickle n d h.record).fire.2
  interval ev hev hlive d' hd' := by
    obtain rfl := Option.some.inj (h.record.symm.trans hd')
    refine ⟨h.named, rfl, ?_, hsooner, ?_⟩
    · rw [h.counter]
      rfl
    · rw [h.handled]
      simp

/-! ### Where a firing point is handled -/

/-- An event whose turn has come was held, and is handled next by the timers as they are. -/
lemma handles_of_taken? (code : Code K U) (ha : a.Attended) (htimely : a.sim.Timely keys)
    (hb : a.broken = false) {ev : Event (Task K)} (htaken : a.taken? = some (id, ev))
    (hlive : ev.cancelled = false) :
    a.sim.find? id = some ev ∧ (∃ rest, (step code a).stack = .task ev.task :: rest) ∧
      ∀ n, (step code a).memory.trickle? n = a.memory.trickle? n := by
  obtain ⟨⟨context, rest, hstack, hnext⟩, -⟩ := step_of_taken? code htimely hb htaken hlive
  have hfares : ∀ n, Fares n a .step (step code a) := fares_move code .step ha htimely trivial
  have hround : Round code a.sim a.memory rest (step code a) := by
    rw [step_of_stack code hstack]
    exact round_takeNext code a.memory rest htimely.consistent htimely.now_le
  have hup := upcoming?_of_taken? htaken
  refine ⟨?_, ⟨_, hnext⟩, fun n => ?_⟩
  · exact (ha.sound.find?_of_upcoming? hup).1
  · refine Memory.trickle?_congr ?_ n
    generalize step code a = b at hround
    cases hround with
    | finish | pass => rfl
    | start => rw [(launch_unchanged ..).2]

/-- What is held at the end of a run under a number that was given out before was held before. -/
lemma held_play (code : Code K U) (moves : List (Move K U)) (htimely : a.sim.Timely keys)
    (hb : a.broken = false) (hs : a.sim.Sound) {ev : Event (Task K)}
    (hev : (Machine.play code moves a).sim.find? id = some ev)
    (hlt : id.sequence < a.sim.sequences.next) :
    ∃ old, a.sim.find? id = some old ∧ old.key = ev.key ∧ old.task = ev.task := by
  induction moves generalizing a keys with
  | nil => exact ⟨ev, hev, rfl, rfl⟩
  | cons mv moves ih =>
    obtain ⟨hb', htimely', -⟩ := timely_move code mv htimely hb
    have hp := passage_move code mv htimely hb hs
    obtain ⟨mid, hmid, hkey, htask⟩ :=
      ih htimely' hb' hp.sound hev (Nat.lt_of_lt_of_le hlt hp.next_le)
    obtain ⟨old, hold, hkey', htask', -⟩ := hp.held_of_lt hmid hlt
    exact ⟨old, hold, hkey'.trans hkey, htask'.trans htask⟩

/-- The event whose turn has come is in front of all events of timers. -/
lemma key_le_of_taken? (ha : a.Attended) (htimely : a.sim.Timely keys) {ev other : Event (Task K)}
    (htaken : a.taken? = some (id, ev)) {j : EventId} (hother : a.sim.find? j = some other)
    (htask : ∀ k, other.task ≠ .user k) : ev.key ≤ other.key := by
  obtain ⟨-, q, hnext⟩ := Simulator.upcoming?_eq_some_iff.mp (upcoming?_of_taken? htaken)
  by_cases hj : j = id
  · subst hj
    obtain ⟨hev, -⟩ := ha.sound.find?_take hnext a.sim.now
    obtain rfl := Option.some.inj (hev.symm.trans hother)
    exact le_refl _
  · cases j with
    | queued slot m => exact le_of_lt (htimely.key_lt_of_removeNext ha.sound hnext hother hj)
    | destroy m => exact absurd rfl (ha.orderly.userCode.ne_destroy hother htask m)

/-- What other threads do leaves the timers and what is to be done next alone. -/
lemma triggered?_remotes (code : Code K U) (n : Nat) (rs : List (InboxRequest K))
    (a : Machine K U) : triggered? n (Machine.play code (rs.map .remote) a) = triggered? n a := by
  induction rs generalizing a with
  | nil => rfl
  | cons r rs ih => exact ih _

/-- A firing point that is due before the end of its interval is judged by what was counted in this
interval. In a run in which a timer is never enabled while one of its events is pending, let a step
begin an interval. The firing point lies at a random point in the second half of the interval, as
far as the numbers are small enough to be halved exactly, or at its end. If it is due before the
end, then when its turn comes, the function of the timer runs unless as many transmissions were
reported since that step as the timer asks for. If it is due at the end, then the interval is over
when its turn comes. -/
theorem judged_by_own_interval (code : Code K U) (identity : Nat) (kind : QueueKind)
    (buckets : Nat) (sync : SyncMode) (inboxes : Array (Inbox (Task K))) (u : U)
    (moves : List (Move K U)) (n : Nat)
    (halong : Along code (fun b mv => b.KeepsTimers mv ∧ b.overlaps n mv = false) moves
      (idle identity kind buckets sync { inboxes := inboxes, user := u })) :
    let a := play code moves (idle identity kind buckets sync { inboxes := inboxes, user := u })
    let b := step code a
    ∀ id ∈ issuedFor (.fire n) (a.turns .step), a.overlaps n .step = false →
      ∃ (d : Trickle K) (g : Generator) (fire last : Event (Task K)),
        let offset := d.interval.scaleBy g.upperHalf.1
        b.memory.trickle? n = some d ∧ d.counter = 0 ∧ d.fireEvent = id ∧
        b.sim.find? id = some fire ∧ fire.key.time = a.sim.now + offset ∧
        b.sim.find? d.intervalEvent = some last ∧ last.key.time = a.sim.now + d.interval ∧
        offset ≤ d.interval ∧ d.interval.ticks ≤ 2 * offset.ticks + 512 ∧
        (d.interval.ticks ≤ 2 ^ 53 → d.interval.ticks ≤ 2 * offset.ticks) ∧
        ∀ more, Along code (fun b mv => b.KeepsTimers mv ∧ b.overlaps n mv = false) more b →
          let c := play code more b
          ∀ ev, c.taken? = some (id, ev) → ev.cancelled = false →
            (fire.key.time < last.key.time →
              ∀ rs : List (InboxRequest K),
                triggered? n (play code (rs.map .remote) (step code c)) =
                  (c.memory.trickle? n).bind fun d' =>
                    if d.redundancy ≠ 0 ∧ d.redundancy.toNat ≤ heard code n more b then none
                    else d'.function) ∧
            (fire.key.time = last.key.time → c.sim.find? d.intervalEvent = none) := by
  intro a b id hid hover
  have hidle := going_idle (K := K) identity kind buckets sync inboxes u
  have hgoing : a.Going := hidle.play code moves (halong.mono fun _ _ => And.left)
  have hgoing' : b.Going := hgoing.step code
  obtain ⟨hattended, ⟨_, hstart⟩, -⟩ := hidle
  obtain ⟨ha, ⟨_, h⟩, hb⟩ := hgoing
  have ha' := hgoing'.attended
  have hb' := hgoing'.unbroken
  obtain ⟨_, h'⟩ := hgoing'.timely
  have hsingle : a.Single n :=
    (single_idle n identity kind buckets sync inboxes u).play code moves hattended hstart rfl halong
  have hp := passage_move code .step h hb ha.sound
  have hfares := fares_move code .step ha h trivial n
  obtain ⟨d, hopens⟩ := exists_opens_of_issued ha hfares hid
  obtain ⟨g, fire, last, hfire, hdue, hlast, hend, hseq⟩ := hopens.events
  obtain ⟨-, hle, hhalf, hexact⟩ := Time.firingPoint_spec hopens.nonneg g
  refine ⟨d, g, fire, last, hopens.record, hopens.counter, hopens.named, hfire, hdue, hlast, hend,
    hle, hhalf, hexact, ?_⟩
  intro more hmore c ev htaken hlive
  obtain ⟨ha'', ⟨_, h''⟩, hb''⟩ : c.Going :=
    hgoing'.play code more (hmore.mono fun _ _ => And.left)
  obtain ⟨hheld, ⟨rest, hstack⟩, hrecord⟩ := handles_of_taken? code ha'' h'' hb'' htaken hlive
  have hkept := ha'.guards.trickle n d hopens.record
  refine ⟨fun hsooner rs => ?_, fun hsame => ?_⟩
  · have hawaited : c.Awaited n id d.redundancy (0 + heard code n more b) := by
      refine (hopens.awaited ha' fun ev' last' hev' hlast' => ?_).play code more
        (hsingle.move ha h ha' hp hfares hover) ha' h' hb' hmore
      obtain rfl := Option.some.inj (hfire.symm.trans hev')
      obtain rfl := Option.some.inj (hlast.symm.trans hlast')
      exact hsooner
    rw [triggered?_remotes, triggered?, hstack, hawaited.task ev hheld]
    simp only [if_true, hrecord]
    cases hd : c.memory.trickle? n with
    | none => rfl
    | some d' =>
      have hin := hawaited.interval ev hheld hlive d' hd
      rw [Option.bind_some, Option.bind_some,
        Trickle.fire_eq (hin.counter.trans (by rw [Nat.zero_add])), hin.redundancy]
  · -- the end was scheduled first, so it would be taken first
    refine Option.eq_none_iff_forall_ne_some.mpr fun other hother => ?_
    obtain ⟨old, hold, hkey, htask⟩ :=
      held_play code more h' hb' ha'.sound hother hkept.interval.1
    obtain ⟨fire', hfire', hkey', -⟩ :=
      held_play code more h' hb' ha'.sound hheld (hopens.named ▸ hkept.fire.1)
    obtain rfl := Option.some.inj (hlast.symm.trans hold)
    obtain rfl := Option.some.inj (hfire.symm.trans hfire')
    have hplain : ∀ k, other.task ≠ .user k := by
      rw [← htask, hkept.interval.2 last hlast]
      exact fun k => by simp
    have hfirst := key_le_of_taken? ha'' h'' htaken hother hplain
    rw [← hkey, ← hkey'] at hfirst
    exact absurd hfirst (not_le_of_gt (EventKey.lt_of_time_le (hsame ▸ Int.le_refl _) hseq))

theorem judged_by_own_interval_suppressed :
    let code := ticker (.clamp 10) 0 1 [.reset, .consistent]
    let b := step code (ticked code 2)
    let c := play code (List.replicate 3 .step) b
    ∃ id ev, id ∈ issuedFor (.fire 0) ((ticked code 2).turns .step) ∧
      c.taken? = some (id, ev) ∧ ev.cancelled = false ∧
      heard code 0 (List.replicate 3 .step) b = 1 ∧ triggered? 0 (step code c) = none := by
  intro code b c
  have hissued : issuedFor (.fire 0) ((ticked code 2).turns .step) = [.queued 1 2] := by
    decide +kernel
  have htaken : c.taken?.any (fun p => p.1 = .queued 1 2 && !p.2.cancelled) = true := by
    decide +kernel
  have hsooner : (b.memory.trickle? 0).any (fun d => d.redundancy = 1 &&
      (b.sim.find? (.queued 1 2)).any fun fire => (b.sim.find? d.intervalEvent).any fun last =>
        fire.key.time < last.key.time) = true := by
    decide +kernel
  have hheard : heard code 0 (List.replicate 3 .step) b = 1 := by decide +kernel
  have hcalm : Along code (fun b mv => b.overlaps 0 mv = false) (ticks code 2)
      (idle 0 .list 1 .sequential { user := [] }) := by
    decide +kernel
  have hcalm' : Along code (fun b mv => b.overlaps 0 mv = false) (List.replicate 3 .step) b := by
    decide +kernel
  obtain ⟨⟨id, ev⟩, hev, hand⟩ := (Option.any_eq_true _ _).mp htaken
  rw [Bool.and_eq_true, decide_eq_true_iff, Bool.not_eq_true'] at hand
  obtain ⟨rfl, hlive⟩ : id = .queued 1 2 ∧ ev.cancelled = false := hand
  have hmem : EventId.queued 1 2 ∈ issuedFor (.fire 0) ((ticked code 2).turns .step) := by
    rw [hissued]
    exact List.mem_singleton_self _
  obtain ⟨d, g, fire, last, hd, -, -, hfire, -, hlast, -, -, -, -, hjudged⟩ :=
    judged_by_own_interval code 0 .list 1 .sequential #[] [] (ticks code 2) 0
      ((keepsTimers_ticks code 2).and hcalm) _ hmem (by decide +kernel)
  rw [show b.memory.trickle? 0 = some d from hd, Option.any_some, Bool.and_eq_true,
    decide_eq_true_iff, show b.sim.find? (.queued 1 2) = some fire from hfire, Option.any_some,
    show b.sim.find? d.intervalEvent = some last from hlast, Option.any_some,
    decide_eq_true_iff] at hsooner
  refine ⟨_, ev, hmem, hev, hlive, hheard, ?_⟩
  have hfired : triggered? 0 (step code c) = (c.memory.trickle? 0).bind fun d' =>
      if d.redundancy ≠ 0 ∧ d.redundancy.toNat ≤ heard code 0 (List.replicate 3 .step) b then none
      else d'.function :=
    (hjudged _ ((keepsTimers_steps code 3 b).and hcalm') ev hev hlive).1 hsooner.2 []
  rw [hsooner.1, hheard] at hfired
  rw [hfired]
  cases c.memory.trickle? 0 <;> rfl

/-- A firing point need not lie within its interval. Of an interval of length 2, begun by a reset,
it can lie at the end; then the next interval has begun when the turn of the firing point comes, and
the transmission that was reported in the first interval does not suppress the function. -/
theorem triggered_in_spite_of_report :
    let code := ticker (.clamp 2) 0 1 [.reset, .consistent]
    let b := step code (ticked code 2)
    let c := play code (List.replicate 7 .step) b
    (∃ next rest, (ticked code 2).stack = .exec (.ask (.trickle 0 .reset) next) :: rest) ∧
      issuedFor (.fire 0) ((ticked code 2).turns .step) = [.queued 1 2] ∧
      (b.memory.trickle? 0).map (fun d => (d.redundancy, d.interval)) = some (1, .clamp 2) ∧
      (b.sim.find? (.queued 1 2)).map (·.key.time) = some (.clamp 2) ∧
      heard code 0 (List.replicate 7 .step) b = 1 ∧
      c.taken?.map (·.1) = some (.queued 1 2) ∧ triggered? 0 (step code c) = some false := by
  refine ⟨⟨_, _, rfl⟩, ?_, ?_, ?_, ?_, ?_, ?_⟩ <;> decide +kernel

end Machine

end EventKernel
