import EventKernel.Proofs.Machine.Renewal
import EventKernel.Proofs.Machine.Watchdog
import EventKernel.Proofs.Timer.Interval

/-!
# Trickle timers in a run

What a move comes to for one trickle timer: the move leaves the timer and its events alone, or it is
a step that serves the timer, or it takes an event off the queue. A step that serves the timer
counts a transmission, stops the timer or begins an interval.
-/

namespace EventKernel

open Simulator (Passage Sound Timely)
open Trickle (OwnTask NoneIssued)

variable {K U : Type} {s t : Simulator K} {turns : List (Turn K)} {keys : List EventKey}

/-! ### Calls -/

/-- Whether a request can begin an interval. -/
def TrickleRequest.starts : TrickleRequest K → Bool
  | enable | reset | inconsistent => true
  | setFunction _ | consistent | stop | info => false

/-- Whether a request counts a transmission. -/
def TrickleRequest.counts : TrickleRequest K → Bool
  | consistent => true
  | setFunction _ | enable | reset | inconsistent | stop | info => false

/-- Whether a request only sets the function or looks at the timer. -/
def TrickleRequest.isPassive : TrickleRequest K → Bool
  | setFunction _ | info => true
  | enable | reset | inconsistent | consistent | stop => false

/-- Whether a request begins an interval while an event of the timer is still pending. -/
def TrickleRequest.overlaps (d : Trickle K) (s : Simulator K) : TrickleRequest K → Bool
  | enable => !(s.isExpired d.intervalEvent && s.isExpired d.fireEvent)
  | setFunction _ | reset | inconsistent | consistent | stop | info => false

/-- The request that a frame makes to a trickle timer. -/
def Frame.call? (n : Nat) : Frame K U → Option (TrickleRequest K)
  | .exec (.ask (.trickle v r) _) => if v = n then some r else none
  | _ => none

/-- The kind of timer event that a frame handles. -/
def Frame.handled? : Frame K U → Option TimerEvent
  | .task t => t.timerEvent?
  | _ => none

/-- Whether a request leaves a trickle timer to itself: it asks nothing of it but to set the
function or to tell about itself, and does not cancel or remove the end of its interval behind its
back. -/
def Request.leaves (n : Nat) (m : Memory K U) : Request K U → Bool
  | .sim (.cancel id) | .sim (.remove id) => (m.trickle? n).all (·.intervalEvent ≠ id)
  | .trickle v r => v ≠ n || r.isPassive
  | .dropTrickle v => v ≠ n
  | _ => true

/-- Whether a frame leaves a trickle timer to itself. -/
def Frame.leaves (n : Nat) (m : Memory K U) : Frame K U → Bool
  | .exec (.ask r _) => r.leaves n m
  | .clear => false
  | _ => true

/-! ### What serves a timer -/

/-- The interval that a frame begins: the timer with the length of the interval, the simulator
behind what is done in front of it, and the turns of that. -/
inductive Starts (n : Nat) (d : Trickle K) (s : Simulator K) :
    Frame K U → Trickle K → Simulator K → List (Turn K) → Prop where
  | enable (next : Option (Except SimError PUnit) → Program K U PUnit) :
      Starts n d s (.exec (.ask (.trickle n .enable) next)) d.drawn s []
  | reset (next : Option (Except SimError PUnit) → Program K U PUnit) :
      Starts n d s (.exec (.ask (.trickle n .reset) next)) { d with interval := d.minInterval }
        (d.stop s) (d.stopTurns s)
  | inconsistent (next : Option (Except SimError PUnit) → Program K U PUnit)
      (hlong : d.minInterval < d.interval) :
      Starts n d s (.exec (.ask (.trickle n .inconsistent) next))
        { d with interval := d.minInterval } (d.stop s) (d.stopTurns s)
  | interval :
      Starts n d s (.task (.trickleInterval n))
        { d with interval := (d.interval.scale 2).earlier d.maxInterval } s []

/-- What a frame that serves a trickle timer does: its turns, the simulator behind it, and the new
record of the timer. -/
inductive Acts (n : Nat) (s : Simulator K) (m : Memory K U) (f : Frame K U) :
    List (Turn K) → Simulator K → Option (Trickle K) → Prop where
  | count {d : Trickle K} (hcall : f.call? n = some .consistent) (hd : m.trickle? n = some d) :
      Acts n s m f [] s (some d.consistent)
  | stop {d : Trickle K} (hcall : f.call? n = some .stop) (hd : m.trickle? n = some d) :
      Acts n s m f (d.stopTurns s) (d.stop s) (some d)
  | begin {d first : Trickle K} {t : Simulator K} {turns : List (Turn K)}
      (hstarts : Starts n d s f first t turns) (hd : m.trickle? n = some d) :
      Acts n s m f (turns ++ first.beginTurns n t) (first.beginInterval n t).2.2
        (some (first.beginInterval n t).2.1)
  | create {d : Trickle K} (hn : n = m.trickles.size) (hinterval : d.intervalEvent = .detached)
      (hfire : d.fireEvent = .detached) : Acts n s m f [] s (some d)
  | drop (hf : f.leaves n m = false) : Acts n s m f [] s none

/-- A frame serves a trickle timer that has been made. -/
def Serves (n : Nat) (s : Simulator K) (m : Memory K U) (f : Frame K U) (turns : List (Turn K))
    (t : Simulator K) (m' : Memory K U) : Prop :=
  Acts n s m f turns t (m'.trickle? n) ∧ n < m'.trickles.size

/-- What a frame that does not serve a trickle timer leaves of it. -/
structure Ignores (n : Nat) (s : Simulator K) (m : Memory K U) (f : Frame K U)
    (turns : List (Turn K)) (m' : Memory K U) : Prop where
  record : (m'.trickle? n).map Trickle.core = (m.trickle? n).map Trickle.core
  size_le : m.trickles.size ≤ m'.trickles.size
  issued : NoneIssued n turns
  call : (f.call? n).all (!·.counts) ∨ m.trickle? n = none
  handled : f.handled? ≠ some (.interval n) ∨ m.trickle? n = none
  event : f.leaves n m → ∀ d, m.trickle? n = some d → (∃ ev, s.find? d.intervalEvent = some ev) →
    ∀ x ∈ turns, x.id = d.intervalEvent → x.fate = .issued

section

variable {m m' : Memory K U} {f : Frame K U} {n : Nat}

lemma Task.IsPlain.not_ownTask {task : Task K} (h : task.IsPlain) (n : Nat) : ¬OwnTask n task := by
  rintro (rfl | rfl) <;> exact h

/-- A frame that makes no call to the timer and handles no event of it. -/
lemma Ignores.of_confined {P : Task K → Prop} {Q : EventId → Prop} (hturns : Confined P Q turns)
    (hP : ∀ task, P task → ¬OwnTask n task)
    (hQ : ∀ id, Q id → f.leaves n m → ∀ d, m.trickle? n = some d →
      (∃ ev, s.find? d.intervalEvent = some ev) → id ≠ d.intervalEvent)
    (hcall : f.call? n = none) (hhandled : f.handled? ≠ some (.interval n))
    (ht : m'.trickles = m.trickles) : Ignores n s m f turns m' where
  record := by rw [Memory.trickle?_congr ht]
  size_le := by rw [ht]
  issued x hx hissued := hP _ (hturns.of_issued hx hissued)
  call := Or.inl (by rw [hcall]; rfl)
  handled := Or.inl hhandled
  event hleaves d hd hev x hx hid := by
    by_contra hnot
    exact hQ x.id (hturns.of_not_issued hx hnot) hleaves d hd hev hid

lemma Ignores.of_nil (hrecord : (m'.trickle? n).map Trickle.core = (m.trickle? n).map Trickle.core)
    (hsize : m.trickles.size ≤ m'.trickles.size)
    (hcall : (f.call? n).all (!·.counts) ∨ m.trickle? n = none)
    (hhandled : f.handled? ≠ some (.interval n) ∨ m.trickle? n = none) :
    Ignores n s m f [] m' where
  record := hrecord
  size_le := hsize
  issued x hx := by cases hx
  call := hcall
  handled := hhandled
  event _ _ _ _ x hx := by cases hx

/-- Setting a record that differs in its function only. -/
lemma Memory.core_setTrickle {v : Nat} {d d' : Trickle K} (hd : m.trickle? v = some d)
    (hcore : d'.core = d.core) (n : Nat) :
    ((m.setTrickle v (some d')).trickle? n).map Trickle.core = (m.trickle? n).map Trickle.core := by
  rw [trickle?_setTrickle]
  split
  · next hn => rw [hn.1, hd, Option.map_some, Option.map_some, hcore]
  · rfl

lemma Memory.setTrickle_self (hlt : n < m.trickles.size) (r : Option (Trickle K)) :
    (m.setTrickle n r).trickle? n = r := by
  rw [trickle?_setTrickle, if_pos ⟨rfl, hlt⟩]

lemma Memory.size_setTrickle (n : Nat) (r : Option (Trickle K)) (m : Memory K U) :
    (m.setTrickle n r).trickles.size = m.trickles.size := by
  rw [setTrickle, Array.size_setIfInBounds]

lemma Serves.of_setTrickle {r : Option (Trickle K)} (hlt : n < m.trickles.size)
    (hacts : Acts n s m f turns t r) : Serves n s m f turns t (m.setTrickle n r) := by
  refine ⟨?_, ?_⟩
  · rwa [Memory.setTrickle_self hlt]
  · rwa [Memory.size_setTrickle]

/-! ### Requests -/

lemma SimRequest.ignores (r : SimRequest K) (next : r.Reply → Program K U PUnit) (m : Memory K U)
    (hs : s.Sound) (n : Nat) : Ignores n s m (.exec (.ask (.sim r) next)) (r.turns s) m := by
  have hissue : ∀ {turns : List (Turn K)} (task : Task K), task.IsPlain →
      Confined (· = task) (fun _ => False) turns →
      Ignores n s m (.exec (.ask (.sim r) next)) turns m := by
    intro turns task hplain hturns
    refine .of_confined hturns ?_ (fun _ hid => hid.elim) rfl (by simp [Frame.handled?]) rfl
    rintro _ rfl
    exact hplain.not_ownTask n
  have hhandle : ∀ {turns : List (Turn K)} {id : EventId},
      (r = .cancel id ∨ r = .remove id) → Confined (fun _ => False) (· = id) turns →
      Ignores n s m (.exec (.ask (.sim r) next)) turns m := by
    intro turns id hr hturns
    refine .of_confined hturns (fun _ htask => htask.elim) ?_ rfl (by simp [Frame.handled?]) rfl
    intro j hj hleaves d hd _
    have hall : (m.trickle? n).all (·.intervalEvent ≠ id) = true := by
      rcases hr with rfl | rfl <;> exact hleaves
    rw [hd, Option.all_some, decide_eq_true_iff] at hall
    rw [hj]
    exact Ne.symm hall
  have hnil : Ignores n s m (.exec (.ask (.sim r) next)) [] m :=
    .of_nil rfl (Nat.le_refl _) (Or.inl rfl) (Or.inl (by simp [Frame.handled?]))
  cases r with
  | schedule delay k => exact hissue (.user k) trivial (hs.confined_scheduleWith _ _ (.user k))
  | scheduleNow k => exact hissue (.user k) trivial (hs.confined_scheduleWith _ _ (.user k))
  | scheduleWith context delay k =>
    exact hissue (.user k) trivial (hs.confined_scheduleWith _ _ (.user k))
  | scheduleDestroy k => exact hissue (.user k) trivial (hs.confined_scheduleDestroy (.user k))
  | stopAfter delay => exact hissue .stop trivial (hs.confined_scheduleWith _ _ .stop)
  | cancel id => exact hhandle (Or.inl rfl) (Simulator.confined_cancelTurns id s)
  | remove id => exact hhandle (Or.inr rfl) (Simulator.confined_removeTurns id s)
  | isExpired | delayLeft | identity | now | context | phase | eventCount | pendingEvents
  | isFinished | stop | kind | setScheduler | sync | boundLookahead | observe | describe =>
    exact hnil

/-- What a request to one trickle timer does is nothing to another one. -/
lemma Ignores.of_other {v : Nat} {d d' : Trickle K} (hd : m.trickle? v = some d)
    (hturns : Confined (OwnTask v) d.OwnEvent turns) (hne : v ≠ n) (hg : m.Guards s)
    (hcall : f.call? n = none) (hhandled : f.handled? ≠ some (.interval n)) :
    Ignores n s m f turns (m.setTrickle v (some d')) where
  record := by
    rw [Memory.trickle?_setTrickle, if_neg fun hand => hne hand.1.symm]
  size_le := (Memory.size_setTrickle v _ m).ge
  issued x hx hissued := by
    rintro (htask | htask) <;> rcases hturns.of_issued hx hissued with htask' | htask' <;>
      · rw [htask] at htask'
        first
        | exact hne (Task.trickleInterval.inj htask').symm
        | exact hne (Task.trickleFire.inj htask').symm
        | cases htask'
  call := Or.inl (by rw [hcall]; rfl)
  handled := Or.inl hhandled
  event _ d₁ hd₁ hev x hx hid := by
    by_contra hnot
    obtain ⟨ev, hev⟩ := hev
    have htask := (hg.trickle n d₁ hd₁).interval.2 ev hev
    have hkept := hg.trickle v d hd
    rcases hturns.of_not_issued hx hnot with hown | hown
    · refine hkept.interval.ne hev htask ?_ (hid.symm.trans hown)
      exact fun heq => hne (Task.trickleInterval.inj heq).symm
    · exact hkept.fire.ne hev htask (by simp) (hid.symm.trans hown)

lemma TrickleRequest.serves_or_ignores (r : TrickleRequest K)
    (next : Option r.Reply → Program K U PUnit) {d : Trickle K} (hd : m.trickle? n = some d) :
    let f : Frame K U := .exec (.ask (.trickle n r) next)
    Serves n s m f (r.turns n d s) (r.apply n d s).2.2
        (m.setTrickle n (some (r.apply n d s).2.1)) ∨
      Ignores n s m f (r.turns n d s) (m.setTrickle n (some (r.apply n d s).2.1)) := by
  intro f
  have hcall : f.call? n = some r := if_pos rfl
  have hlt := Memory.lt_size_of_trickle? hd
  have hignores : r.counts = false → ∀ d' : Trickle K, d'.core = d.core →
      Ignores n s m f [] (m.setTrickle n (some d')) := by
    intro hcounts d' hcore
    refine .of_nil (Memory.core_setTrickle hd hcore n) (Memory.size_setTrickle n _ m).ge ?_ ?_
    · rw [hcall, Option.all_some, hcounts]
      exact Or.inl rfl
    · exact Or.inl (by simp [f, Frame.handled?])
  cases r with
  | setFunction k => exact Or.inr (hignores rfl _ rfl)
  | info => exact Or.inr (hignores rfl _ rfl)
  | consistent => exact Or.inl (.of_setTrickle hlt (.count hcall hd))
  | stop => exact Or.inl (.of_setTrickle hlt (.stop hcall hd))
  | enable => exact Or.inl (.of_setTrickle hlt (.begin (.enable next) hd))
  | reset => exact Or.inl (.of_setTrickle hlt (.begin (.reset next) hd))
  | inconsistent =>
    rw [turns, Trickle.inconsistentTurns, apply, Trickle.inconsistent]
    split
    · next hlong => exact Or.inl (.of_setTrickle hlt (.begin (.inconsistent next hlong) hd))
    · exact Or.inr (hignores rfl d rfl)

lemma Request.serves_or_ignores (r : Request K U) (next : r.Reply → Program K U PUnit)
    (hs : s.Sound) (hg : m.Guards s) (n : Nat) :
    let f : Frame K U := .exec (.ask r next)
    Serves n s m f (r.turns s m) (r.apply s m).2.1 (r.apply s m).2.2 ∨
      Ignores n s m f (r.turns s m) (r.apply s m).2.2 := by
  intro f
  have hhandled : f.handled? ≠ some (.interval n) := by simp [f, Frame.handled?]
  have hsame : f.call? n = none → ∀ m' : Memory K U, m'.trickles = m.trickles →
      Ignores n s m f [] m' := by
    intro hcall m' ht
    refine .of_nil (by rw [Memory.trickle?_congr ht]) (by rw [ht]) ?_ (Or.inl hhandled)
    rw [hcall]
    exact Or.inl rfl
  cases r with
  | sim r => exact Or.inr (r.ignores next m hs n)
  | inbox target r =>
    refine Or.inr (hsame rfl _ ?_)
    show (m.askInbox target r s).2.2.trickles = m.trickles
    rw [(m.askInbox_unchanged target r s).2]
  | newWatchdog | dropWatchdog | load | update => exact Or.inr (hsame rfl _ rfl)
  | watchdog w r =>
    right
    simp only [apply, turns]
    cases hd : m.watchdog? w with
    | none => exact hsame rfl _ rfl
    | some d =>
      rw [Option.toList_some, List.flatMap_singleton]
      refine .of_confined (r.confined_turns hs d) ?_ ?_ rfl hhandled rfl
      · rintro _ rfl (htask | htask) <;> cases htask
      · rintro _ rfl - d₁ hd₁ ⟨ev, hev⟩ hid
        have htask := (hg.trickle n d₁ hd₁).interval.2 ev hev
        exact (hg.watchdog w d hd).owns.ne hev htask (by simp) hid.symm
  | newTrickle minInterval doublings redundancy seed =>
    by_cases hn : n = m.trickles.size
    · refine Or.inl ⟨?_, by simp [apply, hn]⟩
      have hrecord : Memory.trickle? n
          (apply (newTrickle minInterval doublings redundancy seed) s m).2.2 =
          some (Trickle.create minInterval doublings redundancy seed) := by
        simp [apply, Memory.trickle?, hn]
      rw [hrecord]
      exact .create hn rfl rfl
    · right
      refine .of_nil ?_ (by simp [apply]) (Or.inl rfl) (Or.inl hhandled)
      simp only [apply, Memory.trickle?, Array.getElem?_push, if_neg hn]
  | trickle v r =>
    simp only [apply, turns]
    cases hd : m.trickle? v with
    | none =>
      right
      by_cases hv : v = n
      · subst hv
        exact .of_nil rfl (Nat.le_refl _) (Or.inr hd) (Or.inr hd)
      · exact hsame (if_neg hv) _ rfl
    | some d =>
      rw [Option.toList_some, List.flatMap_singleton]
      by_cases hv : v = n
      · subst hv
        exact r.serves_or_ignores next hd
      · exact Or.inr (.of_other hd (r.confined_turns hs d) hv hg (if_neg hv) hhandled)
  | dropTrickle v =>
    by_cases hv : v = n ∧ n < m.trickles.size
    · obtain ⟨rfl, hlt⟩ := hv
      exact Or.inl (.of_setTrickle hlt (.drop (by simp [f, Frame.leaves, Request.leaves])))
    · right
      refine .of_nil ?_ (Memory.size_setTrickle v _ m).ge (Or.inl rfl) (Or.inl hhandled)
      rw [apply, Memory.trickle?_setTrickle, if_neg]
      rintro ⟨rfl, hlt⟩
      exact hv ⟨rfl, hlt⟩

/-! ### Frames -/

namespace Machine

lemma serves_or_ignores_start (code : Code K U) (task : Task K) (rest : List (Frame K U))
    (hs : s.Sound) (hg : m.Guards s) (n : Nat) :
    Serves n s m (.task task) (task.turns s m) (start code task s m rest).sim
        (start code task s m rest).memory ∨
      Ignores n s m (.task task : Frame K U) (task.turns s m)
        (start code task s m rest).memory := by
  cases task with
  | user | stop =>
    exact Or.inr (.of_nil rfl (Nat.le_refl _) (Or.inl rfl)
      (Or.inl (by simp [Frame.handled?, Task.timerEvent?])))
  | watchdog w =>
    have hhandled : (Frame.task (.watchdog w) : Frame K U).handled? ≠ some (.interval n) := by
      simp [Frame.handled?, Task.timerEvent?]
    right
    rw [start, Task.turns]
    cases hd : m.watchdog? w with
    | none => exact .of_nil rfl (Nat.le_refl _) (Or.inl rfl) (Or.inl hhandled)
    | some d =>
      rw [Option.toList_some, List.flatMap_singleton]
      have hignores : ∀ m' : Memory K U, m'.trickles = m.trickles →
          Ignores n s m (.task (.watchdog w)) (d.expireTurns w s) m' := by
        intro m' ht
        refine .of_confined (Watchdog.confined_expireTurns hs w d) ?_ ?_ rfl hhandled ht
        · rintro _ rfl (htask | htask) <;> cases htask
        · rintro _ rfl - d₁ hd₁ ⟨ev, hev⟩ hid
          have htask := (hg.trickle n d₁ hd₁).interval.2 ev hev
          exact (hg.watchdog w d hd).owns.ne hev htask (by simp) hid.symm
      dsimp only
      split <;> exact hignores _ rfl
  | trickleInterval v =>
    rw [start, Task.turns]
    cases hd : m.trickle? v with
    | none =>
      right
      refine .of_nil rfl (Nat.le_refl _) (Or.inl rfl) ?_
      by_cases hv : v = n
      · exact Or.inr (hv ▸ hd)
      · exact Or.inl (by simp [Frame.handled?, Task.timerEvent?, hv])
    | some d =>
      rw [Option.toList_some, List.flatMap_singleton]
      by_cases hv : v = n
      · subst hv
        exact Or.inl (.of_setTrickle (Memory.lt_size_of_trickle? hd) (.begin .interval hd))
      · refine Or.inr (.of_other hd (Trickle.confined_beginTurns hs v _) hv hg rfl ?_)
        simp [Frame.handled?, Task.timerEvent?, hv]
  | trickleFire v =>
    right
    have hignores : ∀ m' : Memory K U,
        (m'.trickle? n).map Trickle.core = (m.trickle? n).map Trickle.core →
        m.trickles.size ≤ m'.trickles.size → Ignores n s m (.task (.trickleFire v)) [] m' :=
      fun m' hrecord hsize => .of_nil hrecord hsize (Or.inl rfl)
        (Or.inl (by simp [Frame.handled?, Task.timerEvent?]))
    rw [start]
    cases hd : m.trickle? v with
    | none => exact hignores m rfl (Nat.le_refl _)
    | some d =>
      have hcore : d.fire.2.core = d.core := by
        rw [Trickle.fire]
        split <;> rfl
      dsimp only
      split
      · next hfire =>
        rw [hfire] at hcore
        exact hignores _ (Memory.core_setTrickle hd hcore n) (Memory.size_setTrickle v _ m).ge
      · next hfire =>
        rw [hfire] at hcore
        exact hignores _ (Memory.core_setTrickle hd hcore n) (Memory.size_setTrickle v _ m).ge

/-- A frame that takes no event off the queue serves a trickle timer or ignores it. -/
lemma serves_or_ignores_stepFrame (code : Code K U) {f : Frame K U} (rest : List (Frame K U))
    (hs : s.Sound) (h : s.Timely keys) (huser : s.HoldsUserCode) (hg : m.Guards s) (hf : f ≠ .next)
    (n : Nat) :
    Serves n s m f (f.turns s m) (stepFrame code f s m rest).sim
        (stepFrame code f s m rest).memory ∨
      Ignores n s m f (f.turns s m) (stepFrame code f s m rest).memory := by
  have hnil : f.call? n = none → f.handled? = none → f.turns s m = [] →
      (stepFrame code f s m rest).memory.trickles = m.trickles →
      Ignores n s m f (f.turns s m) (stepFrame code f s m rest).memory := by
    intro hcall hhandled hturns ht
    rw [hturns]
    refine .of_nil (by rw [Memory.trickle?_congr ht]) (by rw [ht]) ?_ ?_
    · rw [hcall]
      exact Or.inl rfl
    · rw [hhandled]
      exact Or.inl (by simp)
  cases f with
  | exec p =>
    cases p with
    | ask r next => exact r.serves_or_ignores next hs hg n
    | done | perform => exact Or.inr (hnil rfl rfl rfl rfl)
    | run next | destroy next =>
      refine Or.inr (hnil rfl rfl rfl ?_)
      rw [stepFrame, exec]
      split <;> rfl
  | task task => exact serves_or_ignores_start code task rest hs hg n
  | loop =>
    refine Or.inr (.of_confined (h.confined_drainTurns (Q := fun _ => False) hs huser) ?_
      (fun _ hid => hid.elim) rfl (by simp [Frame.handled?]) rfl)
    rintro _ ⟨k, rfl⟩ (htask | htask) <;> cases htask
  | next => exact absurd rfl hf
  | restore | close | rearmWatchdog => exact Or.inr (hnil rfl rfl rfl rfl)
  | rearmTrickle v k =>
    right
    have hhandled : (Frame.rearmTrickle v k : Frame K U).handled? ≠ some (.interval n) := by
      simp [Frame.handled?]
    rw [stepFrame]
    cases hd : m.trickle? v with
    | none =>
      refine .of_nil ?_ (Memory.size_setTrickle v _ m).ge (Or.inl rfl) (Or.inl hhandled)
      rw [Memory.trickle?_setTrickle]
      split
      · next hn =>
        rw [hn.1, hd]
        rfl
      · rfl
    | some d =>
      have hcore : (d.restore k).core = d.core := rfl
      exact .of_nil (Memory.core_setTrickle hd hcore n) (Memory.size_setTrickle v _ m).ge
        (Or.inl rfl) (Or.inl hhandled)
  | teardown =>
    right
    have hignores : Ignores n s m (.teardown : Frame K U) s.teardownTurns m := by
      refine .of_confined (Simulator.confined_teardownTurns (P := fun _ => False) s)
        (fun _ htask => htask.elim) ?_ rfl (by simp [Frame.handled?]) rfl
      rintro _ ⟨k, rfl⟩ - d hd ⟨ev, hev⟩ hid
      refine huser.ne_destroy hev ?_ k hid.symm
      rw [(hg.trickle n d hd).interval.2 ev hev]
      exact fun k => by simp
    rw [stepFrame, nextTeardown]
    dsimp only
    split <;> exact hignores
  | clear =>
    refine Or.inr (.of_confined (Simulator.confined_dropTurns (P := fun _ => False) s)
      (fun _ htask => htask.elim) ?_ rfl (by simp [Frame.handled?]) rfl)
    intro _ _ hleaves
    cases hleaves

end Machine

end

/-! ### Moves -/

namespace Machine

/-- The request that a move makes to a trickle timer. -/
def call? (n : Nat) (a : Machine K U) : Move K U → Option (TrickleRequest K)
  | .step => a.stack.head?.bind (·.call? n)
  | .remote _ | .enter .. => none

/-- The kind of timer event that is handled next. -/
def handled? (a : Machine K U) : Option TimerEvent := a.stack.head?.bind (·.handled?)

/-- Whether a move leaves a trickle timer to itself. -/
def leaves (n : Nat) (a : Machine K U) : Move K U → Bool
  | .step => a.stack.head?.all (·.leaves n a.memory)
  | .remote _ | .enter .. => true

/-- What a move comes to for one trickle timer. -/
inductive Fares (n : Nat) (a : Machine K U) (mv : Move K U) (b : Machine K U) : Prop where
  /-- The timer and its events are left alone. -/
  | still
      (hrecord : (b.memory.trickle? n).map Trickle.core = (a.memory.trickle? n).map Trickle.core)
      (hsize : a.memory.trickles.size ≤ b.memory.trickles.size) (hnow : b.sim.now = a.sim.now)
      (hissued : NoneIssued n (a.turns mv))
      (hcall : (a.call? n mv).all (!·.counts) ∨ a.memory.trickle? n = none)
      (hhandled : b.handled? = a.handled? ∨
        b.handled? = none ∧ (a.handled? ≠ some (.interval n) ∨ a.memory.trickle? n = none))
      (hevent : a.leaves n mv → ∀ d, a.memory.trickle? n = some d →
        (∃ ev, a.sim.find? d.intervalEvent = some ev) →
        ∀ x ∈ a.turns mv, x.id = d.intervalEvent → x.fate = .issued)
  | serves {f : Frame K U} {rest : List (Frame K U)} (hstep : mv = .step)
      (hstack : a.stack = f :: rest) (hnow : b.sim.now = a.sim.now) (hhandled : b.handled? = none)
      (hserves : Serves n a.sim a.memory f (a.turns mv) b.sim b.memory)
  | take {rest : List (Frame K U)} {id : EventId} {ev : Event (Task K)} {q : Scheduler (Task K)}
      (hstep : mv = .step) (hstack : a.stack = .next :: rest)
      (hsome : a.sim.upcoming? = some (id, ev))
      (hnext : a.sim.scheduler.removeNext = (some (id, ev), q))
      (hfind : ∀ j, b.sim.find? j =
        Simulator.find? { a.sim with scheduler := q, now := ev.key.time } j)
      (hnow : b.sim.now = ev.key.time) (htrickles : b.memory.trickles = a.memory.trickles)
      (hhandled : b.handled? = if ev.cancelled then none else ev.task.timerEvent?)
      (hissued : NoneIssued n (a.turns mv))

section

variable {n : Nat} {a : Machine K U}

lemma handled?_eq_none (h : ∀ task : Task K, (∀ k, task ≠ .user k) → .task task ∉ a.stack) :
    a.handled? = none := by
  rw [handled?]
  cases hhead : a.stack.head? with
  | none => rfl
  | some f =>
    rw [Option.bind_some]
    cases f with
    | task task =>
      rw [Frame.handled?, Option.eq_none_iff_forall_ne_some]
      intro e he
      refine h task ?_ (List.mem_of_mem_head? hhead)
      rintro k rfl
      cases he
    | _ => rfl

/-- A timer event is handled only right after a round of the loop. -/
lemma Attended.handled?_stepFrame {s : Simulator K} {m : Memory K U} {f : Frame K U}
    {rest : List (Frame K U)} {broken : Bool} (code : Code K U)
    (ha : (⟨s, m, f :: rest, broken⟩ : Machine K U).Attended) (h : s.Timely keys) (hf : f ≠ .next) :
    (stepFrame code f s m rest).handled? = none := by
  obtain ⟨top, hleaves, hstack⟩ := leaves_stepFrame code f h m rest
  refine handled?_eq_none fun task htask hmem => ?_
  rw [hstack] at hmem
  rcases List.mem_append.mp hmem with hmem | hmem
  · exact hleaves.task_not_mem ha.orderly.userCode hf htask hmem
  · exact ha.orderly.nested.task_not_mem htask hmem

lemma Attended.fares_takeNext {s : Simulator K} {m : Memory K U} {rest : List (Frame K U)}
    {broken : Bool} (code : Code K U)
    (ha : (⟨s, m, .next :: rest, broken⟩ : Machine K U).Attended) (h : s.Timely keys) (n : Nat) :
    Fares n (⟨s, m, .next :: rest, broken⟩ : Machine K U) .step
      (Machine.takeNext code s m rest) := by
  have hissued : NoneIssued n ((⟨s, m, .next :: rest, broken⟩ : Machine K U).turns .step) := by
    rw [turns_step]
    intro x hx hissued
    obtain ⟨p, -, hx⟩ := List.mem_flatMap.mp hx
    obtain ⟨ev, -, rfl⟩ := List.mem_map.mp hx
    dsimp only at hissued
    split at hissued <;> cases hissued
  have hround := round_takeNext code m rest h.consistent h.now_le
  generalize Machine.takeNext code s m rest = b at hround ⊢
  cases hround with
  | finish hnone hempty =>
    have hhandled : handled? (⟨finishRun s, m, rest, false⟩ : Machine K U) = none :=
      handled?_eq_none fun task htask => ha.orderly.nested.task_not_mem htask
    have hnot : handled? (⟨s, m, .next :: rest, broken⟩ : Machine K U) ≠ some (.interval n) := by
      simp [handled?, Frame.handled?]
    refine .still rfl (Nat.le_refl _) rfl hissued (Or.inl rfl) (Or.inr ⟨hhandled, Or.inl hnot⟩) ?_
    rw [turns_step, Frame.turns, hnone, Option.toList_none, List.flatMap_nil]
    exact fun _ _ _ _ x hx => by cases hx
  | @pass id ev q hsome hnext hcancelled =>
    refine .take rfl rfl hsome hnext (fun j => rfl) rfl rfl ?_ hissued
    rw [hcancelled]
    rfl
  | @start id ev q hsome hnext hlive =>
    obtain ⟨hsim, hmemory⟩ :=
      launch_unchanged code id ev { s with scheduler := q, now := ev.key.time } m rest
    have ht := congrArg Memory.trickles hmemory
    refine .take rfl rfl hsome hnext (fun j => ?_) ?_ ht ?_ hissued
    · rw [hsim]
      cases j <;> rfl
    · rw [hsim]
    · rw [hlive]
      rfl

lemma fares_move (code : Code K U) (mv : Move K U) (ha : a.Attended) (h : a.sim.Timely keys)
    (hkeeps : a.KeepsTimers mv) (n : Nat) : Fares n a mv (move code a mv) := by
  obtain ⟨s, m, stack, broken⟩ := a
  have hquiet : ∀ (b : Machine K U), (⟨s, m, stack, broken⟩ : Machine K U).turns mv = [] →
      call? n ⟨s, m, stack, broken⟩ mv = none → b.sim.now = s.now →
      b.memory.trickles = m.trickles →
      (b.handled? = handled? ⟨s, m, stack, broken⟩ ∨
        b.handled? = none ∧ handled? (⟨s, m, stack, broken⟩ : Machine K U) = none) →
      Fares n ⟨s, m, stack, broken⟩ mv b := by
    intro b hturns hcall hnow ht hhandled
    refine .still (by rw [Memory.trickle?_congr ht]) (by rw [ht]) hnow ?_ (Or.inl ?_) ?_ ?_
    · rw [hturns]
      exact fun x hx => by cases hx
    · rw [hcall]
      rfl
    · refine hhandled.imp_right (And.imp_right fun hnone => Or.inl ?_)
      rw [hnone]
      simp
    · rw [hturns]
      exact fun _ _ _ _ x hx => by cases hx
  cases mv with
  | remote r => exact hquiet _ rfl rfl rfl rfl (Or.inl rfl)
  | enter f p =>
    rw [move]
    split
    · next hdone =>
      obtain rfl : stack = [] := List.isEmpty_iff.mp hdone
      exact hquiet _ rfl rfl rfl hkeeps.2 (Or.inr ⟨rfl, rfl⟩)
    · exact hquiet _ rfl rfl rfl rfl (Or.inl rfl)
  | step =>
    cases stack with
    | nil => exact hquiet _ rfl rfl rfl rfl (Or.inl rfl)
    | cons f rest =>
      by_cases hf : f = .next
      · subst hf
        exact ha.fares_takeNext code h n
      · have hhandled := ha.handled?_stepFrame code h hf
        have hnow : (stepFrame code f s m rest).sim.now = s.now :=
          (course_stepFrame code f s m rest hf h.delay_nonneg).2.unchanged.2.1
        have hcases :=
          serves_or_ignores_stepFrame code rest ha.sound h ha.orderly.userCode ha.guards hf n
        rw [← turns_step f s m rest broken] at hcases
        rcases hcases with hserves | hignores
        · exact .serves rfl rfl hnow hhandled hserves
        · exact .still hignores.record hignores.size_le hnow hignores.issued hignores.call
            (Or.inr ⟨hhandled, hignores.handled⟩) hignores.event

end

end Machine

end EventKernel
