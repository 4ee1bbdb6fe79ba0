import EventKernel.Proofs.Machine.Handle
import EventKernel.Proofs.Machine.Stack
import EventKernel.Proofs.Timer.Trickle
import EventKernel.Proofs.Timer.Watchdog

/-!
# The timers that callbacks share

The memory of the callbacks holds the timers, the queue holds their events. A step of the machine
changes at most one timer, and the events it issues, cancels or removes are those of that timer, or
no timer's, or one that the program names itself. So each timer keeps track of its own events,
whatever is done with the others.
-/

namespace EventKernel

open Simulator (Course Passage Sound Timely)

variable {K U : Type} {s t : Simulator K} {turns : List (Turn K)}

/-! ### Timers in the memory -/

namespace Memory

variable {m m' : Memory K U} {w : Nat}

lemma watchdog?_setWatchdog (w v : Nat) (d : Option (Watchdog K)) (m : Memory K U) :
    (m.setWatchdog w d).watchdog? v =
      if v = w ∧ w < m.watchdogs.size then d else m.watchdog? v := by
  simp only [watchdog?, setWatchdog, Array.getElem?_setIfInBounds]
  by_cases hv : w = v
  · subst hv
    by_cases hw : w < m.watchdogs.size <;> simp [hw]
  · simp [hv, Ne.symm hv]

lemma trickle?_setTrickle (n k : Nat) (d : Option (Trickle K)) (m : Memory K U) :
    (m.setTrickle n d).trickle? k =
      if k = n ∧ n < m.trickles.size then d else m.trickle? k := by
  simp only [trickle?, setTrickle, Array.getElem?_setIfInBounds]
  by_cases hk : n = k
  · subst hk
    by_cases hn : n < m.trickles.size <;> simp [hn]
  · simp [hk, Ne.symm hk]

lemma lt_size_of_watchdog? {d : Watchdog K} (h : m.watchdog? w = some d) :
    w < m.watchdogs.size := by
  obtain ⟨hlt, -⟩ := Array.getElem?_eq_some_iff.mp (Option.join_eq_some_iff.mp h)
  exact hlt

lemma lt_size_of_trickle? {n : Nat} {d : Trickle K} (h : m.trickle? n = some d) :
    n < m.trickles.size := by
  obtain ⟨hlt, -⟩ := Array.getElem?_eq_some_iff.mp (Option.join_eq_some_iff.mp h)
  exact hlt

lemma watchdog?_congr (h : m'.watchdogs = m.watchdogs) (w : Nat) :
    m'.watchdog? w = m.watchdog? w := by
  rw [watchdog?, watchdog?, h]

lemma trickle?_congr (h : m'.trickles = m.trickles) (n : Nat) :
    m'.trickle? n = m.trickle? n := by
  rw [trickle?, trickle?, h]

lemma watchdogs_setWatchdog_none (m : Memory K U) (h : m.watchdog? w = none) :
    (m.setWatchdog w none).watchdogs = m.watchdogs := by
  refine Array.ext_getElem? fun v => ?_
  rw [setWatchdog, Array.getElem?_setIfInBounds]
  split
  · next hv =>
    subst hv
    split
    · next hlt =>
      rw [watchdog?, Array.getElem?_eq_getElem hlt, Option.join_some] at h
      rw [Array.getElem?_eq_getElem hlt, h]
    · next hge => exact (Array.getElem?_eq_none (Nat.not_lt.mp hge)).symm
  · rfl

/-- Every timer keeps track of its events, and no event is about a watchdog yet to be made. -/
structure Guards (m : Memory K U) (s : Simulator K) : Prop where
  watchdog : ∀ w d, m.watchdog? w = some d → d.Kept w s
  trickle : ∀ n d, m.trickle? n = some d → d.Kept n s
  known : ∀ id ev w, s.find? id = some ev → ev.task = .watchdog w → w < m.watchdogs.size

lemma Guards.known_of_passage (h : m.Guards s) (hp : Passage s turns t)
    (hturns : ∀ x ∈ turns, x.fate = .issued → ∀ w, x.event.task = .watchdog w →
      w < m.watchdogs.size) :
    ∀ id ev w, t.find? id = some ev → ev.task = .watchdog w → w < m.watchdogs.size := by
  intro id ev w hev htask
  rcases hp.held id ev hev with ⟨old, hold, hsame, -⟩ | ⟨-, x, hx, -, hissued, hsame⟩
  · exact h.known id old w hold ((Event.of_unmarked_eq hsame).2.trans htask)
  · exact hturns x hx hissued w ((congrArg Event.task hsame).trans htask)

/-- As long as no watchdog's expiry is issued, all timers are kept. -/
lemma Guards.passage (h : m.Guards s) (hp : Passage s turns t)
    (hturns : ∀ x ∈ turns, x.fate = .issued → ∀ w, x.event.task ≠ .watchdog w)
    (hw : m'.watchdogs = m.watchdogs) (ht : m'.trickles = m.trickles) : m'.Guards t where
  watchdog w d hd := by
    rw [watchdog?_congr hw] at hd
    exact (h.watchdog w d hd).passage hp fun x hx hissued => hturns x hx hissued w
  trickle n d hd := by
    rw [trickle?_congr ht] at hd
    exact (h.trickle n d hd).passage hp
  known := by
    rw [hw]
    exact h.known_of_passage hp fun x hx hissued w htask => absurd htask (hturns x hx hissued w)

lemma Guards.setWatchdog (h : m.Guards s) (hp : Passage s turns t) {d d' : Watchdog K}
    (hd : m.watchdog? w = some d)
    (hturns : ∀ x ∈ turns, x.fate = .issued → x.event.task = .watchdog w) (hkept : d'.Kept w t) :
    (m.setWatchdog w (some d')).Guards t where
  watchdog v d hv := by
    rw [watchdog?_setWatchdog] at hv
    split at hv
    · next heq =>
      rw [heq.1, ← Option.some.inj hv]
      exact hkept
    · next hne =>
      refine (h.watchdog v d hv).passage hp ?_
      intro x hx hissued htask
      rw [hturns x hx hissued] at htask
      exact hne ⟨(Task.watchdog.inj htask).symm, lt_size_of_watchdog? hd⟩
  trickle n d hd := (h.trickle n d hd).passage hp
  known := by
    rw [Memory.setWatchdog, Array.size_setIfInBounds]
    refine h.known_of_passage hp ?_
    intro x hx hissued v htask
    rw [hturns x hx hissued] at htask
    rw [← Task.watchdog.inj htask]
    exact lt_size_of_watchdog? hd

lemma Guards.dropWatchdog (h : m.Guards s) (w : Nat) : (m.setWatchdog w none).Guards s where
  watchdog v d hv := by
    rw [watchdog?_setWatchdog] at hv
    split at hv
    · cases hv
    · exact h.watchdog v d hv
  trickle := h.trickle
  known := by
    rw [Memory.setWatchdog, Array.size_setIfInBounds]
    exact h.known

lemma Guards.setTrickle (h : m.Guards s) {n : Nat} {new : Option (Trickle K)}
    (hnew : ∀ d, new = some d → d.Kept n s) : (m.setTrickle n new).Guards s where
  watchdog := h.watchdog
  trickle k d hd := by
    rw [trickle?_setTrickle] at hd
    split at hd
    · next heq =>
      rw [heq.1]
      exact hnew d hd
    · exact h.trickle k d hd
  known := h.known

lemma Guards.newWatchdog (h : m.Guards s) (hs : s.Sound) (k : K) :
    ({ m with watchdogs := m.watchdogs.push (some (.create k)) } : Memory K U).Guards s where
  watchdog w d hd := by
    rw [watchdog?, Array.getElem?_push] at hd
    split at hd
    · next heq =>
      obtain rfl : Watchdog.create k = d := Option.some.inj hd
      refine ⟨hs.owns_detached _, ?_⟩
      intro id ev hev htask
      have hlt := h.known id ev w hev htask
      omega
    · exact h.watchdog w d hd
  trickle := h.trickle
  known id ev w hev htask := by
    rw [Array.size_push]
    exact Nat.lt_succ_of_lt (h.known id ev w hev htask)

lemma Guards.newTrickle (h : m.Guards s) (hs : s.Sound) {d : Trickle K}
    (hinterval : d.intervalEvent = .detached) (hfire : d.fireEvent = .detached) :
    ({ m with trickles := m.trickles.push (some d) } : Memory K U).Guards s where
  watchdog := h.watchdog
  trickle n d' hd := by
    rw [trickle?, Array.getElem?_push] at hd
    split at hd
    · obtain rfl : d = d' := Option.some.inj hd
      refine ⟨?_, ?_⟩
      · rw [hinterval]
        exact hs.owns_detached _
      · rw [hfire]
        exact hs.owns_detached _
    · exact h.trickle n d' hd
  known := h.known

end Memory

/-! ### What a step does to the timers -/

/-- Whether a request leaves a watchdog alone: it does not ping, cancel or drop it, and it does not
cancel or remove the expiry behind its back. -/
def Request.spares (w : Nat) (m : Memory K U) : Request K U → Bool
  | .sim (.cancel id) | .sim (.remove id) => (m.watchdog? w).all (·.event ≠ id)
  | .watchdog v (.ping _) | .watchdog v .cancel | .dropWatchdog v => v ≠ w
  | _ => true

/-- Whether a frame leaves a watchdog alone. -/
def Frame.spares (w : Nat) (m : Memory K U) : Frame K U → Bool
  | .exec (.ask r _) => r.spares w m
  | .clear => false
  | _ => true

/-- What a step that takes no event off the queue does to the timers, and the turns it brings to
their events. -/
inductive Tends (s : Simulator K) (m : Memory K U) (f : Frame K U) (turns : List (Turn K))
    (t : Simulator K) : Memory K U → Prop where
  /-- No timer has a part in it, but a program may get at the event of one by its handle. -/
  | quiet {m' : Memory K U} {Q : EventId → Prop} (hturns : Confined Task.IsPlain Q turns)
      (hQ : ∀ id, Q id → (∃ n, id = .destroy n) ∨
        ∀ w d, f.spares w m → m.watchdog? w = some d → id ≠ d.event)
      (hw : m'.watchdogs = m.watchdogs) (ht : m'.trickles = m.trickles) : Tends s m f turns t m'
  | watchdog {w : Nat} {d d' : Watchdog K} (hd : m.watchdog? w = some d) (hkept : d'.Kept w t)
      (hturns : Confined (· = .watchdog w) (· = d.event) turns)
      (hfunction : d'.function = none → d.function = none ∨ f = .task (.watchdog w))
      (hspared : f.spares w m → f ≠ .task (.watchdog w) →
        turns = [] ∧ ∃ k, d' = { d with function := k }) :
      Tends s m f turns t (m.setWatchdog w (some d'))
  | trickle {n : Nat} {d d' : Trickle K} (hd : m.trickle? n = some d) (hkept : d'.Kept n t)
      (hturns : Confined (Trickle.OwnTask n) d.OwnEvent turns) :
      Tends s m f turns t (m.setTrickle n (some d'))
  | newWatchdog (k : K) (hturns : turns = []) :
      Tends s m f turns t { m with watchdogs := m.watchdogs.push (some (.create k)) }
  | dropWatchdog (w : Nat) (hspared : ¬f.spares w m) (hturns : turns = []) :
      Tends s m f turns t (m.setWatchdog w none)
  | newTrickle {d : Trickle K} (hinterval : d.intervalEvent = .detached)
      (hfire : d.fireEvent = .detached) (hturns : turns = []) :
      Tends s m f turns t { m with trickles := m.trickles.push (some d) }
  | dropTrickle (n : Nat) (hturns : turns = []) : Tends s m f turns t (m.setTrickle n none)

section

variable {m m' : Memory K U} {f : Frame K U}

lemma Tends.of_nil (hw : m'.watchdogs = m.watchdogs) (ht : m'.trickles = m.trickles) :
    Tends s m f [] t m' :=
  .quiet (Q := fun _ => False) confined_nil (fun _ hid => hid.elim) hw ht

/-- The turns are those of plain events that are issued now. -/
lemma Tends.of_confined {P : Task K → Prop} (hturns : Confined P (fun _ => False) turns)
    (hP : ∀ task, P task → task.IsPlain) : Tends s m f turns t m :=
  .quiet (hturns.mono hP fun _ hid => hid) (fun _ hid => hid.elim) rfl rfl

end

/-! ### Requests -/

lemma Simulator.Timely.le_of_find? {keys : List EventKey} (h : s.Timely keys) {id : EventId}
    {ev : Event (Task K)} (hev : s.find? id = some ev) : s.now ≤ ev.key.time := by
  cases id with
  | queued slot n => exact h.now_le _ (Arena.mem_entries_of_get? hev)
  | destroy n =>
    obtain ⟨old, -, rfl⟩ := Option.map_eq_some_iff.mp hev
    exact Int.lt_add_one_iff.mp s.now.ticks_lt

/-- What is stored from the inbox is code of the user. -/
lemma Simulator.Timely.confined_drainTurns {keys : List EventKey} {Q : EventId → Prop}
    (h : s.Timely keys) (hs : s.Sound) (huser : s.HoldsUserCode) :
    Confined (fun task => ∃ k, task = .user k) Q s.drainTurns := by
  have hclear : Course s [] { s with inbox := s.inbox.clear } :=
    Simulator.course_inbox fun ev hev => by simp [Inbox.clear] at hev
  exact (hs.passage hclear).sound.confined_insertTurns
    (fun ev hev => h.delay_nonneg ev (Array.mem_toList_iff.mp hev))
    fun ev hev => huser.inbox ev (Array.mem_toList_iff.mp hev)

lemma SimRequest.tends (r : SimRequest K) (next : r.Reply → Program K U PUnit) (m : Memory K U)
    (hs : s.Sound) :
    Tends s m (.exec (.ask (.sim r) next)) (r.turns s) (r.apply s).2 m := by
  have hplain : ∀ {k : K} (task : Task K), task = .user k → task.IsPlain := by
    rintro k _ rfl
    trivial
  have hstop : ∀ task : Task K, task = .stop → task.IsPlain := by
    rintro _ rfl
    trivial
  have hhandle : ∀ (id : EventId) (f : Frame K U),
      (f.spares · m) = (fun w => (m.watchdog? w).all (·.event ≠ id)) →
      ∀ j, j = id → (∃ n, j = .destroy n) ∨
        ∀ w d, f.spares w m → m.watchdog? w = some d → j ≠ d.event := by
    intro id f hf j hj
    refine Or.inr fun w d hspares hd => ?_
    have hspares : (m.watchdog? w).all (·.event ≠ id) = true := (congrFun hf w).symm.trans hspares
    rw [hd, Option.all_some, decide_eq_true_iff] at hspares
    rw [hj]
    exact Ne.symm hspares
  cases r with
  | schedule delay k => exact .of_confined (hs.confined_scheduleWith _ _ _) hplain
  | scheduleNow k => exact .of_confined (hs.confined_scheduleWith _ _ _) hplain
  | scheduleWith context delay k => exact .of_confined (hs.confined_scheduleWith _ _ _) hplain
  | scheduleDestroy k => exact .of_confined (hs.confined_scheduleDestroy _) hplain
  | stopAfter delay => exact .of_confined (hs.confined_scheduleWith _ _ _) hstop
  | cancel id => exact .quiet (Simulator.confined_cancelTurns id s) (hhandle id _ rfl) rfl rfl
  | remove id => exact .quiet (Simulator.confined_removeTurns id s) (hhandle id _ rfl) rfl rfl
  | isExpired | delayLeft | identity | now | context | phase | eventCount | pendingEvents
  | isFinished | stop | kind | setScheduler | sync | boundLookahead | observe | describe =>
    exact .of_nil rfl rfl

lemma WatchdogRequest.tends {keys : List EventKey} {w : Nat} (r : WatchdogRequest K)
    (next : Option r.Reply → Program K U PUnit) {m : Memory K U} (hs : s.Sound) (h : s.Timely keys)
    {d : Watchdog K} (hd : m.watchdog? w = some d) (hkept : d.Kept w s) :
    Tends s m (.exec (.ask (.watchdog w r) next)) (r.turns w d s) (r.apply w d s).2.2
      (m.setWatchdog w (some (r.apply w d s).2.1)) := by
  cases r with
  | setFunction k =>
    refine .watchdog hd (hkept.congr rfl (Int.le_refl _)) confined_nil ?_ ?_
    · intro hnone
      cases hnone
    · exact fun _ _ => ⟨rfl, some k, rfl⟩
  | ping delay =>
    obtain ⟨hkept', hfunction, -⟩ := hkept.ping hs h.now_nonneg (fun _ _ => h.le_of_find?) delay
    refine .watchdog hd hkept' (Watchdog.confined_pingTurns hs w delay d) ?_ ?_
    · intro hnone
      exact Or.inl (hfunction.symm.trans hnone)
    · exact fun hspares _ => by simp [Frame.spares, Request.spares] at hspares
  | cancel =>
    refine .watchdog hd (hkept.congr rfl (Int.le_refl _)) confined_nil Or.inl ?_
    exact fun hspares _ => by simp [Frame.spares, Request.spares] at hspares
  | info =>
    exact .watchdog hd hkept confined_nil Or.inl fun _ _ => ⟨rfl, d.function, rfl⟩

lemma TrickleRequest.tends {f : Frame K U} {n : Nat} (r : TrickleRequest K) {m : Memory K U}
    (hs : s.Sound) {d : Trickle K} (hd : m.trickle? n = some d) (hkept : d.Kept n s) :
    Tends s m f (r.turns n d s) (r.apply n d s).2.2
      (m.setTrickle n (some (r.apply n d s).2.1)) := by
  cases r with
  | enable =>
    exact .trickle hd (hkept.enable hs) (Trickle.confined_beginTurns hs n d.drawn)
  | reset => exact .trickle hd (hkept.reset hs) (Trickle.confined_resetTurns hs n d)
  | inconsistent =>
    exact .trickle hd (hkept.inconsistent hs) (Trickle.confined_inconsistentTurns hs n d)
  | stop =>
    have hp := hs.passage (d.course_stop s).course
    exact .trickle hd (hkept.passage hp) (Trickle.confined_stopTurns d s)
  | setFunction | consistent | info =>
    exact .trickle hd ⟨hkept.interval, hkept.fire⟩ confined_nil

lemma Request.tends {keys : List EventKey} (r : Request K U) (next : r.Reply → Program K U PUnit)
    {m : Memory K U} (hs : s.Sound) (h : s.Timely keys) (hg : m.Guards s) :
    Tends s m (.exec (.ask r next)) (r.turns s m) (r.apply s m).2.1 (r.apply s m).2.2 := by
  cases r with
  | sim r => exact r.tends next m hs
  | inbox target r =>
    refine .of_nil ?_ ?_
    · show (m.askInbox target r s).2.2.watchdogs = m.watchdogs
      rw [(m.askInbox_unchanged target r s).2]
    · show (m.askInbox target r s).2.2.trickles = m.trickles
      rw [(m.askInbox_unchanged target r s).2]
  | newWatchdog k => exact .newWatchdog k rfl
  | watchdog w r =>
    simp only [apply, turns]
    cases hd : m.watchdog? w with
    | none => exact .of_nil rfl rfl
    | some d =>
      rw [Option.toList_some, List.flatMap_singleton]
      exact r.tends next hs h hd (hg.watchdog w d hd)
  | dropWatchdog w => exact .dropWatchdog w (by simp [Frame.spares, Request.spares]) rfl
  | newTrickle => exact .newTrickle rfl rfl rfl
  | trickle n r =>
    simp only [apply, turns]
    cases hd : m.trickle? n with
    | none => exact .of_nil rfl rfl
    | some d =>
      rw [Option.toList_some, List.flatMap_singleton]
      exact r.tends hs hd (hg.trickle n d hd)
  | dropTrickle n => exact .dropTrickle n rfl
  | load | update => exact .of_nil rfl rfl

/-! ### Frames -/

namespace Machine

/-- An expiry is started while the simulator is alive, when no other one is pending, and not after
the deadline. -/
lemma tends_start {keys : List EventKey} (code : Code K U) (task : Task K) {m : Memory K U}
    (rest : List (Frame K U)) (hs : s.Sound) (h : s.Timely keys) (hg : m.Guards s)
    (hdue : ∀ w d, task = .watchdog w → m.watchdog? w = some d →
      s.phase ≠ .destroyed ∧ Watchdog.Resting w s ∧ s.now ≤ d.deadline) :
    Tends s m (.task task) (task.turns s m) (start code task s m rest).sim
      (start code task s m rest).memory := by
  cases task with
  | user | stop => exact .of_nil rfl rfl
  | watchdog w =>
    rw [start, Task.turns]
    cases hd : m.watchdog? w with
    | none => exact .of_nil rfl rfl
    | some d =>
      obtain ⟨halive, hresting, hle⟩ := hdue w d rfl hd
      have hkept := hg.watchdog w d hd
      have hturns := Watchdog.confined_expireTurns hs w d
      rw [Option.toList_some, List.flatMap_singleton]
      dsimp only
      rcases Watchdog.expire_cases d hs hresting h.now_nonneg hle halive with
        ⟨-, he⟩ | ⟨-, id, t, he, -, hkept'⟩ | ⟨-, -, he⟩
      · rw [he]
        exact .watchdog hd hkept hturns (fun _ => Or.inr rfl) fun _ hne => absurd rfl hne
      · rw [he]
        exact .watchdog hd hkept' hturns (fun _ => Or.inr rfl) fun _ hne => absurd rfl hne
      · have hkept' : ({ d with function := none } : Watchdog K).Kept w s :=
          hkept.congr rfl (Int.le_refl _)
        rw [he]
        cases d.function with
        | none => exact .watchdog hd hkept' hturns (fun _ => Or.inr rfl) fun _ hne => absurd rfl hne
        | some k =>
          exact .watchdog hd hkept' hturns (fun _ => Or.inr rfl) fun _ hne => absurd rfl hne
  | trickleInterval n =>
    rw [start, Task.turns]
    cases hd : m.trickle? n with
    | none => exact .of_nil rfl rfl
    | some d =>
      rw [Option.toList_some, List.flatMap_singleton]
      exact .trickle hd ((hg.trickle n d hd).endInterval hs) (Trickle.confined_beginTurns hs n _)
  | trickleFire n =>
    rw [start]
    cases hd : m.trickle? n with
    | none => exact .of_nil rfl rfl
    | some d =>
      have hkept := hg.trickle n d hd
      have hevents :
          d.fire.2.intervalEvent = d.intervalEvent ∧ d.fire.2.fireEvent = d.fireEvent := by
        rw [Trickle.fire]
        split <;> exact ⟨rfl, rfl⟩
      have hkept' : d.fire.2.Kept n s := by
        refine ⟨?_, ?_⟩
        · rw [hevents.1]
          exact hkept.interval
        · rw [hevents.2]
          exact hkept.fire
      dsimp only
      split
      · next hfire =>
        rw [hfire] at hkept'
        exact .trickle hd hkept' confined_nil
      · next hfire =>
        rw [hfire] at hkept'
        exact .trickle hd hkept' confined_nil

lemma tends_stepFrame {keys : List EventKey} (code : Code K U) {f : Frame K U} {m : Memory K U}
    (rest : List (Frame K U)) (hs : s.Sound) (h : s.Timely keys) (huser : s.HoldsUserCode)
    (hg : m.Guards s) (hf : f ≠ .next)
    (hdue : ∀ w d, f = .task (.watchdog w) → m.watchdog? w = some d →
      s.phase ≠ .destroyed ∧ Watchdog.Resting w s ∧ s.now ≤ d.deadline) :
    Tends s m f (f.turns s m) (stepFrame code f s m rest).sim
      (stepFrame code f s m rest).memory := by
  cases f with
  | exec p =>
    rw [stepFrame]
    cases p with
    | ask r next => exact r.tends next hs h hg
    | done | perform => exact .of_nil rfl rfl
    | run next =>
      rw [exec]
      split <;> exact .of_nil rfl rfl
    | destroy next =>
      rw [exec]
      split <;> exact .of_nil rfl rfl
  | task task => exact tends_start code task rest hs h hg fun w d hw => hdue w d (hw ▸ rfl)
  | loop =>
    refine .of_confined (h.confined_drainTurns hs huser) ?_
    rintro _ ⟨k, rfl⟩
    trivial
  | next => exact absurd rfl hf
  | restore | close => exact .of_nil rfl rfl
  | rearmWatchdog w k =>
    rw [stepFrame]
    cases hd : m.watchdog? w with
    | none => exact .of_nil (m.watchdogs_setWatchdog_none hd) rfl
    | some d =>
      refine .watchdog hd ((hg.watchdog w d hd).congr rfl (Int.le_refl _)) confined_nil ?_ ?_
      · intro hnone
        exact Or.inl (Option.or_eq_none_iff.mp hnone).1
      · exact fun _ _ => ⟨rfl, _, rfl⟩
  | rearmTrickle n k =>
    rw [stepFrame]
    cases hd : m.trickle? n with
    | none => exact .dropTrickle n rfl
    | some d =>
      have hkept := hg.trickle n d hd
      exact .trickle hd ⟨hkept.interval, hkept.fire⟩ confined_nil
  | teardown =>
    rw [stepFrame, nextTeardown]
    dsimp only
    split <;> exact .quiet (Simulator.confined_teardownTurns s) (fun _ => Or.inl) rfl rfl
  | clear =>
    refine .quiet (Simulator.confined_dropTurns s) ?_ rfl rfl
    exact fun _ _ => Or.inr fun w d hspares => by cases hspares

end Machine

/-! ### What it means for a watchdog -/

section

variable {m m' : Memory K U} {f : Frame K U} {w : Nat}

lemma Task.IsPlain.ne_watchdog {task : Task K} (h : task.IsPlain) (w : Nat) :
    task ≠ .watchdog w := by
  rintro rfl
  exact h

lemma Trickle.OwnTask.ne_watchdog {n : Nat} {task : Task K} (h : Trickle.OwnTask n task) (w : Nat) :
    task ≠ .watchdog w := by
  rcases h with rfl | rfl <;> simp

lemma Tends.guards (h : Tends s m f turns t m') (hp : Passage s turns t) (hg : m.Guards s) :
    m'.Guards t := by
  have hquiet : turns = [] → m.Guards t := by
    rintro rfl
    exact hg.passage hp (fun x hx => by cases hx) rfl rfl
  cases h with
  | quiet hturns hQ hw ht =>
    exact hg.passage hp (fun x hx hissued => (hturns.of_issued hx hissued).ne_watchdog) hw ht
  | watchdog hd hkept hturns =>
    exact hg.setWatchdog hp hd (fun x hx hissued => hturns.of_issued hx hissued) hkept
  | trickle hd hkept hturns =>
    have hg := hg.passage hp
      (fun x hx hissued => (hturns.of_issued hx hissued).ne_watchdog) rfl rfl
    refine hg.setTrickle fun d hd => ?_
    rw [← Option.some.inj hd]
    exact hkept
  | newWatchdog k hturns => exact (hquiet hturns).newWatchdog hp.sound k
  | dropWatchdog v hspared hturns => exact (hquiet hturns).dropWatchdog v
  | newTrickle hinterval hfire hturns => exact (hquiet hturns).newTrickle hp.sound hinterval hfire
  | dropTrickle n hturns => exact (hquiet hturns).setTrickle fun d hd => by cases hd

/-- A watchdog loses its function only when its expiry is started. -/
lemma Tends.of_function_none (h : Tends s m f turns t m') {d' : Watchdog K}
    (hd' : m'.watchdog? w = some d') (hnone : d'.function = none) :
    (∃ d, m.watchdog? w = some d ∧ d.function = none) ∨ f = .task (.watchdog w) := by
  cases h with
  | quiet hturns hQ hw ht =>
    rw [Memory.watchdog?_congr hw] at hd'
    exact Or.inl ⟨d', hd', hnone⟩
  | @watchdog v d _ hd hkept hturns hfunction hspared =>
    rw [Memory.watchdog?_setWatchdog] at hd'
    split at hd'
    · next heq =>
      rw [heq.1]
      rw [← Option.some.inj hd'] at hnone
      exact (hfunction hnone).imp_left fun hnone => ⟨d, hd, hnone⟩
    · exact Or.inl ⟨d', hd', hnone⟩
  | newWatchdog k =>
    rw [Memory.watchdog?, Array.getElem?_push] at hd'
    split at hd'
    · rw [← (Option.some.inj hd' : Watchdog.create k = d')] at hnone
      cases hnone
    · exact Or.inl ⟨d', hd', hnone⟩
  | dropWatchdog v =>
    rw [Memory.watchdog?_setWatchdog] at hd'
    split at hd'
    · cases hd'
    · exact Or.inl ⟨d', hd', hnone⟩
  | trickle | newTrickle | dropTrickle => exact Or.inl ⟨d', hd', hnone⟩

/-- What a step leaves of a watchdog that it spares: only its function may be another one, no expiry
of it is issued, and the event that it names has no turn. -/
structure Undisturbed (w : Nat) (d : Watchdog K) (s : Simulator K) (turns : List (Turn K))
    (m' : Memory K U) : Prop where
  record : ∃ k, m'.watchdog? w = some { d with function := k }
  issued : ∀ x ∈ turns, x.fate = .issued → x.event.task ≠ .watchdog w
  event : (∃ ev, s.find? d.event = some ev) → ∀ x ∈ turns, x.id = d.event → x.fate = .issued

lemma undisturbed_nil {d : Watchdog K} (hd : m.watchdog? w = some d)
    (hw : m'.watchdogs = m.watchdogs) : Undisturbed w d s [] m' where
  record := ⟨d.function, (Memory.watchdog?_congr hw w).trans hd⟩
  issued x hx := by cases hx
  event _ x hx := by cases hx

lemma Tends.undisturbed (h : Tends s m f turns t m') (hg : m.Guards s) (huser : s.HoldsUserCode)
    {d : Watchdog K} (hd : m.watchdog? w = some d) (hspares : f.spares w m)
    (hf : f ≠ .task (.watchdog w)) : Undisturbed w d s turns m' := by
  have hown := (hg.watchdog w d hd).owns
  have hnil : turns = [] → ∀ k, m'.watchdog? w = some { d with function := k } →
      Undisturbed w d s turns m' := by
    rintro rfl k hd'
    refine ⟨⟨k, hd'⟩, ?_, ?_⟩
    · intro x hx
      cases hx
    · intro _ x hx
      cases hx
  cases h with
  | quiet hturns hQ hw ht =>
    refine ⟨⟨d.function, (Memory.watchdog?_congr hw w).trans hd⟩,
      fun x hx hissued => (hturns.of_issued hx hissued).ne_watchdog w, ?_⟩
    rintro ⟨ev, hev⟩ x hx hid
    by_contra hnot
    rcases hQ x.id (hturns.of_not_issued hx hnot) with ⟨n, hn⟩ | hne
    · refine huser.ne_destroy hev ?_ n (hid.symm.trans hn)
      rw [hown.2 ev hev]
      exact fun k => by simp
    · exact hne w d hspares hd hid
  | @watchdog v d₁ d' hd₁ hkept hturns hfunction hspared =>
    by_cases hv : v = w
    · subst hv
      obtain rfl : d₁ = d := Option.some.inj (hd₁.symm.trans hd)
      obtain ⟨hturns, k, rfl⟩ := hspared hspares hf
      refine hnil hturns k ?_
      rw [Memory.watchdog?_setWatchdog, if_pos ⟨rfl, Memory.lt_size_of_watchdog? hd⟩]
    · refine ⟨⟨d.function, ?_⟩, ?_, ?_⟩
      · rw [Memory.watchdog?_setWatchdog, if_neg fun hand => hv hand.1.symm]
        exact hd
      · intro x hx hissued
        rw [hturns.of_issued hx hissued]
        exact fun heq => hv (Task.watchdog.inj heq)
      · rintro ⟨ev, hev⟩ x hx hid
        by_contra hnot
        have hne := (hg.watchdog v d₁ hd₁).owns.ne hev (hown.2 ev hev)
          fun heq => hv (Task.watchdog.inj heq).symm
        exact hne (hid.symm.trans (hturns.of_not_issued hx hnot))
  | @trickle n d₁ d' hd₁ hkept hturns =>
    refine ⟨⟨d.function, hd⟩, fun x hx hissued => (hturns.of_issued hx hissued).ne_watchdog w, ?_⟩
    rintro ⟨ev, hev⟩ x hx hid
    by_contra hnot
    have hkept := hg.trickle n d₁ hd₁
    rcases hturns.of_not_issued hx hnot with hinterval | hfire
    · exact hkept.interval.ne hev (hown.2 ev hev) (by simp) (hid.symm.trans hinterval)
    · exact hkept.fire.ne hev (hown.2 ev hev) (by simp) (hid.symm.trans hfire)
  | newWatchdog k hturns =>
    refine hnil hturns d.function ?_
    rw [Memory.watchdog?, Array.getElem?_push,
      if_neg (Nat.ne_of_lt (Memory.lt_size_of_watchdog? hd))]
    exact hd
  | dropWatchdog v hspared hturns =>
    refine hnil hturns d.function ?_
    rw [Memory.watchdog?_setWatchdog, if_neg]
    · exact hd
    · rintro ⟨rfl, -⟩
      exact hspared hspares
  | newTrickle hinterval hfire hturns => exact hnil hturns d.function hd
  | dropTrickle n hturns => exact hnil hturns d.function hd

end

end EventKernel
