import EventKernel.Proofs.Machine.Timers
import EventKernel.Proofs.Timer.Renewal

/-!
# The handles that timers keep in a run

The steps that serve a timer issue events of this timer only, and concern events it keeps handles
of. All other steps leave the timer alone and issue no events of timers. So a timer always keeps the
handles that were issued for it last.
-/

namespace EventKernel

open EventId (renewed)
open Simulator (Sound Timely HoldsUserCode)

variable {K U : Type} {s t : Simulator K} {turns : List (Turn K)} {keys : List EventKey}

/-! ### Handles in the memory -/

namespace Memory

variable {m m' : Memory K U} {w n : Nat}

/-- The handle that a timer keeps for one kind of its events. -/
def handle? (m : Memory K U) : TimerEvent → Option EventId
  | .expiry w => (m.watchdog? w).map (·.event)
  | .interval n => (m.trickle? n).map (·.intervalEvent)
  | .fire n => (m.trickle? n).map (·.fireEvent)

/-- Whether a timer has been made. It may have been dropped since. -/
def Knows (m : Memory K U) : TimerEvent → Prop
  | .expiry w => w < m.watchdogs.size
  | .interval n | .fire n => n < m.trickles.size

/-- What becomes of the handles in a step with certain turns: only timers that have been made have
events issued for them and keep the handles issued last; those that are made now keep none. -/
structure Renews (m : Memory K U) (turns : List (Turn K)) (m' : Memory K U) : Prop where
  handle : ∀ e id, m'.handle? e = some id →
    (∃ old, m.handle? e = some old ∧ id = renewed (issuedFor e turns) old) ∨
      ¬m.Knows e ∧ id = .detached
  issued : ∀ e, issuedFor e turns ≠ [] → m.Knows e
  knows : ∀ e, m.Knows e → m'.Knows e

lemma Renews.congr {m'' : Memory K U} (h : m.Renews turns m') (hw : m''.watchdogs = m'.watchdogs)
    (ht : m''.trickles = m'.trickles) : m.Renews turns m'' where
  handle e id hid := by
    refine h.handle e id ?_
    cases e with
    | expiry w => rwa [handle?, watchdog?_congr hw] at hid
    | interval n | fire n => rwa [handle?, trickle?_congr ht] at hid
  issued := h.issued
  knows e he := by
    have he := h.knows e he
    cases e with
    | expiry w => rwa [Knows, hw]
    | interval n | fire n => rwa [Knows, ht]

/-- Timers and other events have nothing to do with each other. -/
lemma Renews.of_eq (hturns : ∀ e, issuedFor e turns = []) (hw : m'.watchdogs = m.watchdogs)
    (ht : m'.trickles = m.trickles) : m.Renews turns m' := by
  have hsame : m.Renews turns m :=
    ⟨fun e id hid => Or.inl ⟨id, hid, by rw [hturns]; rfl⟩, fun e hne => absurd (hturns e) hne,
      fun _ he => he⟩
  exact hsame.congr hw ht

/-- Nothing is issued for a timer, and those that are left keep their handles. -/
lemma Renews.of_nil (hhandle : ∀ e id, m'.handle? e = some id →
      m.handle? e = some id ∨ ¬m.Knows e ∧ id = .detached)
    (hw : m.watchdogs.size ≤ m'.watchdogs.size) (ht : m.trickles.size ≤ m'.trickles.size) :
    m.Renews [] m' where
  handle e id hid := (hhandle e id hid).imp_left fun h => ⟨id, h, rfl⟩
  issued e hne := absurd rfl hne
  knows e he := by
    cases e with
    | expiry w => exact Nat.lt_of_lt_of_le he hw
    | interval n | fire n => exact Nat.lt_of_lt_of_le he ht

lemma Renews.setWatchdog {d d' : Watchdog K} (hd : m.watchdog? w = some d)
    (hevent : d'.event = renewed (issuedFor (.expiry w) turns) d.event)
    (hturns : ∀ e, issuedFor e turns ≠ [] → e = .expiry w) :
    m.Renews turns (m.setWatchdog w (some d')) where
  handle e id hid := by
    left
    by_cases he : e = .expiry w
    · subst he
      rw [handle?, watchdog?_setWatchdog, if_pos ⟨rfl, lt_size_of_watchdog? hd⟩] at hid
      refine ⟨d.event, by rw [handle?, hd]; rfl, ?_⟩
      rw [← hevent]
      exact (Option.some.inj hid).symm
    · refine ⟨id, ?_, by rw [not_not.mp fun hne => he (hturns e hne)]; rfl⟩
      cases e with
      | expiry v =>
        rwa [handle?, watchdog?_setWatchdog, if_neg fun hand => he (congrArg _ hand.1)] at hid
      | interval n | fire n => exact hid
  issued e hne := by
    rw [hturns e hne]
    exact lt_size_of_watchdog? hd
  knows e he := by
    cases e with
    | expiry v => simpa [Knows, Memory.setWatchdog] using he
    | interval n | fire n => exact he

lemma Renews.setTrickle {d d' : Trickle K} (hd : m.trickle? n = some d)
    (hevents : Trickle.Renewed n turns d d')
    (hturns : ∀ e, issuedFor e turns ≠ [] → e = .interval n ∨ e = .fire n) :
    m.Renews turns (m.setTrickle n (some d')) where
  handle e id hid := by
    left
    by_cases he : e = .interval n ∨ e = .fire n
    · rcases he with rfl | rfl
      · rw [handle?, trickle?_setTrickle, if_pos ⟨rfl, lt_size_of_trickle? hd⟩] at hid
        refine ⟨d.intervalEvent, by rw [handle?, hd]; rfl, ?_⟩
        rw [← hevents.interval]
        exact (Option.some.inj hid).symm
      · rw [handle?, trickle?_setTrickle, if_pos ⟨rfl, lt_size_of_trickle? hd⟩] at hid
        refine ⟨d.fireEvent, by rw [handle?, hd]; rfl, ?_⟩
        rw [← hevents.fire]
        exact (Option.some.inj hid).symm
    · refine ⟨id, ?_, by rw [not_not.mp fun hne => he (hturns e hne)]; rfl⟩
      cases e with
      | expiry v => exact hid
      | interval k =>
        rwa [handle?, trickle?_setTrickle,
          if_neg fun hand => he (Or.inl (congrArg _ hand.1))] at hid
      | fire k =>
        rwa [handle?, trickle?_setTrickle,
          if_neg fun hand => he (Or.inr (congrArg _ hand.1))] at hid
  issued e hne := by
    rcases hturns e hne with rfl | rfl
    · exact lt_size_of_trickle? hd
    · exact lt_size_of_trickle? hd
  knows e he := by
    cases e with
    | expiry v => exact he
    | interval k | fire k => simpa [Knows, Memory.setTrickle] using he

lemma renews_dropWatchdog (w : Nat) (m : Memory K U) : m.Renews [] (m.setWatchdog w none) := by
  refine .of_nil (fun e id hid => Or.inl ?_) (by simp [setWatchdog]) (Nat.le_refl _)
  cases e with
  | expiry v =>
    rw [handle?, watchdog?_setWatchdog] at hid
    split at hid
    · cases hid
    · exact hid
  | interval n | fire n => exact hid

lemma renews_dropTrickle (n : Nat) (m : Memory K U) : m.Renews [] (m.setTrickle n none) := by
  refine .of_nil (fun e id hid => Or.inl ?_) (Nat.le_refl _) (by simp [setTrickle])
  cases e with
  | expiry v => exact hid
  | interval k | fire k =>
    rw [handle?, trickle?_setTrickle] at hid
    split at hid
    · cases hid
    · exact hid

lemma renews_newWatchdog (k : K) (m : Memory K U) :
    m.Renews [] { m with watchdogs := m.watchdogs.push (some (.create k)) } := by
  refine .of_nil (fun e id hid => ?_) (by simp) (Nat.le_refl _)
  cases e with
  | expiry w =>
    simp only [handle?, watchdog?, Array.getElem?_push] at hid
    split at hid
    · next hw =>
      right
      exact ⟨fun hlt => Nat.lt_irrefl _ (hw ▸ hlt), (Option.some.inj hid).symm⟩
    · exact Or.inl hid
  | interval n | fire n => exact Or.inl hid

lemma renews_newTrickle {d : Trickle K} (hinterval : d.intervalEvent = .detached)
    (hfire : d.fireEvent = .detached) (m : Memory K U) :
    m.Renews [] { m with trickles := m.trickles.push (some d) } := by
  refine .of_nil (fun e id hid => ?_) (Nat.le_refl _) (by simp)
  cases e with
  | expiry w => exact Or.inl hid
  | interval n | fire n =>
    simp only [handle?, trickle?, Array.getElem?_push] at hid
    split at hid
    · next hn =>
      right
      exact ⟨fun hlt => Nat.lt_irrefl _ (hn ▸ hlt), by
        rw [← Option.some.inj hid]
        assumption⟩
    · exact Or.inl hid

end Memory

/-! ### The turns of frames -/

/-- Whether a frame does something for the timer that schedules certain events. -/
def Frame.serves (e : TimerEvent) : Frame K U → Bool
  | .exec (.ask (.watchdog w _) _) | .task (.watchdog w) => e = .expiry w
  | .exec (.ask (.trickle n _) _) | .task (.trickleInterval n) | .task (.trickleFire n) =>
    e = .interval n ∨ e = .fire n
  | _ => false

section

variable {m : Memory K U} {w n : Nat}

lemma SimRequest.confined_turns (r : SimRequest K) (hs : s.Sound) :
    Confined Task.IsPlain (fun _ => True) (r.turns s) := by
  have hplain : ∀ {k : K} (task : Task K), task = .user k → task.IsPlain := by
    rintro k _ rfl
    trivial
  have hstop : ∀ task : Task K, task = .stop → task.IsPlain := by
    rintro _ rfl
    trivial
  cases r with
  | schedule delay k => exact (hs.confined_scheduleWith _ _ _).mono hplain fun _ => id
  | scheduleNow k => exact (hs.confined_scheduleWith _ _ _).mono hplain fun _ => id
  | scheduleWith context delay k =>
    exact (hs.confined_scheduleWith _ _ _).mono hplain fun _ => id
  | scheduleDestroy k => exact (hs.confined_scheduleDestroy _).mono hplain fun _ => id
  | stopAfter delay => exact (hs.confined_scheduleWith _ _ _).mono hstop fun _ => id
  | cancel id => exact (Simulator.confined_cancelTurns id s).mono (fun _ h => h) fun _ _ => trivial
  | remove id => exact (Simulator.confined_removeTurns id s).mono (fun _ h => h) fun _ _ => trivial
  | isExpired | delayLeft | identity | now | context | phase | eventCount | pendingEvents
  | isFinished | stop | kind | setScheduler | sync | boundLookahead | observe | describe =>
    exact confined_nil

lemma WatchdogRequest.confined_turns (hs : s.Sound) (r : WatchdogRequest K) (d : Watchdog K) :
    Confined (· = .watchdog w) (· = d.event) (r.turns w d s) := by
  cases r with
  | ping delay => exact Watchdog.confined_pingTurns hs w delay d
  | setFunction | cancel | info => exact confined_nil

lemma TrickleRequest.confined_turns (hs : s.Sound) (r : TrickleRequest K) (d : Trickle K) :
    Confined (Trickle.OwnTask n) d.OwnEvent (r.turns n d s) := by
  cases r with
  | enable => exact Trickle.confined_beginTurns hs n d.drawn
  | reset => exact Trickle.confined_resetTurns hs n d
  | inconsistent => exact Trickle.confined_inconsistentTurns hs n d
  | stop => exact Trickle.confined_stopTurns d s
  | setFunction | consistent | info => exact confined_nil

lemma confined_flatMap {α : Type} {P : Task K → Prop} {Q : EventId → Prop} {l : List α}
    {g : α → List (Turn K)} (h : ∀ a ∈ l, Confined P Q (g a)) : Confined P Q (l.flatMap g) := by
  intro x hx
  obtain ⟨a, ha, hx⟩ := List.mem_flatMap.mp hx
  exact h a ha x hx

/-- A step that serves a timer schedules events of this timer, and otherwise concerns only events
that the timer keeps handles of. -/
lemma Frame.confined_of_serves (hs : s.Sound) {e : TimerEvent} {f : Frame K U} (hf : f.serves e) :
    Confined (fun task => ∃ e, f.serves e ∧ task = e.task)
      (fun id => ∃ e, f.serves e ∧ m.handle? e = some id) (f.turns s m) := by
  -- how the turns of one timer make up those of the frame
  have hwatchdog : ∀ {w} {g : Watchdog K → List (Turn K)},
      (∀ d, Confined (· = .watchdog w) (· = d.event) (g d)) → f.serves (.expiry w) →
      Confined (fun task => ∃ e, f.serves e ∧ task = e.task)
        (fun id => ∃ e, f.serves e ∧ m.handle? e = some id)
        ((m.watchdog? w).toList.flatMap g) := by
    intro w g hg hserves
    refine confined_flatMap fun d hd => (hg d).mono ?_ ?_
    · exact fun task htask => ⟨_, hserves, htask⟩
    · rintro _ rfl
      exact ⟨_, hserves, by rw [Memory.handle?, Option.mem_toList.mp hd]; rfl⟩
  have htrickle : ∀ {n} {g : Trickle K → List (Turn K)},
      (∀ d, Confined (Trickle.OwnTask n) d.OwnEvent (g d)) →
      f.serves (.interval n) → f.serves (.fire n) →
      Confined (fun task => ∃ e, f.serves e ∧ task = e.task)
        (fun id => ∃ e, f.serves e ∧ m.handle? e = some id)
        ((m.trickle? n).toList.flatMap g) := by
    intro n g hg hinterval hfire
    refine confined_flatMap fun d hd => (hg d).mono ?_ ?_
    · rintro task (htask | htask)
      · exact ⟨_, hinterval, htask⟩
      · exact ⟨_, hfire, htask⟩
    · rintro _ (rfl | rfl)
      · exact ⟨_, hinterval, by rw [Memory.handle?, Option.mem_toList.mp hd]; rfl⟩
      · exact ⟨_, hfire, by rw [Memory.handle?, Option.mem_toList.mp hd]; rfl⟩
  cases f with
  | exec p =>
    cases p with
    | ask r next =>
      cases r with
      | watchdog w r =>
        exact hwatchdog (fun d => r.confined_turns hs d) (by simp [Frame.serves])
      | trickle n r =>
        exact htrickle (fun d => r.confined_turns hs d) (by simp [Frame.serves])
          (by simp [Frame.serves])
      | _ => cases hf
    | _ => cases hf
  | task task =>
    cases task with
    | watchdog w =>
      exact hwatchdog (fun d => d.confined_expireTurns hs w) (by simp [Frame.serves])
    | trickleInterval n =>
      exact htrickle (fun d => Trickle.confined_beginTurns hs n _) (by simp [Frame.serves])
        (by simp [Frame.serves])
    | trickleFire n => exact confined_nil
    | user | stop => cases hf
  | _ => cases hf

/-- A step that serves no timer schedules no events of timers. -/
lemma Frame.confined_of_not_serves (hs : s.Sound) (h : s.Timely keys) (huser : s.HoldsUserCode)
    {f : Frame K U} (hf : ∀ e, f.serves e = false) :
    Confined Task.IsPlain (fun _ => True) (f.turns s m) := by
  cases f with
  | exec p =>
    cases p with
    | ask r next =>
      cases r with
      | sim r => exact r.confined_turns hs
      | watchdog w r => simpa [Frame.serves] using hf (.expiry w)
      | trickle n r => simpa [Frame.serves] using hf (.interval n)
      | inbox | newWatchdog | dropWatchdog | newTrickle | dropTrickle | load | update =>
        exact confined_nil
    | done | perform | run | destroy => exact confined_nil
  | task task =>
    cases task with
    | watchdog w => simpa [Frame.serves] using hf (.expiry w)
    | trickleInterval n | trickleFire n => simpa [Frame.serves] using hf (.interval n)
    | user | stop => exact confined_nil
  | loop =>
    refine (h.confined_drainTurns hs huser).mono ?_ fun _ hid => hid
    rintro _ ⟨k, rfl⟩
    trivial
  | next =>
    intro x hx
    obtain ⟨⟨id, ev⟩, -, hx⟩ := List.mem_flatMap.mp hx
    exact Or.inr ⟨(Simulator.of_mem_takeTurn hx).2, trivial⟩
  | teardown => exact (Simulator.confined_teardownTurns s).mono (fun _ h => h) fun _ _ => trivial
  | clear => exact Simulator.confined_dropTurns s
  | restore | rearmWatchdog | rearmTrickle | close => exact confined_nil

/-- Events of timers are scheduled for the timers that are served. -/
lemma Frame.serves_of_issued (hs : s.Sound) (h : s.Timely keys) (huser : s.HoldsUserCode)
    {f : Frame K U} {x : Turn K} (hx : x ∈ f.turns s m) (hissued : x.fate = .issued)
    {e : TimerEvent} (htask : x.event.task = e.task) : f.serves e := by
  by_cases hf : ∃ e', f.serves e'
  · obtain ⟨e', he'⟩ := hf
    obtain ⟨e'', hserves, htask'⟩ := (Frame.confined_of_serves hs he').of_issued hx hissued
    have heq : some e = some e'' := by
      rw [← e.timerEvent?_task (K := K), ← htask, htask', TimerEvent.timerEvent?_task]
    rwa [Option.some.inj heq]
  · have hplain := (Frame.confined_of_not_serves (m := m) hs h huser
      fun e => Bool.eq_false_iff.mpr fun he => hf ⟨e, he⟩).of_issued hx hissued
    exact absurd htask (hplain.ne_timerEvent e)

lemma Frame.serves_of_issuedFor (hs : s.Sound) (h : s.Timely keys) (huser : s.HoldsUserCode)
    {f : Frame K U} {e : TimerEvent} (hne : issuedFor e (f.turns s m) ≠ []) : f.serves e := by
  obtain ⟨id, hid⟩ := List.exists_mem_of_ne_nil _ hne
  obtain ⟨x, hx, hissued, htask, -⟩ := mem_issuedFor.mp hid
  exact Frame.serves_of_issued hs h huser hx hissued htask

end

/-! ### Steps -/

section

variable {m : Memory K U}

lemma Watchdog.event_apply (hs : s.Sound) (w : Nat) (r : WatchdogRequest K) (d : Watchdog K) :
    (r.apply w d s).2.1.event = renewed (issuedFor (.expiry w) (r.turns w d s)) d.event := by
  cases r with
  | ping delay => exact event_ping hs delay d
  | setFunction | cancel | info => rfl

lemma Trickle.renewed_apply (hs : s.Sound) (n : Nat) (r : TrickleRequest K) (d : Trickle K) :
    Renewed n (r.turns n d s) d (r.apply n d s).2.1 := by
  cases r with
  | enable =>
    obtain ⟨hinterval, hfire⟩ := renewed_beginInterval (n := n) hs d.drawn
    exact ⟨hinterval, hfire⟩
  | reset => exact renewed_reset hs d
  | inconsistent =>
    rw [TrickleRequest.apply, TrickleRequest.turns, inconsistent, inconsistentTurns]
    split
    · exact renewed_reset hs d
    · exact ⟨rfl, rfl⟩
  | stop =>
    constructor
    · rw [TrickleRequest.turns, issuedFor_stopTurns]
      rfl
    · rw [TrickleRequest.turns, issuedFor_stopTurns]
      rfl
  | setFunction | consistent | info => exact ⟨rfl, rfl⟩

lemma Request.renews_apply (hs : s.Sound) (h : s.Timely keys) (huser : s.HoldsUserCode)
    (r : Request K U) (next : r.Reply → Program K U PUnit) :
    m.Renews ((Frame.exec (.ask r next)).turns s m) (r.apply s m).2.2 := by
  have hserves : ∀ e, issuedFor e ((Frame.exec (.ask r next)).turns s m) ≠ [] →
      (Frame.exec (.ask r next)).serves e := fun e => Frame.serves_of_issuedFor hs h huser
  cases r with
  | sim r =>
    refine .of_eq (fun e => not_not.mp fun hne => ?_) rfl rfl
    exact absurd (hserves e hne) Bool.noConfusion
  | inbox target r =>
    refine .of_eq (fun e => rfl) ?_ ?_
    · show (m.askInbox target r s).2.2.watchdogs = m.watchdogs
      rw [(m.askInbox_unchanged target r s).2]
    · show (m.askInbox target r s).2.2.trickles = m.trickles
      rw [(m.askInbox_unchanged target r s).2]
  | newWatchdog k => exact m.renews_newWatchdog k
  | dropWatchdog w => exact m.renews_dropWatchdog w
  | newTrickle => exact Memory.renews_newTrickle rfl rfl m
  | dropTrickle n => exact m.renews_dropTrickle n
  | load | update => exact .of_eq (fun e => rfl) rfl rfl
  | watchdog w r =>
    rw [Frame.turns, turns] at hserves ⊢
    rw [apply]
    cases hd : m.watchdog? w with
    | none => exact .of_eq (fun e => rfl) rfl rfl
    | some d =>
      rw [hd, Option.toList_some, List.flatMap_singleton] at hserves
      rw [Option.toList_some, List.flatMap_singleton]
      refine .setWatchdog hd (Watchdog.event_apply hs w r d) fun e hne => ?_
      exact of_decide_eq_true (hserves e hne)
  | trickle n r =>
    rw [Frame.turns, turns] at hserves ⊢
    rw [apply]
    cases hd : m.trickle? n with
    | none => exact .of_eq (fun e => rfl) rfl rfl
    | some d =>
      rw [hd, Option.toList_some, List.flatMap_singleton] at hserves
      rw [Option.toList_some, List.flatMap_singleton]
      refine .setTrickle hd (Trickle.renewed_apply hs n r d) fun e hne => ?_
      exact of_decide_eq_true (hserves e hne)

namespace Machine

lemma renews_start (code : Code K U) (hs : s.Sound) (h : s.Timely keys) (huser : s.HoldsUserCode)
    (task : Task K) (rest : List (Frame K U)) :
    m.Renews (task.turns s m) (start code task s m rest).memory := by
  have hserves : ∀ e, issuedFor e (task.turns s m) ≠ [] → (Frame.task task : Frame K U).serves e :=
    fun e => Frame.serves_of_issuedFor (f := .task task) hs h huser
  cases task with
  | user | stop => exact .of_eq (fun e => rfl) rfl rfl
  | watchdog w =>
    rw [Task.turns] at hserves ⊢
    rw [start]
    cases hd : m.watchdog? w with
    | none => exact .of_eq (fun e => rfl) rfl rfl
    | some d =>
      rw [hd, Option.toList_some, List.flatMap_singleton] at hserves
      rw [Option.toList_some, List.flatMap_singleton]
      have hevent := Watchdog.event_expire (w := w) hs d
      have hrenews : m.Renews (d.expireTurns w s) (m.setWatchdog w (some (d.expire w s).2.1)) :=
        .setWatchdog hd hevent fun e hne => of_decide_eq_true (hserves e hne)
      dsimp only
      split
      · next hexpire => rwa [hexpire] at hrenews
      · next hexpire => rwa [hexpire] at hrenews
  | trickleInterval n =>
    rw [Task.turns] at hserves ⊢
    rw [start]
    cases hd : m.trickle? n with
    | none => exact .of_eq (fun e => rfl) rfl rfl
    | some d =>
      rw [hd, Option.toList_some, List.flatMap_singleton] at hserves
      rw [Option.toList_some, List.flatMap_singleton]
      exact .setTrickle hd (Trickle.renewed_endInterval hs d) fun e hne =>
        of_decide_eq_true (hserves e hne)
  | trickleFire n =>
    rw [Task.turns, start]
    cases hd : m.trickle? n with
    | none => exact .of_eq (fun e => rfl) rfl rfl
    | some d =>
      have hrenews : m.Renews [] (m.setTrickle n (some d.fire.2)) := by
        refine .setTrickle hd ?_ fun e hne => absurd rfl hne
        rw [Trickle.fire]
        split <;> exact ⟨rfl, rfl⟩
      dsimp only
      split
      · next hfire => rwa [hfire] at hrenews
      · next hfire => rwa [hfire] at hrenews

/-- Each step keeps the handles that are issued last. -/
lemma renews_stepFrame (code : Code K U) (hs : s.Sound) (h : s.Timely keys)
    (huser : s.HoldsUserCode) (f : Frame K U) (rest : List (Frame K U)) :
    m.Renews (f.turns s m) (stepFrame code f s m rest).memory := by
  have hplain : (∀ e, f.serves e = false) → ∀ e, issuedFor e (f.turns s m) = [] := by
    intro hf e
    refine (Frame.confined_of_not_serves hs h huser hf).issuedFor_eq_nil fun hplain => ?_
    exact hplain.ne_timerEvent e rfl
  cases f with
  | exec p =>
    cases p with
    | ask r next => exact r.renews_apply hs h huser next
    | done | perform => exact .of_eq (fun e => rfl) rfl rfl
    | run | destroy =>
      rw [stepFrame, exec]
      split <;> exact .of_eq (fun e => rfl) rfl rfl
  | task task => exact renews_start code hs h huser task rest
  | next =>
    have hround := round_takeNext code m rest h.consistent h.now_le
    have hnil := hplain fun e => rfl
    rw [stepFrame]
    generalize takeNext code s m rest = b at hround ⊢
    cases hround with
    | finish | pass => exact .of_eq hnil rfl rfl
    | start =>
      refine .of_eq hnil ?_ ?_
      all_goals rw [(launch_unchanged ..).2]
  | teardown =>
    have hnil := hplain fun e => rfl
    rw [stepFrame, nextTeardown]
    dsimp only
    split <;> exact .of_eq hnil rfl rfl
  | rearmWatchdog w k =>
    rw [stepFrame]
    cases hd : m.watchdog? w with
    | none => exact m.renews_dropWatchdog w
    | some d => exact .setWatchdog hd rfl fun e hne => absurd rfl hne
  | rearmTrickle n k =>
    rw [stepFrame]
    cases hd : m.trickle? n with
    | none => exact m.renews_dropTrickle n
    | some d => exact .setTrickle hd ⟨rfl, rfl⟩ fun e hne => absurd rfl hne
  | loop | restore | close | clear => exact .of_eq (hplain fun e => rfl) rfl rfl

end Machine

end

end EventKernel
