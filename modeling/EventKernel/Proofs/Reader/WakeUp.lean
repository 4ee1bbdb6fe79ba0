import EventKernel.Proofs.Reader.Delivery
import EventKernel.Proofs.Reader.Stop

/-!
# Waking the thread

A call of `stop` raises the stop flag and then writes into the wake-pipe, while the thread empties
its wake-pipe and then looks at the flag. In this order no byte is lost: a byte that is swallowed is
swallowed by a thread that sees the flag. So a thread that is to wait with the flag up has a byte to
find, or a call of `stop` is about to write one, and the call that joins the thread is not such a
call any more.

From then on each step of the thread brings it closer to its end.
-/

namespace EventKernel

open Reader (Proceeds StopMoves)

variable {E : Type}

namespace ThreadStage

/-- Whether the thread comes to wait before it looks at the stop flag. -/
def comesToWait : ThreadStage E → Bool
  | polling | waiting | reading | calling _ => true
  | woken _ _ | checking _ | leaving _ | ended => false

def isReading : ThreadStage E → Bool
  | reading => true
  | _ => false

/-- The number of steps to the end of a thread that delivers nothing and sees the stop flag. -/
def stepsLeft : ThreadStage E → Nat
  | polling | reading | calling _ => 5
  | waiting => 4
  | woken _ _ => 3
  | checking _ => 2
  | leaving _ => 1
  | ended => 0

lemma comesToWait_of_isEnded {stage : ThreadStage E} (h : stage.isEnded = true) :
    stage.comesToWait = false := by
  cases stage with
  | ended => rfl
  | _ => cases h

lemma isReading_of_isDelivering {stage : ThreadStage E} (h : stage.isDelivering = false) :
    stage.isReading = false := by
  cases stage with
  | reading => cases h
  | _ => rfl

lemma stepsLeft_le (stage : ThreadStage E) : stage.stepsLeft ≤ 5 := by
  cases stage with
  | polling | reading | calling => exact Nat.le_refl 5
  | waiting | woken | checking | leaving | ended => exact Nat.le_of_ble_eq_true rfl

lemma stepsLeft_pos {stage : ThreadStage E} (h : stage.isEnded = false) : 0 < stage.stepsLeft := by
  cases stage with
  | ended => cases h
  | _ => exact Nat.succ_pos _

/-- A thread that does not deliver does not invoke the callback, now or next. -/
lemma not_invoking {stage stage' : ThreadStage E} (h : stage'.isDelivering = false) (n : Nat) :
    (!stage.isCalling && stage'.isCalling).toNat + stage'.isReading.toNat ≤ n := by
  have hcalling : stage'.isCalling = false := by
    cases stage' with
    | calling => cases h
    | _ => rfl
  rw [hcalling, isReading_of_isDelivering h, Bool.and_false]
  exact Nat.zero_le n

end ThreadStage

lemma WakePipe.pending_wake {w : WakePipe} (h : w.writable = true) :
    w.wake.pending = w.pending + 1 := by
  rw [wake, if_pos h]

lemma WakePipe.pending_le_wake (w : WakePipe) : w.pending ≤ w.wake.pending := by
  rw [wake]
  split
  · exact Nat.le_succ _
  · exact Nat.le_refl _

lemma WakePipe.writable_wake (w : WakePipe) : w.wake.writable = w.writable := by
  rw [wake]
  split <;> rfl

lemma WakePipe.writable_drain (w : WakePipe) : w.drain.2.writable = w.writable := by
  rw [drain]
  split <;> rfl

lemma WakePipe.isReady_of_pending {w : WakePipe} (h : 0 < w.pending) : w.isReady = true := by
  rw [isReady, decide_eq_true h, Bool.true_or]

/-! ### The thread and the flag -/

namespace Reader

variable {limit : Nat} {r : Reader E} {t t' : ReaderThread E} {d d' : Descriptor} {flag : Bool}
  {exit : Option ReaderExit}

lemma Proceeds.writable (h : Proceeds limit r t d t' flag exit d') :
    t'.wakePipe.writable = t.wakePipe.writable := by
  cases h with
  | drain | crash => exact t.wakePipe.writable_drain
  | stop hstage hfree hwake =>
    rcases hwake with rfl | rfl
    · rfl
    · exact t.wakePipe.writable_wake
  | _ => rfl

/-- A thread does not lose what wakes it: it empties its wake-pipe only before it looks at the flag,
and goes on only if the flag is down. -/
lemma Proceeds.alerted (h : Proceeds limit r t d t' flag exit d') (hexit : r.exit = none)
    (hwritable : t.wakePipe.writable = true) {P : Prop}
    (halert : r.stopFlag = true → t.stage.comesToWait = true → 0 < t.wakePipe.pending ∨ P)
    (hflag : flag = true) (hahead : t'.stage.comesToWait = true) :
    0 < t'.wakePipe.pending ∨ P := by
  cases h with
  | barred | wake | pass | drain | crash | observe | reject | panic | leave => cases hahead
  | again hstage hlow | ready hstage hlow =>
    rw [hflag] at hlow
    cases hlow
  | wait hstage | read hstage | finish hstage | effect hstage =>
    exact halert hflag (by rw [hstage]; rfl)
  | stop hstage hfree hwake hor hboth =>
    rcases hboth with rfl | rfl | hknown
    · rcases halert hflag (by rw [hstage]; rfl) with hpending | hP
      · rcases hwake with rfl | rfl
        · exact Or.inl hpending
        · exact Or.inl (t.wakePipe.pending_wake hwritable ▸ Nat.succ_pos _)
      · exact Or.inr hP
    · exact Or.inl (t.wakePipe.pending_wake hwritable ▸ Nat.succ_pos _)
    · rw [hexit] at hknown
      cases hknown

/-- What a thread that waits comes to. -/
lemma Proceeds.of_waiting (h : Proceeds limit r t d t' flag exit d')
    (hwaiting : t.stage = .waiting) :
    t' = { t with stage := .woken d.readiness t.wakePipe.isReady } := by
  cases h with
  | wake => rfl
  | wait hstage | barred hstage | pass hstage | drain hstage | crash hstage | observe hstage
  | reject hstage | again hstage | ready hstage | read hstage | finish hstage | effect hstage
  | stop hstage | panic hstage | leave hstage =>
    rw [hwaiting] at hstage
    cases hstage

end Reader

namespace SharedReader

variable {a b : SharedReader E}

/-- The flag is not up without the thread being woken: the thread finds a byte when it waits, or a
call of `stop` is about to write one. -/
structure Roused (a : SharedReader E) : Prop where
  /-- The exit that is known is that of the thread. -/
  exit : ∀ t, a.reader.thread = some t → a.reader.exit.isSome = true → t.stage.isEnded = true
  cleared : ∀ c ∈ a.starts, c.stage = .cleared → a.reader.exit = none
  /-- A new thread finds the flag down. -/
  lowered : ∀ c ∈ a.starts, c.stage = .lowered ∨ c.stage = .cleared → a.reader.stopFlag = false
  writable : ∀ t, a.reader.thread = some t → t.wakePipe.writable = true
  alerted : ∀ t, a.reader.thread = some t → a.reader.stopFlag = true →
    t.stage.comesToWait = true → 0 < t.wakePipe.pending ∨ .raised ∈ a.reader.stops

lemma roused_idle (bufferSize : Nat) (descriptors : String → Descriptor) :
    (idle bufferSize descriptors : SharedReader E).Roused where
  exit t ht := by cases ht
  cleared c hc := by cases hc
  lowered c hc := by cases hc
  writable t ht := by cases ht
  alerted t ht := by cases ht

/-- Nothing happens to the thread, the flag and the exit, and no call of `stop` wakes the thread. -/
lemma Roused.congr (h : a.Roused) (hthread : b.reader.thread = a.reader.thread)
    (hexit : b.reader.exit = a.reader.exit) (hflag : b.reader.stopFlag = a.reader.stopFlag)
    (hstops : .raised ∈ a.reader.stops → .raised ∈ b.reader.stops)
    (hstarts : ∀ c ∈ b.starts, c.stage = .lowered ∨ c.stage = .cleared → c ∈ a.starts) :
    b.Roused where
  exit t ht hknown := h.exit t (hthread ▸ ht) (hexit ▸ hknown)
  cleared c hc hstage := hexit ▸ h.cleared c (hstarts c hc (Or.inr hstage)) hstage
  lowered c hc hstage := hflag ▸ h.lowered c (hstarts c hc hstage) hstage
  writable t ht := h.writable t (hthread ▸ ht)
  alerted t ht hraised hahead :=
    (h.alerted t (hthread ▸ ht) (hflag ▸ hraised) hahead).imp id hstops

/-- A call of `start` that is about to make a thread has the lock. -/
lemma Lawful.locked_of_lowered (h : a.Lawful) {c : StartCall E} (hc : c ∈ a.starts)
    (hstage : c.stage = .lowered ∨ c.stage = .cleared) : a.reader.locked = true := by
  refine (h.idle_of_start hc ?_).1
  rcases hstage with hstage | hstage
  all_goals
    rw [hstage]
    rfl

lemma Roused.stop (h : a.Roused) (hlaw : a.Lawful) {i : Nat} {stage stage' : StopStage}
    {r : Reader E} (hi : a.reader.stops[i]? = some stage)
    (hmoves : StopMoves a.reader stage stage' r) (former : List (ReaderThread E)) :
    Roused { a with reader := { r with stops := r.stops.set i stage' }, former } := by
  have hmem := List.mem_of_getElem? hi
  have hkeep : stage ≠ .raised → .raised ∈ a.reader.stops → .raised ∈ a.reader.stops.set i stage' :=
    fun hne hraised => (mem_or_eq_of_getElem? hi hraised stage').resolve_left hne.symm
  cases hmoves with
  | pass | claim => exact h.congr rfl rfl rfl (hkeep StopStage.noConfusion) fun c hc _ => hc
  | raise hfree =>
    refine ⟨h.exit, h.cleared, fun c hc hstage => ?_, h.writable, fun t ht hraised hahead => ?_⟩
    · rw [hlaw.locked_of_lowered hc hstage] at hfree
      cases hfree
    · exact Or.inr (List.mem_set (List.getElem?_eq_some_iff.mp hi).1 _)
  | wake =>
    rw [Reader.wake]
    split
    · next hknown =>
      -- the thread has ended, so it does not wait
      refine ⟨h.exit, h.cleared, h.lowered, h.writable, fun t ht hraised hahead => ?_⟩
      rw [ThreadStage.comesToWait_of_isEnded (h.exit t ht hknown)] at hahead
      cases hahead
    · refine ⟨fun t' ht' hknown => ?_, h.cleared, h.lowered, fun t' ht' => ?_,
        fun t' ht' hraised hahead => ?_⟩
      all_goals
        obtain ⟨t, ht, rfl⟩ := Option.map_eq_some_iff.mp ht'
        have hwritable := h.writable t ht
      · exact h.exit t ht hknown
      · exact t.wakePipe.writable_wake.trans hwritable
      · exact Or.inl (t.wakePipe.pending_wake hwritable ▸ Nat.succ_pos _)
  | join hended =>
    refine ⟨fun t' ht' hknown => ?_, h.cleared, h.lowered, fun t' ht' => ?_,
      fun t' ht' hraised hahead => ?_⟩
    all_goals obtain ⟨t, ht, rfl⟩ := Option.map_eq_some_iff.mp ht'
    · exact h.exit t ht hknown
    · exact h.writable t ht
    · exact (h.alerted t ht hraised hahead).imp id (hkeep StopStage.noConfusion)
  | settle =>
    refine ⟨fun t ht => ?_, h.cleared, fun _ _ _ => rfl, fun t ht => ?_, fun t ht => ?_⟩
    all_goals cases ht

lemma Roused.start (h : a.Roused) {j : Nat} {c : StartCall E} {stage : StartStage}
    (hj : a.starts[j]? = some c) (hmoves : StartMoves c.plan a c.stage stage b) :
    Roused { b with starts := a.starts.set j { c with stage } } := by
  have hmem := List.mem_of_getElem? hj
  have hold : ∀ x ∈ a.starts.set j { c with stage },
      x = { c with stage } ∨ x ∈ a.starts := fun x hx => (List.mem_or_eq_of_mem_set hx).symm
  have hsame : stage ≠ .lowered → stage ≠ .cleared →
      ∀ x ∈ a.starts.set j { c with stage }, x.stage = .lowered ∨ x.stage = .cleared →
      x ∈ a.starts := by
    intro hlowered hcleared x hx hstage
    rcases hold x hx with rfl | hx
    · rcases hstage with hstage | hstage
      · exact absurd hstage hlowered
      · exact absurd hstage hcleared
    · exact hx
  obtain ⟨plan, before⟩ := c
  cases hmoves with
  | refuse | enter | deny | register | fail | publish =>
    exact h.congr rfl rfl rfl id (hsame StartStage.noConfusion StartStage.noConfusion)
  | lower =>
    refine ⟨h.exit, fun x hx hstage => ?_, fun _ _ _ => rfl, h.writable, fun t ht hraised => ?_⟩
    · rcases hold x hx with rfl | hx
      · cases hstage
      · exact h.cleared x hx hstage
    · cases hraised
  | clear =>
    have hlow := h.lowered _ hmem (Or.inl rfl)
    refine ⟨fun t ht hknown => ?_, fun _ _ _ => rfl, fun _ _ _ => hlow, h.writable, h.alerted⟩
    cases hknown
  | launch =>
    have hlow := h.lowered _ hmem (Or.inr rfl)
    have hnone := h.cleared _ hmem rfl
    refine ⟨fun t ht hknown => ?_, fun _ _ _ => hnone, fun _ _ _ => hlow, fun t ht => ?_,
      fun t ht hraised => ?_⟩
    · exact (Option.not_isSome_iff_eq_none.mpr hnone hknown).elim
    · cases ht
      rfl
    · exact Bool.noConfusion (hlow.symm.trans hraised)

/-- The exit is known behind the end of the thread only, so a thread that makes a step does not find
it. -/
lemma Roused.exit_eq_none (h : a.Roused) {t : ReaderThread E} (ht : a.reader.thread = some t)
    (hended : t.stage.isEnded = false) : a.reader.exit = none := by
  rw [← Option.not_isSome_iff_eq_none]
  intro hknown
  rw [h.exit t ht hknown] at hended
  cases hended

lemma Roused.thread (h : a.Roused) (hlaw : a.Lawful) {limit : Nat} {t t' : ReaderThread E}
    {flag : Bool} {exit : Option ReaderExit} {d d' : Descriptor} (ht : a.reader.thread = some t)
    (hproceeds : Proceeds limit a.reader t d t' flag exit d')
    (descriptors : String → Descriptor) :
    Roused { a with
      reader := { a.reader with thread := some t', stopFlag := flag, exit := exit }
      descriptors } := by
  have hended := hproceeds.stage.1
  have hnone := h.exit_eq_none ht hended
  -- no thread is made before the one before has ended, and this one has not
  have hstarts : ∀ c ∈ a.starts, c.stage = .lowered ∨ c.stage = .cleared → False := by
    intro c hc hstage
    have hdone := hlaw.reaped.threadEnded_of_start hlaw.balanced hc
      (by rcases hstage with hstage | hstage <;> (rw [hstage]; rfl))
      (by rcases hstage with hstage | hstage <;> (rw [hstage]; exact StartStage.noConfusion))
    rw [Reader.threadEnded_eq_true_iff.mp hdone t ht] at hended
    cases hended
  refine ⟨fun u hu hknown => ?_, fun c hc hstage => (hstarts c hc (Or.inr hstage)).elim,
    fun c hc hstage => (hstarts c hc hstage).elim, fun u hu => ?_, fun u hu hraised hahead => ?_⟩
  all_goals cases hu
  · cases hproceeds with
    | leave => rfl
    | _ => exact (Option.not_isSome_iff_eq_none.mpr hnone hknown).elim
  · exact hproceeds.writable.trans (h.writable t ht)
  · exact hproceeds.alerted hnone (h.writable t ht) (h.alerted t ht) hraised hahead

lemma Roused.outcome (h : a.Roused) (hlaw : a.Lawful) {x : Action E} (ho : Outcome a x b) :
    b.Roused := by
  cases ho with
  | idle | openGate | write | close => exact h.congr rfl rfl rfl id fun c hc _ => hc
  | callStop =>
    exact h.congr rfl rfl rfl (List.mem_append_left _) fun c hc _ => hc
  | callStart plan =>
    refine h.congr rfl rfl rfl id fun c hc hstage => ?_
    rcases List.mem_append.mp hc with hc | hc
    · exact hc
    · obtain rfl := List.mem_singleton.mp hc
      rcases hstage with hstage | hstage <;> cases hstage
  | stop hi hmoves => exact h.stop hlaw hi hmoves _
  | start hj hmoves => exact h.start hj hmoves
  | thread ht hproceeds => exact h.thread hlaw ht hproceeds _
  | @interrupt t ht hstage =>
    refine ⟨fun u hu hknown => ?_, h.cleared, h.lowered, fun u hu => ?_,
      fun u hu hraised hahead => ?_⟩
    all_goals cases hu
    · have hended := h.exit t ht hknown
      rw [hstage] at hended
      cases hended
    · exact h.writable t ht
    · exact h.alerted t ht hraised (by rw [hstage]; rfl)

lemma roused_play (bufferSize : Nat) (descriptors : String → Descriptor)
    (acts : List (Action E)) : (play acts (idle bufferSize descriptors)).Roused := by
  suffices ∀ a : SharedReader E, a.Lawful → a.Roused → (play acts a).Roused from
    this _ (lawful_idle bufferSize descriptors) (roused_idle bufferSize descriptors)
  induction acts with
  | nil => exact fun _ _ h => h
  | cons x acts ih =>
    exact fun a hlaw h => ih _ (hlaw.outcome (a.outcome_act x)) (h.outcome hlaw (a.outcome_act x))

/-! ### A thread that is to end -/

namespace Action

def isThread : Action E → Bool
  | thread .. => true
  | _ => false

def isInterrupt : Action E → Bool
  | interrupt => true
  | _ => false

end Action

/-- Whether the `n`-th thread runs the callback. -/
def isCalling (n : Nat) (a : SharedReader E) : Bool := (a.threads[n]?).any (·.stage.isCalling)

/-- How often the `n`-th thread invokes the callback in the course of actions. -/
def invocations (n : Nat) : List (Action E) → SharedReader E → Nat
  | [], _ => 0
  | x :: acts, a =>
    (!a.isCalling n && (a.act x).isCalling n).toNat + invocations n acts (a.act x)

lemma isCalling_eq {n : Nat} {t : ReaderThread E} (hn : a.threads[n]? = some t) :
    a.isCalling n = t.stage.isCalling := by
  rw [isCalling, hn, Option.any_some]

/-- The `n`-th thread is to end: the stop flag is up for as long as it lives. -/
structure Dismissed (a : SharedReader E) (n : Nat) (t : ReaderThread E) : Prop where
  thread : a.threads[n]? = some t
  flag : t.stage.isEnded = false → a.reader.stopFlag = true

/-- What an action comes to for a thread that is to end. -/
inductive Winds (a : SharedReader E) (t : ReaderThread E) : Action E → ReaderThread E → Prop where
  | gone {x : Action E} {t' : ReaderThread E} (hended : t.stage.isEnded = true)
      (hended' : t'.stage.isEnded = true) : Winds a t x t'
  | rest {x : Action E} {wakePipe : WakePipe} (hpending : t.wakePipe.pending ≤ wakePipe.pending) :
      Winds a t x { t with wakePipe }
  | step {limit : Nat} {pollForbidden : Bool} {t' : ReaderThread E} {flag : Bool}
      {exit : Option ReaderExit} {d d' : Descriptor} (ht : a.reader.thread = some t)
      (hflag : a.reader.stopFlag = true) (hproceeds : Proceeds limit a.reader t d t' flag exit d') :
      Winds a t (.thread limit pollForbidden) t'
  | interrupt (hstage : t.stage = .waiting) : Winds a t .interrupt { t with stage := .polling }

lemma Winds.refl {t : ReaderThread E} {x : Action E} : Winds a t x t := .rest (Nat.le_refl _)

/-- A thread that lives is the latest one. -/
lemma Dismissed.latest {n : Nat} {t : ReaderThread E} (h : a.Dismissed n t) (hlaw : a.Lawful)
    (halive : t.stage.isEnded = false) : n = a.former.length ∧ a.reader.thread = some t := by
  refine (getElem?_threads.mp h.thread).resolve_left fun hformer => ?_
  rw [hlaw.reaped.former t (List.mem_of_getElem? hformer)] at halive
  cases halive

lemma Dismissed.of_latest {n : Nat} {t : ReaderThread E} (hn : n = a.former.length)
    (ht : a.reader.thread = some t) (hflag : a.reader.stopFlag = true) : a.Dismissed n t :=
  ⟨getElem?_threads.mpr (Or.inr ⟨hn, ht⟩), fun _ => hflag⟩

/-- No call of `stop` lowers the flag before the thread has ended. -/
lemma Dismissed.stop {n : Nat} {t : ReaderThread E} (h : a.Dismissed n t) (hlaw : a.Lawful)
    (halive : t.stage.isEnded = false) {i : Nat} {stage stage' : StopStage} {r : Reader E}
    (hi : a.reader.stops[i]? = some stage) (hmoves : StopMoves a.reader stage stage' r)
    (x : Action E) :
    ∃ t', Dismissed { a with
        reader := { r with stops := r.stops.set i stage' }
        former := if r.thread.isNone then a.threads else a.former } n t' ∧ Winds a t x t' := by
  obtain ⟨hn, ht⟩ := h.latest hlaw halive
  have hflag := h.flag halive
  have hformer : ∀ r : Reader E, r.thread.isNone = a.reader.thread.isNone →
      n = (if r.thread.isNone then a.threads else a.former).length :=
    fun r hr => hn.trans (congrArg _ (former_of_isNone hr).symm)
  -- a thread that is joined has ended
  have hlive : a.reader.threadEnded ≠ true := by
    intro hended
    rw [Reader.threadEnded_eq_true_iff.mp hended t ht] at halive
    cases halive
  cases hmoves with
  | pass | claim => exact ⟨t, .of_latest (hformer _ rfl) ht hflag, .refl⟩
  | raise => exact ⟨t, .of_latest (hformer _ rfl) ht rfl, .refl⟩
  | wake =>
    rcases a.reader.wake_cases with heq | ⟨u, hu, heq⟩
    · rw [heq]
      exact ⟨t, .of_latest (hformer _ rfl) ht hflag, .refl⟩
    · obtain rfl := Option.some.inj (ht.symm.trans hu)
      rw [heq]
      have hnone : (some { t with wakePipe := t.wakePipe.wake }).isNone =
          a.reader.thread.isNone := by
        rw [ht]
        rfl
      exact ⟨_, .of_latest (hformer { a.reader with thread := some _ } hnone) rfl hflag,
        .rest t.wakePipe.pending_le_wake⟩
  | join hended => exact absurd hended hlive
  | settle => exact absurd (hlaw.reaped.joined (List.mem_of_getElem? hi)) hlive

/-- No call of `start` that has the lock comes upon a thread that lives. -/
lemma Dismissed.start {n : Nat} {t : ReaderThread E} (h : a.Dismissed n t) (hlaw : a.Lawful)
    (halive : t.stage.isEnded = false) {j : Nat} {c : StartCall E} {stage : StartStage}
    (hj : a.starts[j]? = some c) (hmoves : StartMoves c.plan a c.stage stage b) :
    Dismissed { b with starts := a.starts.set j { c with stage } } n t := by
  obtain ⟨hn, ht⟩ := h.latest hlaw halive
  have hflag := h.flag halive
  have hlive : c.stage.holdsLock = true → c.stage ≠ .spawned → False := by
    intro hlock hstage
    have hended := hlaw.reaped.threadEnded_of_start hlaw.balanced (List.mem_of_getElem? hj)
      hlock hstage
    rw [Reader.threadEnded_eq_true_iff.mp hended t ht] at halive
    cases halive
  obtain ⟨plan, before⟩ := c
  cases hmoves with
  | refuse | enter | publish => exact .of_latest hn ht hflag
  | deny | register | lower | clear | fail | launch =>
    exact (hlive rfl StartStage.noConfusion).elim

lemma Dismissed.outcome {n : Nat} {t : ReaderThread E} (h : a.Dismissed n t) (hlaw : a.Lawful)
    {x : Action E} (ho : Outcome a x b) : ∃ t', b.Dismissed n t' ∧ Winds a t x t' := by
  by_cases halive : t.stage.isEnded = true
  · obtain ⟨t', hn', hfollows⟩ := follows_outcome ho h.thread
    have hended := hfollows.ended halive
    refine ⟨t', ⟨hn', fun hnot => ?_⟩, .gone halive hended⟩
    rw [hended] at hnot
    cases hnot
  · rw [Bool.not_eq_true] at halive
    obtain ⟨hn, ht⟩ := h.latest hlaw halive
    have hflag := h.flag halive
    cases ho with
    | stop hi hmoves => exact h.stop hlaw halive hi hmoves _
    | start hj hmoves => exact ⟨t, h.start hlaw halive hj hmoves, .refl⟩
    | thread hu hproceeds =>
      obtain rfl := Option.some.inj (ht.symm.trans hu)
      exact ⟨_, .of_latest hn rfl (hproceeds.unchanged.2.2.2 hflag), .step ht hflag hproceeds⟩
    | interrupt hu hstage =>
      obtain rfl := Option.some.inj (ht.symm.trans hu)
      exact ⟨_, .of_latest hn rfl hflag, .interrupt hstage⟩
    | idle | callStop | callStart | openGate | write | close =>
      exact ⟨t, .of_latest hn ht hflag, .refl⟩

/-! ### The last invocation -/

/-- The thread invokes the callback only if it is about to read. -/
lemma Winds.isCalling {t t' : ReaderThread E} {x : Action E} (h : Winds a t x t') :
    (!t.stage.isCalling && t'.stage.isCalling).toNat + t'.stage.isReading.toNat ≤
      t.stage.isReading.toNat := by
  cases h with
  | gone hended hended' =>
    exact ThreadStage.not_invoking (ThreadStage.isDelivering_of_isEnded hended') _
  | rest =>
    exact Nat.le_of_eq (by rw [Bool.not_and_self, Bool.toNat_false, Nat.zero_add])
  | interrupt => exact ThreadStage.not_invoking rfl _
  | step ht hflag hproceeds =>
    cases hproceeds with
    | @read outcome buffer d' hstage hread =>
      rw [hstage]
      cases outcome with
      | data | skip | closed | failed => exact Nat.le_of_ble_eq_true rfl
    | ready hstage hlow =>
      rw [hflag] at hlow
      cases hlow
    | effect hstage | stop hstage =>
      rw [hstage]
      exact Nat.le_refl 0
    | wait | barred | wake | pass | drain | crash | observe | reject | again | finish | panic
    | leave => exact ThreadStage.not_invoking rfl _

lemma Dismissed.invocations_le {n : Nat} {t : ReaderThread E} (h : a.Dismissed n t)
    (hlaw : a.Lawful) (acts : List (Action E)) :
    invocations n acts a ≤ t.stage.isReading.toNat := by
  induction acts generalizing a t with
  | nil => exact Nat.zero_le _
  | cons x acts ih =>
    obtain ⟨t', h', hwinds⟩ := h.outcome hlaw (a.outcome_act x)
    have hlater := ih h' (hlaw.outcome (a.outcome_act x))
    have hnow := hwinds.isCalling
    rw [invocations, isCalling_eq h.thread, isCalling_eq h'.thread]
    omega

/-! ### The way to the end -/

/-- The `n`-th thread is to end, delivers nothing, and is not kept waiting. -/
structure Winding (a : SharedReader E) (n : Nat) (t : ReaderThread E) : Prop
    extends a.Dismissed n t where
  quiet : t.stage.isDelivering = false
  pending : t.stage.comesToWait = true → 0 < t.wakePipe.pending

/-- A thread that delivers nothing has a step to make, unless it waits in vain. -/
lemma isSome_stepThread {r : Reader E} {t : ReaderThread E} (halive : t.stage.isEnded = false)
    (hquiet : t.stage.isDelivering = false)
    (hpending : t.stage.comesToWait = true → 0 < t.wakePipe.pending) (limit : Nat)
    (pollForbidden : Bool) (d : Descriptor) :
    (r.stepThread pollForbidden d (t.curb limit)).isSome = true := by
  obtain ⟨plan, buffer, wakePipe, stage⟩ := t
  cases stage with
  | polling | checking | leaving => rfl
  | waiting =>
    have hready : wakePipe.isReady = true := WakePipe.isReady_of_pending (hpending rfl)
    dsimp only [Reader.stepThread, ReaderThread.curb]
    rw [hready, Bool.not_true, Bool.and_false]
    rfl
  | woken found wake => cases wake <;> rfl
  | reading | calling => cases hquiet
  | ended => cases halive

/-- The thread makes the step that it has to make. -/
lemma exists_proceeds {t : ReaderThread E} (ht : a.reader.thread = some t) {limit : Nat}
    {pollForbidden : Bool}
    (h : (a.reader.stepThread pollForbidden (a.descriptors t.plan.target)
      (t.curb limit)).isSome = true) :
    ∃ t' flag exit d, Proceeds limit a.reader t (a.descriptors t.plan.target) t' flag exit d ∧
      a.act (.thread limit pollForbidden) = { a with
        reader := { a.reader with thread := some t', stopFlag := flag, exit := exit }
        descriptors := Function.update a.descriptors t.plan.target d } := by
  obtain ⟨step, hstep⟩ := Option.isSome_iff_exists.mp h
  obtain ⟨t', flag, exit, hproceeds, heq⟩ := Reader.proceeds_stepThread ht hstep
  refine ⟨t', flag, exit, _, hproceeds, ?_⟩
  rw [act, advanceThread, ht]
  dsimp only
  rw [hstep]
  dsimp only
  rw [heq]

/-- Each step brings the thread closer to its end. -/
lemma stepsLeft_lt {limit : Nat} {r : Reader E} {t t' : ReaderThread E} {d d' : Descriptor}
    {flag : Bool} {exit : Option ReaderExit} (h : Proceeds limit r t d t' flag exit d')
    (hflag : r.stopFlag = true) (hquiet : t.stage.isDelivering = false) :
    t'.stage.stepsLeft < t.stage.stepsLeft := by
  cases h with
  | reject hstage hlow | again hstage hlow | ready hstage hlow =>
    rw [hflag] at hlow
    cases hlow
  | read hstage | finish hstage | effect hstage | stop hstage | panic hstage =>
    rw [hstage] at hquiet
    cases hquiet
  | wait hstage | barred hstage | wake hstage | pass hstage | drain hstage | crash hstage
  | observe hstage | leave hstage =>
    rw [hstage]
    exact Nat.le_of_ble_eq_true rfl

lemma Winding.act_thread {n : Nat} {t : ReaderThread E} (h : a.Winding n t) (hlaw : a.Lawful)
    (hroused : a.Roused) (halive : t.stage.isEnded = false) (limit : Nat) (pollForbidden : Bool) :
    ∃ t', (a.act (.thread limit pollForbidden)).Winding n t' ∧
      t'.stage.stepsLeft < t.stage.stepsLeft := by
  obtain ⟨hn, ht⟩ := h.latest hlaw halive
  have hflag := h.flag halive
  obtain ⟨t', flag, exit, d, hproceeds, heq⟩ :=
    exists_proceeds ht (isSome_stepThread halive h.quiet h.pending limit pollForbidden _)
  have hraised := hproceeds.unchanged.2.2.2 hflag
  refine ⟨t', ⟨?_, hproceeds.isDelivering hflag h.quiet, fun hahead => ?_⟩,
    stepsLeft_lt hproceeds hflag h.quiet⟩
  · rw [heq]
    exact .of_latest hn rfl hraised
  · have hnone := hroused.exit_eq_none ht halive
    exact (hproceeds.alerted hnone (hroused.writable t ht)
      (fun _ hahead => Or.inl (h.pending hahead)) hraised hahead).resolve_right id

lemma Winding.act_other {n : Nat} {t : ReaderThread E} (h : a.Winding n t) (hlaw : a.Lawful)
    (halive : t.stage.isEnded = false) {x : Action E} (hx : x.isThread = false) :
    ∃ t', (a.act x).Winding n t' ∧
      t'.stage.stepsLeft ≤ t.stage.stepsLeft + x.isInterrupt.toNat := by
  obtain ⟨t', h', hwinds⟩ := h.outcome hlaw (a.outcome_act x)
  cases hwinds with
  | gone hended =>
    rw [hended] at halive
    cases halive
  | rest hpending =>
    exact ⟨_, ⟨h', h.quiet, fun hahead => Nat.lt_of_lt_of_le (h.pending hahead) hpending⟩,
      Nat.le_add_right _ _⟩
  | step => cases hx
  | interrupt hstage =>
    refine ⟨_, ⟨h', rfl, fun _ => h.pending (by rw [hstage]; rfl)⟩, ?_⟩
    rw [hstage]
    exact Nat.le_refl 5

lemma Winding.act {n : Nat} {t : ReaderThread E} (h : a.Winding n t) (hlaw : a.Lawful)
    (hroused : a.Roused) (halive : t.stage.isEnded = false) (x : Action E) :
    ∃ t', (a.act x).Winding n t' ∧
      t'.stage.stepsLeft + x.isThread.toNat ≤ t.stage.stepsLeft + x.isInterrupt.toNat := by
  cases x with
  | thread limit pollForbidden => exact h.act_thread hlaw hroused halive limit pollForbidden
  | callStop | stop | callStart | start | interrupt | openGate | write | close =>
    exact h.act_other hlaw halive rfl

lemma Action.countP_cons (p : Action E → Bool) (x : Action E) (acts : List (Action E)) :
    (x :: acts).countP p = acts.countP p + (p x).toNat := by
  rw [List.countP_cons]
  cases p x <;> rfl

/-- The thread ends once it has made its steps, and one more for each interruption. -/
lemma Winding.ends {n : Nat} {t : ReaderThread E} (h : a.Winding n t) (hlaw : a.Lawful)
    (hroused : a.Roused) {acts : List (Action E)}
    (hlong : t.stage.stepsLeft + acts.countP (·.isInterrupt) ≤ acts.countP (·.isThread)) :
    ∃ t', (play acts a).threads[n]? = some t' ∧ t'.stage.isEnded = true := by
  induction acts generalizing a t with
  | nil =>
    refine ⟨t, h.thread, ?_⟩
    rw [← Bool.not_eq_false]
    intro halive
    exact absurd hlong (Nat.not_le.mpr (ThreadStage.stepsLeft_pos halive))
  | cons x acts ih =>
    cases halive : t.stage.isEnded with
    | true =>
      obtain ⟨t', hn', hfollows⟩ := follows_play (x :: acts) h.thread
      exact ⟨t', hn', hfollows.ended halive⟩
    | false =>
      obtain ⟨t', h', hcloser⟩ := h.act hlaw hroused halive x
      have ho := a.outcome_act x
      refine ih h' (hlaw.outcome ho) (hroused.outcome hlaw ho) ?_
      rw [Action.countP_cons, Action.countP_cons] at hlong
      omega

/-! ### No lost wake-up -/

/-- The flag is up, and the thread is not kept waiting in vain. -/
lemma Roused.winding (h : a.Roused) (hlaw : a.Lawful) (hflag : a.reader.stopFlag = true)
    (hwoken : .raised ∉ a.reader.stops) {n : Nat} {t : ReaderThread E}
    (hn : a.threads[n]? = some t) (hquiet : t.stage.isDelivering = false) : a.Winding n t := by
  have hdismissed : a.Dismissed n t := ⟨hn, fun _ => hflag⟩
  refine ⟨hdismissed, hquiet, fun hahead => ?_⟩
  cases halive : t.stage.isEnded with
  | true =>
    rw [ThreadStage.comesToWait_of_isEnded halive] at hahead
    cases hahead
  | false =>
    exact (h.alerted t (hdismissed.latest hlaw halive).2 hflag hahead).resolve_right hwoken

/-- While a call of `stop` waits for the thread, no other is about to wake it. -/
lemma Lawful.not_raised_of_joining (h : a.Lawful) (hjoining : .joining ∈ a.reader.stops) :
    .raised ∉ a.reader.stops := by
  intro hraised
  have hrunning := h.balanced.running (List.countP_pos_iff.mpr ⟨_, hraised, rfl⟩)
  have hpos : 0 < a.reader.stops.countP (·.ownsJoin) :=
    List.countP_pos_iff.mpr ⟨_, hjoining, rfl⟩
  rw [h.balanced.join, hrunning, if_neg ReaderState.noConfusion] at hpos
  exact Nat.lt_irrefl 0 hpos

/-- A thread that waits wakes up by its next step. -/
lemma Winding.wakes {n : Nat} {t : ReaderThread E} (h : a.Winding n t) (hlaw : a.Lawful)
    (hwaiting : t.stage = .waiting) (limit : Nat) (pollForbidden : Bool) :
    ∃ found, (a.act (.thread limit pollForbidden)).threads[n]? =
      some { t with stage := .woken found true } := by
  have halive : t.stage.isEnded = false := by
    rw [hwaiting]
    rfl
  obtain ⟨hn, ht⟩ := h.latest hlaw halive
  obtain ⟨t', flag, exit, d, hproceeds, heq⟩ :=
    exists_proceeds ht (isSome_stepThread halive h.quiet h.pending limit pollForbidden _)
  have hwoken := hproceeds.of_waiting hwaiting
  rw [WakePipe.isReady_of_pending (h.pending (by rw [hwaiting]; rfl))] at hwoken
  refine ⟨(a.descriptors t.plan.target).readiness, ?_⟩
  rw [heq, ← hwoken]
  exact getElem?_threads.mpr (Or.inr ⟨hn, rfl⟩)

/-- No wake-up is lost, whatever comes between the steps of calls of `stop` and those of the thread.
With the stop flag up, a thread that waits has a byte to find, or a call of `stop` is about to write
one. No call waits for the end of the thread before that, so that the next step of the thread is to
wake up. It invokes the callback at most once more, and only if it has looked at the flag already
and is about to read. A thread that does not deliver ends after five steps at most, and one more for
each time that a signal interrupts it. -/
theorem no_lost_wake_up (bufferSize : Nat) (descriptors : String → Descriptor)
    (acts : List (Action E)) :
    let a := play acts (idle bufferSize descriptors)
    (.joining ∈ a.reader.stops → a.reader.stopFlag = true ∧ .raised ∉ a.reader.stops) ∧
    ∀ (n : Nat) (t : ReaderThread E), a.reader.stopFlag = true → a.threads[n]? = some t →
      (t.stage = .waiting → 0 < t.wakePipe.pending ∨ .raised ∈ a.reader.stops) ∧
      (∀ more, invocations n more a ≤ if t.stage.isReading then 1 else 0) ∧
      (.raised ∉ a.reader.stops → t.stage = .waiting → ∀ limit pollForbidden, ∃ found,
        (a.act (.thread limit pollForbidden)).threads[n]? =
          some { t with stage := .woken found true }) ∧
      (.raised ∉ a.reader.stops → t.stage.isDelivering = false → ∀ more : List (Action E),
        5 + more.countP (·.isInterrupt) ≤ more.countP (·.isThread) →
        ∃ t', (play more a).threads[n]? = some t' ∧ t'.stage.isEnded = true) := by
  intro a
  have hlaw : a.Lawful := (lawful_idle bufferSize descriptors).play acts
  have hflagged : a.Flagged := flagged_play bufferSize descriptors acts
  have hroused : a.Roused := roused_play bufferSize descriptors acts
  refine ⟨fun hjoining => ⟨?_, hlaw.not_raised_of_joining hjoining⟩, fun n t hflag hn => ?_⟩
  · have hpos : 0 < a.reader.stops.countP (·.ownsJoin) :=
      List.countP_pos_iff.mpr ⟨_, hjoining, rfl⟩
    refine hflagged.stopping (by_contra fun hstate => ?_)
    rw [hlaw.balanced.join, if_neg hstate] at hpos
    exact Nat.lt_irrefl 0 hpos
  have hdismissed : a.Dismissed n t := ⟨hn, fun _ => hflag⟩
  refine ⟨fun hwaiting => ?_, fun more => ?_, fun hwoken hwaiting => ?_,
    fun hwoken hquiet more hlong => ?_⟩
  · have halive : t.stage.isEnded = false := by
      rw [hwaiting]
      rfl
    exact hroused.alerted t (hdismissed.latest hlaw halive).2 hflag (by rw [hwaiting]; rfl)
  · have hle := hdismissed.invocations_le hlaw more
    cases hreading : t.stage.isReading with
    | true | false =>
      rw [hreading] at hle
      exact hle
  · exact (hroused.winding hlaw hflag hwoken hn (by rw [hwaiting]; rfl)).wakes hlaw hwaiting
  · have hwinding := hroused.winding hlaw hflag hwoken hn hquiet
    refine hwinding.ends hlaw hroused (Nat.le_trans ?_ hlong)
    exact Nat.add_le_add_right t.stage.stepsLeft_le _

/-- A thread waits for its descriptor, and a call of `stop` comes as far as to wait for the thread.
-/
def joinOfWaiting : List (Action Unit) :=
  .callStart { target := "p", callback := fun _ => [] } ::
    List.replicate 6 (.start 0 (.granted none)) ++
    .thread 2 false :: .callStop :: List.replicate 3 (.stop 0)

/-- The thread finds the byte that is to wake it, and ends without another invocation. -/
theorem no_lost_wake_up_join :
    let a := play joinOfWaiting (idle 2 fun _ => .pipe {})
    a.reader.stops = [.joining] ∧ a.reader.stopFlag = true ∧
      ∃ t, a.threads[0]? = some t ∧ t.stage = .waiting ∧ 0 < t.wakePipe.pending ∧
        (∀ more, invocations 0 more a ≤ 0) ∧
        (∃ found, (a.act (.thread 2 false)).threads[0]? =
          some { t with stage := .woken found true }) ∧
        ∃ t', (play (List.replicate 5 (.thread 2 false)) a).threads[0]? = some t' ∧
          t'.stage.isEnded = true := by
  have hjoining : .joining ∈ (play joinOfWaiting (idle 2 fun _ => .pipe {})).reader.stops := by
    decide +kernel
  obtain ⟨hjoin, hthread⟩ := no_lost_wake_up 2 (fun _ => .pipe {}) joinOfWaiting
  obtain ⟨hflag, hwoken⟩ := hjoin hjoining
  obtain ⟨hpending, hinvoke, hwake, hends⟩ := hthread 0 _ hflag rfl
  exact ⟨by decide +kernel, hflag, _, rfl, rfl, (hpending rfl).resolve_right hwoken, hinvoke,
    hwake hwoken rfl 2 false, hends hwoken rfl _ (by decide)⟩

end SharedReader

end EventKernel
