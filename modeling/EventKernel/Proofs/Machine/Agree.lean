import EventKernel.Proofs.Machine.Slots
import EventKernel.Proofs.Machine.Timers
import EventKernel.Proofs.Timer.Agree

/-!
# Requests on simulators that agree

Two programs that are the same but for slots are given answers that are the same but for slots, on
two simulators that agree, with memories that are the same but for slots; and they still agree
afterwards, also if the second program takes an event away where the first one cancels it.
-/

namespace EventKernel

open Simulator (Agree Handed)

variable {K U : Type} {C : Correspondence K} {D : Correspondence U} {w w' v v' : Matching}
  {s t : Simulator K} {m m' : Memory K U}

/-! ### Arrays -/

/-- Whether the entries of two arrays are related one by one. -/
def Parallel {α β : Type} (R : α → β → Prop) (a : Array α) (b : Array β) : Prop :=
  ∀ i : Nat, Option.Rel R a[i]? b[i]?

section

variable {α β : Type} {R S : α → β → Prop} {a : Array α} {b : Array β} {x : α} {y : β}

lemma Parallel.imp (h : Parallel R a b) (hRS : ∀ x y, R x y → S x y) : Parallel S a b :=
  fun i => rel_option_mono hRS (h i)

lemma Parallel.size_eq (h : Parallel R a b) : b.size = a.size := by
  have hnone : ∀ i : Nat, a[i]? = none ↔ b[i]? = none := by
    intro i
    have hi := h i
    generalize a[i]? = x at hi
    generalize b[i]? = y at hi
    cases hi <;> simp
  have ha := (hnone a.size).mp (Array.getElem?_eq_none (Nat.le_refl _))
  have hb := (hnone b.size).mpr (Array.getElem?_eq_none (Nat.le_refl _))
  rw [Array.getElem?_eq_none_iff] at ha hb
  exact Nat.le_antisymm ha hb

lemma Parallel.push (h : Parallel R a b) (hxy : R x y) : Parallel R (a.push x) (b.push y) := by
  intro i
  rw [Array.getElem?_push, Array.getElem?_push, h.size_eq]
  split
  · exact .some hxy
  · exact h i

lemma Parallel.setIfInBounds (h : Parallel R a b) (n : Nat) (hxy : R x y) :
    Parallel R (a.setIfInBounds n x) (b.setIfInBounds n y) := by
  intro i
  rw [Array.getElem?_setIfInBounds, Array.getElem?_setIfInBounds, h.size_eq]
  split
  · split
    · exact .some hxy
    · exact .none
  · exact h i

lemma Parallel.getD (h : Parallel R a b) (n : Nat) (hxy : R x y) :
    R (a.getD n x) (b.getD n y) := by
  rw [Array.getD_eq_getD_getElem?, Array.getD_eq_getD_getElem?]
  have hn := h n
  generalize a[n]? = o at hn
  generalize b[n]? = p at hn
  cases hn with
  | some h => exact h
  | none => exact hxy

lemma rel_option_join {o : Option (Option α)} {p : Option (Option β)}
    (h : Option.Rel (Option.Rel R) o p) : Option.Rel R o.join p.join := by
  cases h with
  | some h => exact h
  | none => exact .none

end

/-! ### Memories -/

/-- Two memories that are the same but for slots. -/
structure Memory.Matched (C : Correspondence K) (D : Correspondence U) (w v : Matching)
    (m m' : Memory K U) : Prop where
  watchdogs : Parallel (Option.Rel (Watchdog.Matched C w v)) m.watchdogs m'.watchdogs
  trickles : Parallel (Option.Rel (Trickle.Matched C w v)) m.trickles m'.trickles
  inboxes : Parallel (Inbox.Matched C w) m.inboxes m'.inboxes
  user : D.rel w m.user m'.user

namespace Memory

lemma Matched.mono (h : m.Matched C D w v m') (hle : w ≤ w') (hle' : v ≤ v') :
    m.Matched C D w' v' m' where
  watchdogs := h.watchdogs.imp fun _ _ => rel_option_mono fun _ _ hd => hd.mono hle hle'
  trickles := h.trickles.imp fun _ _ => rel_option_mono fun _ _ hd => hd.mono hle hle'
  inboxes := h.inboxes.imp fun _ _ hb => hb.mono hle
  user := D.mono h.user hle

lemma Matched.watchdog? (h : m.Matched C D w v m') (n : Nat) :
    Option.Rel (Watchdog.Matched C w v) (m.watchdog? n) (m'.watchdog? n) :=
  rel_option_join (h.watchdogs n)

lemma Matched.trickle? (h : m.Matched C D w v m') (n : Nat) :
    Option.Rel (Trickle.Matched C w v) (m.trickle? n) (m'.trickle? n) :=
  rel_option_join (h.trickles n)

lemma Matched.setWatchdog (h : m.Matched C D w v m') (n : Nat) {d d' : Option (Watchdog K)}
    (hd : Option.Rel (Watchdog.Matched C w v) d d') :
    (m.setWatchdog n d).Matched C D w v (m'.setWatchdog n d') :=
  { h with watchdogs := h.watchdogs.setIfInBounds n hd }

lemma Matched.setTrickle (h : m.Matched C D w v m') (n : Nat) {d d' : Option (Trickle K)}
    (hd : Option.Rel (Trickle.Matched C w v) d d') :
    (m.setTrickle n d).Matched C D w v (m'.setTrickle n d') :=
  { h with trickles := h.trickles.setIfInBounds n hd }

/-- The events that wait in the inbox of the simulator are those that it is sent. -/
lemma Matched.askInbox (h : m.Matched C D w v m') (hs : Agree C w v s t) (target : Nat)
    (r r' : InboxRequest K) {A : r.Reply → r'.Reply → Prop}
    (hr : ∀ b b' : Inbox (Task K), b.Matched C w b' →
      A (r.apply b).1 (r'.apply b').1 ∧ (r.apply b).2.Matched C w (r'.apply b').2) :
    A (m.askInbox target r s).1 (m'.askInbox target r' t).1 ∧
      Agree C w v (m.askInbox target r s).2.1 (m'.askInbox target r' t).2.1 ∧
      (m.askInbox target r s).2.2.Matched C D w v (m'.askInbox target r' t).2.2 := by
  have hsame : target = t.identity ↔ target = s.identity := by rw [hs.identity_eq]
  rw [Memory.askInbox, Memory.askInbox]
  by_cases htarget : target = s.identity
  · obtain ⟨ha, hb⟩ := hr _ _ hs.inbox
    rw [if_pos htarget, if_pos (hsame.mpr htarget)]
    exact ⟨ha, hs.setInbox hb, h⟩
  · obtain ⟨ha, hb⟩ := hr _ _ (h.inboxes.getD target Inbox.matched_shut)
    rw [if_neg htarget, if_neg (htarget ∘ hsame.mp)]
    exact ⟨ha, hs, { h with inboxes := h.inboxes.setIfInBounds target hb }⟩

lemma Matched.handIn (h : m.Matched C D w v m') (hs : Agree C w v s t) (target : Nat)
    (context : ContextId) (delay : Time) {k l : K} (hk : C.rel w k l) :
    let x := m.askInbox target (.schedule context delay k) s
    let y := m'.askInbox target (.schedule context delay l) t
    y.1 = x.1 ∧ Agree C w v x.2.1 y.2.1 ∧ x.2.2.Matched C D w v y.2.2 := by
  have hev : RemoteEvent.Matched C w ⟨context, delay, .user k⟩ ⟨context, delay, .user l⟩ :=
    ⟨rfl, rfl, .user hk⟩
  exact h.askInbox hs target (.schedule context delay k) (.schedule context delay l)
    (A := fun a b => b = a) fun b b' hb => hb.push hev

lemma Matched.requestStop (h : m.Matched C D w v m') (hs : Agree C w v s t) (target : Nat) :
    let x := m.askInbox target .stop s
    let y := m'.askInbox target .stop t
    x.1 = y.1 ∧ Agree C w v x.2.1 y.2.1 ∧ x.2.2.Matched C D w v y.2.2 :=
  h.askInbox hs target .stop .stop (A := Eq)
    fun _ _ hb => ⟨rfl, { hb with stop_eq := rfl }⟩

end Memory

/-! ### Requests -/

/-- What a request comes to on both sides: answers that are related, simulators that agree, and
memories that are the same but for slots. More handles may be matched than before. -/
def Together {α β : Type} (C : Correspondence K) (D : Correspondence U) (w v : Matching)
    (A : Matching → α → β → Prop) (x : α × Simulator K × Memory K U)
    (y : β × Simulator K × Memory K U) : Prop :=
  ∃ w' v', w ≤ w' ∧ v ≤ v' ∧ A w' x.1 y.1 ∧ Agree C w' v' x.2.1 y.2.1 ∧
    x.2.2.Matched C D w' v' y.2.2

/-- Nothing is changed but what the answer tells. -/
lemma together_of_answer {α β : Type} {A : Matching → α → β → Prop} {a : α} {b : β}
    (hab : A w a b) (hs : Agree C w v s t) (hm : m.Matched C D w v m') :
    Together C D w v A (a, s, m) (b, t, m') :=
  ⟨w, v, le_refl w, le_refl v, hab, hs, hm⟩

lemma SimRequest.together_schedule (hs : Agree C w v s t) (hm : m.Matched C D w v m')
    {context context' : ContextId} (hcontext : context' = context) (delay : Time)
    {task task' : Task K} (htask : task.Matched C w task') (hplain : task.IsPlain) :
    Together C D w v Handed
      ((s.scheduleWith context delay task).1, (s.scheduleWith context delay task).2, m)
      ((t.scheduleWith context' delay task').1, (t.scheduleWith context' delay task').2, m') := by
  obtain ⟨a, b, s', t', w', v', hs', ht', hle, hle', hab, h⟩ :=
    hs.scheduleKnown context delay htask hplain
  rw [hcontext, hs', ht']
  exact ⟨w', v', hle, hle', hab, h, hm.mono hle hle'⟩

/-- Requests to the simulator that name nothing are the same on both sides. -/
lemma SimRequest.together_neutral (hs : Agree C w v s t) (hm : m.Matched C D w v m')
    {r : SimRequest K} (hr : r.IsNeutral) :
    Together C D w v (fun _ => Eq) (Request.apply (.sim r) s m) (Request.apply (.sim r) t m') := by
  cases r with
  | identity => exact together_of_answer hs.identity_eq.symm hs hm
  | now => exact together_of_answer hs.now_eq.symm hs hm
  | context => exact together_of_answer hs.context_eq.symm hs hm
  | phase => exact together_of_answer hs.phase_eq.symm hs hm
  | eventCount => exact together_of_answer hs.count_eq.symm hs hm
  | kind => exact together_of_answer hs.kind_eq.symm hs hm
  | sync => exact together_of_answer hs.sync_eq.symm hs hm
  | stop => exact together_of_answer rfl hs.stop hm
  | setScheduler kind => exact together_of_answer rfl (hs.setScheduler kind) hm
  | boundLookahead bound =>
    have hsync : t.sync.boundLookahead bound = s.sync.boundLookahead bound := by rw [hs.sync_eq]
    exact together_of_answer (congrArg SyncMode.lookahead hsync).symm (hs.setSync hsync) hm
  | schedule | scheduleNow | scheduleWith | scheduleDestroy | stopAfter | cancel | remove
  | isExpired | delayLeft | pendingEvents | isFinished | observe | describe => exact hr.elim

/-- What is asked of a watchdog is the same on both sides. -/
lemma WatchdogRequest.together {d d' : Watchdog K} (hd : d.Matched C w v d') (hs : Agree C w v s t)
    {n : Nat} (hkept : d.Kept n s) {r : WatchdogRequest K} (hr : ∀ k, r ≠ .setFunction k) :
    ∃ v', v ≤ v' ∧ (r.apply n d s).1 = (r.apply n d' t).1 ∧
      (r.apply n d s).2.1.Matched C w v' (r.apply n d' t).2.1 ∧
      Agree C w v' (r.apply n d s).2.2 (r.apply n d' t).2.2 := by
  cases r with
  | setFunction k => exact absurd rfl (hr k)
  | ping delay =>
    obtain ⟨a, e, e', s', t', u, hs', ht', hle, he, h⟩ := hd.ping hs n delay fun ev hev => by
      simp [hkept.owns.2 ev hev, Task.IsPlain]
    rw [WatchdogRequest.apply, WatchdogRequest.apply, hs', ht']
    exact ⟨u, hle, rfl, he, h⟩
  | cancel =>
    obtain ⟨hevent, hfunction⟩ := hd
    exact ⟨v, le_refl v, rfl, .intro d.cancel hevent hfunction, hs⟩
  | info =>
    obtain ⟨hpending, hdeadline⟩ := hd.isPending_eq hs
    exact ⟨v, le_refl v, Prod.ext hpending.symm hdeadline.symm, hd, hs⟩

/-- What is asked of a trickle timer is the same on both sides. -/
lemma TrickleRequest.together {d d' : Trickle K} (hd : d.Matched C w v d') (hs : Agree C w v s t)
    {n : Nat} (hkept : d.Kept n s) {r : TrickleRequest K} (hr : ∀ k, r ≠ .setFunction k) :
    ∃ v', v ≤ v' ∧ (r.apply n d s).1 = (r.apply n d' t).1 ∧
      (r.apply n d s).2.1.Matched C w v' (r.apply n d' t).2.1 ∧
      Agree C w v' (r.apply n d s).2.2 (r.apply n d' t).2.2 := by
  cases r with
  | setFunction k => exact absurd rfl (hr k)
  | enable =>
    obtain ⟨a, e, e', s', t', u, hs', ht', hle, he, h⟩ := hd.enable hs n
    rw [TrickleRequest.apply, TrickleRequest.apply, hs', ht']
    exact ⟨u, hle, rfl, he, h⟩
  | reset =>
    obtain ⟨a, e, e', s', t', u, hs', ht', hle, he, h⟩ := hd.reset hs hkept
    rw [TrickleRequest.apply, TrickleRequest.apply, hs', ht']
    exact ⟨u, hle, rfl, he, h⟩
  | inconsistent =>
    obtain ⟨a, e, e', s', t', u, hs', ht', hle, he, h⟩ := hd.inconsistent hs hkept
    rw [TrickleRequest.apply, TrickleRequest.apply, hs', ht']
    exact ⟨u, hle, rfl, he, h⟩
  | consistent =>
    obtain ⟨hinterval, hfire, hfunction⟩ := hd
    exact ⟨v, le_refl v, rfl, .intro d.consistent hinterval hfire hfunction, hs⟩
  | stop => exact ⟨v, le_refl v, rfl, hd, hd.stop hs hkept⟩
  | info =>
    have hrunning := hd.isRunning_eq hs
    have hd' := hd
    obtain ⟨-, -, -⟩ := hd
    refine ⟨v, le_refl v, ?_, hd', hs⟩
    exact congrArg (TrickleInfo.mk · d.interval d.maxInterval d.counter) hrunning.symm

namespace Request

lemma together_watchdog (hs : Agree C w v s t) (hm : m.Matched C D w v m') (hkept : m.Guards s)
    (n : Nat) {r : WatchdogRequest K} (hr : ∀ k, r ≠ .setFunction k) :
    Together C D w v (fun _ => Eq) (apply (.watchdog n r) s m) (apply (.watchdog n r) t m') := by
  simp only [apply]
  rcases rel_option_cases (hm.watchdog? n) with ⟨hn, hn'⟩ | ⟨d, d', hn, hn', hd⟩
  · rw [hn, hn']
    exact together_of_answer rfl hs hm
  · obtain ⟨v', hle, ha, he, h⟩ := WatchdogRequest.together hd hs (hkept.watchdog n d hn) hr
    rw [hn, hn']
    exact ⟨w, v', le_refl w, hle, congrArg some ha, h,
      (hm.mono (le_refl w) hle).setWatchdog n (.some he)⟩

lemma together_trickle (hs : Agree C w v s t) (hm : m.Matched C D w v m') (hkept : m.Guards s)
    (n : Nat) {r : TrickleRequest K} (hr : ∀ k, r ≠ .setFunction k) :
    Together C D w v (fun _ => Eq) (apply (.trickle n r) s m) (apply (.trickle n r) t m') := by
  simp only [apply]
  rcases rel_option_cases (hm.trickle? n) with ⟨hn, hn'⟩ | ⟨d, d', hn, hn', hd⟩
  · rw [hn, hn']
    exact together_of_answer rfl hs hm
  · obtain ⟨v', hle, ha, he, h⟩ := TrickleRequest.together hd hs (hkept.trickle n d hn) hr
    rw [hn, hn']
    exact ⟨w, v', le_refl w, hle, congrArg some ha, h,
      (hm.mono (le_refl w) hle).setTrickle n (.some he)⟩

/-- Requests that name nothing are the same on both sides. -/
lemma together_neutral (hs : Agree C w v s t) (hm : m.Matched C D w v m') (hkept : m.Guards s)
    {r : Request K U} (hr : r.IsNeutral) :
    Together C D w v (fun _ => Eq) (r.apply s m) (r.apply t m') := by
  have hinbox : ∀ target (r : InboxRequest K), (∀ b b' : Inbox (Task K), b.Matched C w b' →
      (r.apply b).1 = (r.apply b').1 ∧ (r.apply b).2.Matched C w (r.apply b').2) →
      Together C D w v (fun _ => Eq) (apply (.inbox target r) s m)
        (apply (.inbox target r) t m') := by
    intro target r hr
    obtain ⟨ha, h, hn⟩ := hm.askInbox hs target r r (A := Eq) hr
    exact ⟨w, v, le_refl w, le_refl v, ha, h, hn⟩
  cases r with
  | sim r => exact SimRequest.together_neutral hs hm hr
  | inbox target r =>
    cases r with
    | schedule => exact hr.elim
    | stop =>
      obtain ⟨ha, h, hn⟩ := hm.requestStop hs target
      exact ⟨w, v, le_refl w, le_refl v, ha, h, hn⟩
    | isClosed => exact hinbox target .isClosed fun b b' hb => ⟨hb.closed_eq.symm, hb⟩
    | describe =>
      refine hinbox target .describe ?_
      intro b b' hb
      exact ⟨hb.describeRemote_eq.symm, hb⟩
  | watchdog n r =>
    refine together_watchdog hs hm hkept n ?_
    rintro k rfl
    exact hr
  | trickle n r =>
    refine together_trickle hs hm hkept n ?_
    rintro k rfl
    exact hr
  | dropWatchdog n => exact together_of_answer rfl hs (hm.setWatchdog n .none)
  | dropTrickle n => exact together_of_answer rfl hs (hm.setTrickle n .none)
  | newTrickle minInterval doublings redundancy seed =>
    exact together_of_answer hm.trickles.size_eq.symm hs
      { hm with trickles := hm.trickles.push (.some (Trickle.matched_create ..)) }
  | newWatchdog | load | update => exact hr.elim

/-- All requests but those to cancel an event. -/
lemma Matched.together {r r' : Request K U} {A : Matching → r.Reply → r'.Reply → Prop}
    (hr : r.Matched C D w r' A) (hs : Agree C w v s t) (hm : m.Matched C D w v m')
    (hkept : m.Guards s) (hnot : ∀ id, r ≠ .sim (.cancel id)) :
    Together C D w v A (r.apply s m) (r'.apply t m') := by
  cases hr with
  | schedule delay h =>
    exact SimRequest.together_schedule hs hm hs.context_eq delay (.user h) trivial
  | scheduleNow h =>
    exact SimRequest.together_schedule hs hm hs.context_eq .zero (.user h) trivial
  | scheduleWith context delay h =>
    exact SimRequest.together_schedule hs hm rfl delay (.user h) trivial
  | stopAfter delay => exact SimRequest.together_schedule hs hm rfl delay .stop trivial
  | scheduleDestroy h =>
    obtain ⟨a, s', t', hs', ht', ha, h'⟩ := hs.scheduleDestroy h
    simp only [apply, SimRequest.apply, hs', ht']
    exact together_of_answer ha h' hm
  | cancel h => exact absurd rfl (hnot _)
  | isExpired h => exact together_of_answer (hs.isExpired_eq (h.mono hs.events.le)).symm hs hm
  | delayLeft h => exact together_of_answer (hs.delayLeft_eq (h.mono hs.events.le)).symm hs hm
  | observe h => exact together_of_answer rfl (hs.setObserver h) hm
  | handIn target context delay h =>
    obtain ⟨ha, h', hn⟩ := hm.handIn hs target context delay h
    exact ⟨w, v, le_refl w, le_refl v, ha.symm, h', hn⟩
  | newWatchdog h =>
    exact together_of_answer hm.watchdogs.size_eq.symm hs
      { hm with watchdogs := hm.watchdogs.push (.some (Watchdog.matched_create h)) }
  | setWatchdog n h =>
    simp only [apply]
    rcases rel_option_cases (hm.watchdog? n) with ⟨hn, hn'⟩ | ⟨d, d', hn, hn', hd⟩
    · rw [hn, hn']
      exact together_of_answer rfl hs hm
    · obtain ⟨hevent, -⟩ := hd
      rw [hn, hn']
      exact together_of_answer rfl hs
        (hm.setWatchdog n (.some (.intro (d.setFunction _) hevent (.some h))))
  | setTrickle n h =>
    simp only [apply]
    rcases rel_option_cases (hm.trickle? n) with ⟨hn, hn'⟩ | ⟨d, d', hn, hn', hd⟩
    · rw [hn, hn']
      exact together_of_answer rfl hs hm
    · obtain ⟨hinterval, hfire, -⟩ := hd
      rw [hn, hn']
      exact together_of_answer rfl hs
        (hm.setTrickle n (.some (.intro (d.setFunction _) hinterval hfire (.some h))))
  | load => exact together_of_answer hm.user hs hm
  | update h => exact together_of_answer rfl hs { hm with user := h w (le_refl w) _ _ hm.user }
  | neutral r hr => exact together_neutral hs hm hkept hr

end Request

/-! ### A state and itself -/

/-- Where names of code are kept: with events, in inboxes and timers, and as the observer. -/
inductive Mentions (s : Simulator K) (m : Memory K U) (k : K) : Prop where
  | event {id : EventId} {ev : Event (Task K)} (hev : s.find? id = some ev)
      (hk : ev.task = .user k)
  | observer (hk : s.observer = some k)
  | inbox {ev : RemoteEvent (Task K)} (hev : ev ∈ s.inbox.events) (hk : ev.task = .user k)
  | otherInbox {b : Inbox (Task K)} {ev : RemoteEvent (Task K)} (hb : b ∈ m.inboxes)
      (hev : ev ∈ b.events) (hk : ev.task = .user k)
  | watchdog {n : Nat} {d : Watchdog K} (hd : m.watchdog? n = some d) (hk : d.function = some k)
  | trickle {n : Nat} {d : Trickle K} (hd : m.trickle? n = some d) (hk : d.function = some k)

section

variable {task : Task K} {o : Option K} {b : Inbox (Task K)}

lemma Task.matched_self (h : ∀ k, task = .user k → C.rel w k k) : task.Matched C w task := by
  cases task with
  | user k => exact .user (h k rfl)
  | stop => exact .stop
  | watchdog n => exact .watchdog n
  | trickleInterval n => exact .trickleInterval n
  | trickleFire n => exact .trickleFire n

lemma Correspondence.option_self (h : ∀ k, o = some k → C.rel w k k) : C.option.rel w o o := by
  cases o with
  | none => exact .none
  | some k => exact .some (h k rfl)

lemma Inbox.matched_self (h : ∀ ev ∈ b.events, ∀ k, ev.task = .user k → C.rel w k k) :
    b.Matched C w b where
  events := List.forall₂_same.mpr fun ev hev =>
    ⟨rfl, rfl, Task.matched_self (h ev (Array.mem_toList_iff.mp hev))⟩
  closed_eq := rfl
  stop_eq := rfl

lemma parallel_self {α : Type} {R : α → α → Prop} {a : Array α}
    (h : ∀ (i : Nat) x, a[i]? = some x → R x x) : Parallel R a a := by
  intro i
  cases hx : a[i]? with
  | none => exact .none
  | some x => exact .some (h i x hx)

/-- A simulator agrees with itself if no code names an event of a timer. -/
lemma Simulator.Sound.agree_of_mentions (hs : s.Sound) (huser : s.HoldsUserCode)
    (hlive : ∀ id ev, s.find? id = some ev → ev.cancelled = false)
    (hC : ∀ k, Mentions s m k → C.rel s.known k k) : Agree C s.known s.issued s s := by
  refine hs.agree_self hlive ?_ ?_ ?_ ?_
  · intro n ev hev
    by_contra hplain
    refine huser.ne_destroy hev (fun k hk => hplain ?_) n rfl
    rw [hk]
    trivial
  · exact fun id ev hev => Task.matched_self fun k hk => hC k (.event hev hk)
  · exact Correspondence.option_self fun k hk => hC k (.observer hk)
  · exact Inbox.matched_self fun ev hev k hk => hC k (.inbox hev hk)

lemma Memory.Guards.matched_self (hg : m.Guards s) (hC : ∀ k, Mentions s m k → C.rel s.known k k)
    (hD : D.rel s.known m.user m.user) : m.Matched C D s.known s.issued m where
  watchdogs := by
    refine parallel_self fun i d hd => ?_
    cases d with
    | none => exact .none
    | some d =>
      have hd : m.watchdog? i = some d := by rw [Memory.watchdog?, hd, Option.join_some]
      exact .some (.intro d (EventId.matched_same (Or.inr (hg.watchdog i d hd).owns.1))
        (Correspondence.option_self fun k hk => hC k (.watchdog hd hk)))
  trickles := by
    refine parallel_self fun i d hd => ?_
    cases d with
    | none => exact .none
    | some d =>
      have hd : m.trickle? i = some d := by rw [Memory.trickle?, hd, Option.join_some]
      have hkept := hg.trickle i d hd
      exact .some (.intro d (EventId.matched_same (Or.inr hkept.interval.1))
        (EventId.matched_same (Or.inr hkept.fire.1))
        (Correspondence.option_self fun k hk => hC k (.trickle hd hk)))
  inboxes := parallel_self fun i b hb =>
    Inbox.matched_self fun ev hev k hk =>
      hC k (.otherInbox (Array.mem_of_getElem? hb) hev hk)
  user := hD

end

end EventKernel
