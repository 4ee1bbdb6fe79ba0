import EventKernel.Machine.Basic
import EventKernel.Proofs.Timer.Alike

/-!
# Programs that do not depend on the queue

A program may ask for the kind of the queue and for a description of the simulator, but it does not
depend on the queue if it makes the same requests whatever it is told. It may still record what it
was told: `R` relates the states of the user that differ in such records only.

The relations here extend `R` to what machines are made of, for two machines that run the same code
on simulators that differ in their queues.
-/

namespace EventKernel

variable {K U : Type} {R : U → U → Prop} {s t : Simulator K} {m m' : Memory K U}

/-! ### Answers -/

/-- Two answers to a request that programs have to treat alike. -/
def Request.SameAnswer (R : U → U → Prop) : (r : Request K U) → r.Reply → r.Reply → Prop
  | .sim .kind, _, _ => True
  | .sim .describe, _, _ => True
  | .load, u, v => R u v
  | _, a, b => a = b

/-- The answer to a request, unless it tells about the queue or is about the state of the user. -/
def Request.shown : (r : Request K U) → r.Reply → Option ((r : Request K U) × r.Reply)
  | .sim .kind, _ => none
  | .sim .describe, _ => none
  | .load, _ => none
  | .update _, _ => none
  | r, a => some ⟨r, a⟩

/-! ### Programs and memories -/

/-- Two programs that make the same requests as long as they are given the same answers. -/
inductive Program.Alike {α : Type} (R : U → U → Prop) :
    Program K U α → Program K U α → Prop where
  | done (a : α) : Alike R (.done a) (.done a)
  | ask (r : Request K U) {next next' : r.Reply → Program K U α} (hr : ∀ f, r ≠ .update f)
      (h : ∀ a b, r.SameAnswer R a b → Alike R (next a) (next' b)) :
      Alike R (.ask r next) (.ask r next')
  | update {f g : U → U} {next next' : PUnit → Program K U α}
      (hfg : ∀ u v, R u v → R (f u) (g v)) (h : Alike R (next ()) (next' ())) :
      Alike R (.ask (.update f) next) (.ask (.update g) next')
  | perform (k : K) {next next' : PUnit → Program K U α} (h : Alike R (next ()) (next' ())) :
      Alike R (.perform k next) (.perform k next')
  | run {next next' : Except SimError PUnit → Program K U α}
      (h : ∀ a, Alike R (next a) (next' a)) : Alike R (.run next) (.run next')
  | destroy {next next' : Except SimError PUnit → Program K U α}
      (h : ∀ a, Alike R (next a) (next' a)) : Alike R (.destroy next) (.destroy next')

/-- Code whose programs and observers do not depend on the queue. -/
structure Code.Blind (R : U → U → Prop) (code : Code K U) : Prop where
  routine : ∀ k, (code.routine k).Alike R (code.routine k)
  observe : ∀ k identity info u v, R u v →
    R (code.observe k identity info u).1 (code.observe k identity info v).1 ∧
      (code.observe k identity info u).2 = (code.observe k identity info v).2

/-- Two memories that differ only in the state of the user. -/
inductive Memory.Alike (R : U → U → Prop) : Memory K U → Memory K U → Prop where
  | intro (m : Memory K U) {u : U} (h : R m.user u) : Alike R m { m with user := u }

/-! ### Requests -/

lemma SimRequest.alike_apply (h : s.Alike t) (r : SimRequest K) :
    ∃ a b s' t', r.apply s = (a, s') ∧ r.apply t = (b, t') ∧
      (Request.sim r : Request K U).SameAnswer R a b ∧ s'.Alike t' := by
  cases r with
  | schedule delay k =>
    obtain ⟨a, s', t', hs, ht, h'⟩ := h.schedule delay (.user k)
    exact ⟨a, a, s', t', hs, ht, rfl, h'⟩
  | scheduleNow k =>
    obtain ⟨a, s', t', hs, ht, h'⟩ := h.schedule .zero (.user k)
    exact ⟨a, a, s', t', hs, ht, rfl, h'⟩
  | scheduleWith context delay k =>
    obtain ⟨a, s', t', hs, ht, h'⟩ := h.scheduleWith context delay (.user k)
    exact ⟨a, a, s', t', hs, ht, rfl, h'⟩
  | scheduleDestroy k =>
    obtain ⟨a, s', t', hs, ht, h'⟩ := h.scheduleDestroy (.user k)
    exact ⟨a, a, s', t', hs, ht, rfl, h'⟩
  | stopAfter delay =>
    obtain ⟨a, s', t', hs, ht, h'⟩ := h.scheduleWith .none delay .stop
    exact ⟨a, a, s', t', hs, ht, rfl, h'⟩
  | cancel id =>
    obtain ⟨a, s', t', hs, ht, h'⟩ := h.cancel id
    exact ⟨a, a, s', t', hs, ht, rfl, h'⟩
  | remove id =>
    obtain ⟨a, s', t', hs, ht, h'⟩ := h.remove id
    exact ⟨a, a, s', t', hs, ht, rfl, h'⟩
  | isExpired id => exact ⟨_, _, s, t, rfl, rfl, (h.isExpired_eq id).symm, h⟩
  | delayLeft id => exact ⟨_, _, s, t, rfl, rfl, (h.delayLeft_eq id).symm, h⟩
  | pendingEvents => exact ⟨_, _, s, t, rfl, rfl, h.pendingEvents_eq.symm, h⟩
  | isFinished => exact ⟨_, _, s, t, rfl, rfl, h.isFinished_eq.symm, h⟩
  | setScheduler kind => exact ⟨_, _, _, _, rfl, rfl, rfl, h.setScheduler kind⟩
  | kind | describe => exact ⟨_, _, s, t, rfl, rfl, trivial, h⟩
  | identity | now | context | phase | eventCount | sync =>
    obtain ⟨hr⟩ := h
    exact ⟨_, _, s, _, rfl, rfl, rfl, .intro s hr⟩
  | stop | boundLookahead | observe =>
    obtain ⟨hr⟩ := h
    exact ⟨_, _, _, _, rfl, rfl, rfl, .intro _ hr⟩

lemma WatchdogRequest.alike_apply (h : s.Alike t) (self : Nat) (r : WatchdogRequest K)
    (w : Watchdog K) :
    ∃ a w' s' t', r.apply self w s = (a, w', s') ∧ r.apply self w t = (a, w', t') ∧
      s'.Alike t' := by
  cases r with
  | ping delay => exact Watchdog.alike_ping h self delay w
  | info => exact ⟨_, w, s, t, rfl, by rw [apply, w.isPending_eq h], h⟩
  | setFunction | cancel => exact ⟨_, _, s, t, rfl, rfl, h⟩

lemma TrickleRequest.alike_apply (h : s.Alike t) (self : Nat) (r : TrickleRequest K)
    (d : Trickle K) :
    ∃ a d' s' t', r.apply self d s = (a, d', s') ∧ r.apply self d t = (a, d', t') ∧
      s'.Alike t' := by
  cases r with
  | enable => exact Trickle.alike_enable h self d
  | reset => exact Trickle.alike_reset h self d
  | inconsistent => exact Trickle.alike_inconsistent h self d
  | stop => exact ⟨_, d, _, _, rfl, rfl, Trickle.alike_stop h d⟩
  | info => exact ⟨_, d, s, t, rfl, by rw [apply, d.isRunning_eq h], h⟩
  | setFunction | consistent => exact ⟨_, _, s, t, rfl, rfl, h⟩

lemma Memory.alike_askInbox (h : s.Alike t) (hm : m.Alike R m') (target : Nat)
    (r : InboxRequest K) :
    ∃ a s' t' n n', m.askInbox target r s = (a, s', n) ∧ m'.askInbox target r t = (a, t', n') ∧
      s'.Alike t' ∧ n.Alike R n' := by
  obtain ⟨hr⟩ := h
  obtain ⟨hu⟩ := hm
  rw [askInbox, askInbox]
  split
  · exact ⟨_, _, _, m, _, rfl, rfl, .intro _ hr, .intro m hu⟩
  · exact ⟨_, s, _, _, _, rfl, rfl, .intro s hr, .intro _ hu⟩

lemma Request.alike_apply (h : s.Alike t) (hm : m.Alike R m') (r : Request K U)
    (hr : ∀ f, r ≠ .update f) :
    ∃ a b s' t' n n', r.apply s m = (a, s', n) ∧ r.apply t m' = (b, t', n') ∧
      r.SameAnswer R a b ∧ s'.Alike t' ∧ n.Alike R n' := by
  cases r with
  | sim r =>
    obtain ⟨a, b, s', t', hs, ht, hab, h'⟩ := r.alike_apply (R := R) h
    exact ⟨a, b, s', t', m, m', by simp only [apply, hs], by simp only [apply, ht], hab, h', hm⟩
  | inbox target r =>
    obtain ⟨a, s', t', n, n', hs, ht, h', hn⟩ := Memory.alike_askInbox h hm target r
    exact ⟨a, a, s', t', n, n', hs, ht, rfl, h', hn⟩
  | update f => exact absurd rfl (hr f)
  | load =>
    obtain ⟨hu⟩ := hm
    exact ⟨_, _, s, t, m, _, rfl, rfl, hu, h, .intro m hu⟩
  | newWatchdog | dropWatchdog | newTrickle | dropTrickle =>
    obtain ⟨hu⟩ := hm
    exact ⟨_, _, s, t, _, _, rfl, rfl, rfl, h, .intro _ hu⟩
  | watchdog w r =>
    obtain ⟨hu⟩ := hm
    simp only [apply, Memory.watchdog?]
    split
    · exact ⟨_, _, s, t, m, _, rfl, rfl, rfl, h, .intro m hu⟩
    · next d _ =>
      obtain ⟨a, d', s', t', hs, ht, h'⟩ := r.alike_apply h w d
      rw [hs, ht]
      exact ⟨_, _, s', t', _, _, rfl, rfl, rfl, h', .intro _ hu⟩
  | trickle w r =>
    obtain ⟨hu⟩ := hm
    simp only [apply, Memory.trickle?]
    split
    · exact ⟨_, _, s, t, m, _, rfl, rfl, rfl, h, .intro m hu⟩
    · next d _ =>
      obtain ⟨a, d', s', t', hs, ht, h'⟩ := r.alike_apply h w d
      rw [hs, ht]
      exact ⟨_, _, s', t', _, _, rfl, rfl, rfl, h', .intro _ hu⟩

lemma Request.shown_eq {r : Request K U} {a b : r.Reply} (h : r.SameAnswer R a b) :
    r.shown b = r.shown a := by
  cases r with
  | sim r =>
    cases r with
    | kind | describe => rfl
    | _ =>
      obtain rfl : a = b := h
      rfl
  | load | update => rfl
  | _ =>
    obtain rfl : a = b := h
    rfl

end EventKernel
