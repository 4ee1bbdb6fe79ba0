import EventKernel.Proofs.Machine.Eager
import EventKernel.Proofs.Machine.Halt
import EventKernel.Proofs.Timer.Interval

/-!
# Passing over cancelled events

The loop takes cancelled events off the queue and goes on, without telling anybody. So its steps up
to the next live event are quiet: nothing is noted of them, and they change nothing but the clock
and what is held of cancelled events. On two simulators that agree, the next live event is the same.
-/

namespace EventKernel

open Simulator (Agree Sound Timely)

variable {K U : Type} {C : Correspondence K} {w v : Matching} {s s' t t' u : Simulator K}
  {id id' : EventId} {ev ev' : Event (Task K)} {q : Scheduler (Task K)} {keys : List EventKey}

/-! ### Simulators -/

namespace Simulator

/-- Some cancelled events were taken off the queue, and the clock may have advanced. -/
structure PassesOver (s t : Simulator K) : Prop where
  unchanged : t = { s with scheduler := t.scheduler, now := t.now }
  kind_eq : t.scheduler.kind = s.scheduler.kind
  live : ∀ id, liveOf (t.find? id) = liveOf (s.find? id)
  held : ∀ {id ev}, t.find? id = some ev → s.find? id = some ev

lemma PassesOver.refl (s : Simulator K) : PassesOver s s := ⟨rfl, rfl, fun _ => rfl, fun h => h⟩

lemma PassesOver.trans (h : PassesOver s t) (h' : PassesOver t u) : PassesOver s u where
  unchanged := by
    rw [h'.unchanged, h.unchanged]
  kind_eq := h'.kind_eq.trans h.kind_eq
  live id := (h'.live id).trans (h.live id)
  held hev := h.held (h'.held hev)

/-- A cancelled event is taken off the queue. -/
lemma Sound.passesOver (h : s.Sound) (hnext : s.scheduler.removeNext = (some (id, ev), q))
    (hcancelled : ev.cancelled = true) (now : Time) :
    PassesOver s { s with scheduler := q, now := now } := by
  obtain ⟨hev, hfind⟩ := h.find?_take hnext now
  have hkind := h.consistent.kind_removeNext
  rw [hnext] at hkind
  refine ⟨rfl, hkind, ?_, ?_⟩
  · intro j
    rw [hfind]
    split
    · next heq =>
      rw [heq, hev, liveOf, liveOf, Option.filter_some, hcancelled]
      rfl
    · rfl
  · intro j other hj
    rw [hfind] at hj
    split at hj
    · cases hj
    · exact hj

/-- Simulators that agree still do so when cancelled events have been passed over on both sides, as
soon as their clocks show the same again. -/
lemma Agree.passOver (h : Agree C w v s t) (hs : PassesOver s s') (ht : PassesOver t t')
    (hsound : s'.Sound) (hsound' : t'.Sound) (now : Time) :
    Agree C w v { s' with now := now } { t' with now := now } := by
  have hevents := h.events.congr hs.live ht.live (fun _ _ => hs.held) (fun _ _ => ht.held)
  have hkind := ht.kind_eq.trans (h.kind_eq.trans hs.kind_eq.symm)
  have heq := hs.unchanged
  have heq' := ht.unchanged
  obtain ⟨x, y, rfl⟩ : ∃ x y, s' = { s with scheduler := x, now := y } := ⟨_, _, heq⟩
  obtain ⟨x', y', rfl⟩ : ∃ x y, t' = { t with scheduler := x, now := y } := ⟨_, _, heq'⟩
  exact { h with
    left := { hsound with }, right := { hsound' with }, events := hevents, kind_eq := hkind,
    now_eq := rfl }


end Simulator

/-! ### What comes next -/

namespace SameLive

variable {f g : EventId → Option (Event (Task K))} {i j n k : Nat}

lemma exists_right (h : SameLive C w v f g) (hev : f (.queued i n) = some ev)
    (hlive : ev.cancelled = false) :
    ∃ j ev', (EventId.queued i n).Matched v (.queued j n) ∧ g (.queued j n) = some ev' ∧
      ev.Matched C w ev' := by
  have hev := liveOf_eq_some_iff.mpr ⟨hev, hlive⟩
  obtain ⟨_, hid⟩ := h.left_total hev
  have hsame := h.live hid
  cases hid with
  | @queued _ _ j hij =>
    rw [hev] at hsame
    generalize hother : liveOf (g (.queued j n)) = o at hsame
    cases hsame with
    | some hsame => exact ⟨j, _, .queued hij, (liveOf_eq_some_iff.mp hother).1, hsame⟩

lemma exists_left (h : SameLive C w v f g) (hev : g (.queued j n) = some ev')
    (hlive : ev'.cancelled = false) :
    ∃ i ev, (EventId.queued i n).Matched v (.queued j n) ∧ f (.queued i n) = some ev ∧
      ev.Matched C w ev' := by
  have hev := liveOf_eq_some_iff.mpr ⟨hev, hlive⟩
  obtain ⟨_, hid⟩ := h.right_total hev
  have hsame := h.live hid
  cases hid with
  | @queued _ i _ hij =>
    rw [hev] at hsame
    generalize hother : liveOf (f (.queued i n)) = o at hsame
    cases hsame with
    | some hsame => exact ⟨i, _, .queued hij, (liveOf_eq_some_iff.mp hother).1, hsame⟩

/-- The first live event is the same on both sides. -/
lemma first (h : SameLive C w v f g) (hev : f (.queued i n) = some ev)
    (hlive : ev.cancelled = false)
    (hfirst : ∀ slot m other, f (.queued slot m) = some other →
      EventId.queued slot m ≠ .queued i n → ev.key < other.key)
    (hev' : g (.queued j k) = some ev') (hlive' : ev'.cancelled = false)
    (hfirst' : ∀ slot m other, g (.queued slot m) = some other →
      EventId.queued slot m ≠ .queued j k → ev'.key < other.key) :
    (EventId.queued i n).Matched v (.queued j k) ∧ ev.Matched C w ev' := by
  obtain ⟨l, other, hid, hother, hsame⟩ := h.exists_right hev hlive
  obtain ⟨l', other', hid', hother', hsame'⟩ := h.exists_left hev' hlive'
  by_cases heq : EventId.queued l n = .queued j k
  · rw [heq] at hid hother
    obtain rfl := Option.some.inj (hother.symm.trans hev')
    exact ⟨hid, hsame⟩
  · -- otherwise each of the two events would lie before the other
    have hne : EventId.queued l' k ≠ .queued i n := fun hl =>
      heq (hid.right_unique (hl ▸ hid'))
    have hlt := hfirst _ _ _ hother' hne
    have hlt' := hfirst' _ _ _ hother heq
    rw [hsame.key_eq] at hlt'
    rw [← hsame'.key_eq] at hlt
    exact absurd hlt (lt_asymm hlt')

end SameLive

namespace Simulator

/-- Unless the loop was asked to stop, it finds an event as long as one is queued. -/
lemma Sound.upcoming?_ne_none (h : s.Sound) (hgoes : s.stopPending = false) {slot n : Nat}
    (hev : s.find? (.queued slot n) = some ev) : s.upcoming? ≠ none := by
  rw [upcoming?, hgoes]
  intro hnone
  have hmem := Arena.mem_entries_of_get? hev
  rw [(h.consistent.removeNext_eq_none hnone).1] at hmem
  cases hmem

/-- Where no cancelled event is in front of a queue, the same event comes next on both sides. -/
lemma rel_upcoming? {keys' : List EventKey} (h : SameLive C w v s.find? t.find?)
    (hstop : t.stopPending = s.stopPending) (hs : s.Sound) (ht : t.Sound) (htimely : s.Timely keys)
    (htimely' : t.Timely keys')
    (hlive : ∀ id ev, s.upcoming? = some (id, ev) → ev.cancelled = false)
    (hlive' : ∀ id ev, t.upcoming? = some (id, ev) → ev.cancelled = false) :
    Option.Rel (fun p q => p.1.Matched v q.1 ∧ p.2.Matched C w q.2) s.upcoming? t.upcoming? := by
  cases hup : s.upcoming? with
  | none =>
    cases hup' : t.upcoming? with
    | none => exact .none
    | some p =>
      obtain ⟨hfind, j, k, hj⟩ := ht.find?_of_upcoming? hup'
      obtain ⟨i, ev, -, hev, -⟩ := h.exists_left (hj ▸ hfind) (hlive' _ _ hup')
      have hgoes := hstop.symm.trans (upcoming?_eq_some_iff.mp hup').1
      exact absurd hup (hs.upcoming?_ne_none hgoes hev)
  | some p =>
    obtain ⟨id, ev⟩ := p
    obtain ⟨hgoes, q, hnext⟩ := upcoming?_eq_some_iff.mp hup
    obtain ⟨hfind, i, n, rfl⟩ := hs.find?_of_upcoming? hup
    cases hup' : t.upcoming? with
    | none =>
      obtain ⟨j, ev', -, hev', -⟩ := h.exists_right hfind (hlive _ _ hup)
      exact absurd hup' (ht.upcoming?_ne_none (hstop.trans hgoes) hev')
    | some p =>
      obtain ⟨id', ev'⟩ := p
      obtain ⟨-, q', hnext'⟩ := upcoming?_eq_some_iff.mp hup'
      obtain ⟨hfind', j, k, rfl⟩ := ht.find?_of_upcoming? hup'
      exact .some (h.first hfind (hlive _ _ hup)
        (fun _ _ _ hother => htimely.key_lt_of_removeNext hs hnext hother) hfind' (hlive' _ _ hup')
        (fun _ _ _ hother => htimely'.key_lt_of_removeNext ht hnext' hother))

end Simulator

namespace Machine

variable {code : Code K U} {a b : Machine K U} {n : Nat}

/-! ### Quiet steps -/

/-- What is noted of the next step. -/
def notes (a : Machine K U) : List (Note K) :=
  a.stack.head?.toList.flatMap fun f => f.notes a.sim a.memory

lemma notes_cons (f : Frame K U) (s : Simulator K) (m : Memory K U) (rest : List (Frame K U))
    (broken : Bool) : notes ⟨s, m, f :: rest, broken⟩ = f.notes s m :=
  List.flatMap_singleton ..

/-- What is noted of some steps. -/
def journal (code : Code K U) : Nat → Machine K U → List (Note K)
  | 0, _ => []
  | n + 1, a => a.notes ++ journal code n (step code a)

/-- Steps of which nothing is noted. -/
inductive Quietly (code : Code K U) : Nat → Machine K U → Machine K U → Prop where
  | refl (a : Machine K U) : Quietly code 0 a a
  | head {n : Nat} {a b : Machine K U} (hnotes : a.notes = []) (hgoes : a.isDone = false)
      (h : Quietly code n (step code a) b) : Quietly code (n + 1) a b

lemma Quietly.add (h : Quietly code n a b) (k : Nat) :
    journal code (n + k) a = journal code k b ∧ runFor code (n + k) a = runFor code k b := by
  induction h with
  | refl a =>
    rw [Nat.zero_add]
    exact ⟨rfl, rfl⟩
  | @head n a b hnotes hgoes _ ih =>
    rw [Nat.add_right_comm, journal, runFor, hnotes, List.nil_append, if_neg (by simp [hgoes])]
    exact ih

/-- In the midst of quiet steps nothing has been noted, and something is left to do. -/
lemma Quietly.of_le {k : Nat} (h : Quietly code n a b) (hk : k ≤ n) :
    journal code k a = [] ∧ ((runFor code k a).isDone = true → b.isDone = true) := by
  induction h generalizing k with
  | refl a =>
    obtain rfl := Nat.le_zero.mp hk
    exact ⟨rfl, id⟩
  | @head n a b hnotes hgoes _ ih =>
    cases k with
    | zero =>
      refine ⟨rfl, fun hdone => ?_⟩
      rw [runFor, hgoes] at hdone
      cases hdone
    | succ k =>
      rw [journal, runFor, hnotes, List.nil_append, if_neg (by simp [hgoes])]
      exact ih (Nat.le_of_succ_le_succ hk)

lemma Quietly.going (h : Quietly code n a b) (ha : a.Going) : b.Going := by
  induction h with
  | refl => exact ha
  | head _ _ _ ih => exact ih (ha.step code)

/-! ### Passing over -/

variable {m : Memory K U} {rest : List (Frame K U)}

/-- Nothing is noted of an event that is passed over. -/
lemma quietly_of_cancelled (code : Code K U) (hgoing : Going ⟨s, m, .next :: rest, false⟩)
    (hempty : s.inbox.events = #[]) (hsome : s.upcoming? = some (id, ev))
    (hcancelled : ev.cancelled = true) :
    ∃ t, t.scheduler.arena.entries.length < s.scheduler.arena.entries.length ∧ s.PassesOver t ∧
      t.inbox.events = #[] ∧ Going ⟨t, m, .next :: rest, false⟩ ∧
      ∀ {n b}, Quietly code n ⟨t, m, .next :: rest, false⟩ b →
        Quietly code (n + 2) ⟨s, m, .next :: rest, false⟩ b := by
  obtain ⟨keys, htimely⟩ := hgoing.timely
  have hround := round_takeNext code m rest htimely.consistent htimely.now_le
  generalize htake : takeNext code s m rest = a at hround
  cases hround with
  | finish hnone => cases hnone.symm.trans hsome
  | start hsome' _ hlive =>
    cases hsome'.symm.trans hsome
    cases hlive.symm.trans hcancelled
  | @pass _ _ q hsome' hnext _ =>
    cases hsome'.symm.trans hsome
    have hpass := hgoing.attended.sound.passesOver hnext hcancelled ev.key.time
    have hlen := htimely.consistent.length_entries_of_removeNext hnext
    have hdrain := Simulator.drainInbox_of_isEmpty
      (s := { s with scheduler := q, now := ev.key.time }) hempty
    have hloop : step code ⟨s, m, .next :: rest, false⟩ = _ := htake
    have hgoing' := (hgoing.step code).step code
    rw [hloop, step, stepFrame, hdrain] at hgoing'
    refine ⟨{ s with scheduler := q, now := ev.key.time }, ?_, hpass, hempty, hgoing', ?_⟩
    · exact Nat.lt_of_lt_of_eq (Nat.lt_succ_self _) hlen.symm
    · intro n b h
      refine .head ?_ rfl (hloop ▸ .head rfl rfl ?_)
      · rw [notes_cons, Frame.notes, hsome, Option.toList_some, List.flatMap_singleton,
          EventId.invocation, if_pos hcancelled]
      · rw [step, stepFrame, hdrain]
        exact h

/-- With an empty inbox the loop comes quietly to a live event, or to its end. -/
lemma exists_quietly (code : Code K U) (hgoing : Going ⟨s, m, .next :: rest, false⟩)
    (hempty : s.inbox.events = #[]) :
    ∃ n t, Quietly code n ⟨s, m, .next :: rest, false⟩ ⟨t, m, .next :: rest, false⟩ ∧
      s.PassesOver t ∧ ∀ id ev, t.upcoming? = some (id, ev) → ev.cancelled = false := by
  induction hlen : s.scheduler.arena.entries.length using Nat.strong_induction_on
    generalizing s with
  | _ len ih =>
    by_cases hlive : ∀ id ev, s.upcoming? = some (id, ev) → ev.cancelled = false
    · exact ⟨0, s, .refl _, .refl s, hlive⟩
    · push Not at hlive
      obtain ⟨id, ev, hsome, hcancelled⟩ := hlive
      obtain ⟨t, hlt, hpass, hempty', hgoing', hquiet⟩ :=
        quietly_of_cancelled code hgoing hempty hsome (by simpa using hcancelled)
      obtain ⟨n, u, hmore, hpass', hlive⟩ := ih _ (hlen ▸ hlt) hgoing' hempty' rfl
      exact ⟨n + 2, u, hquiet hmore, hpass.trans hpass', hlive⟩

end Machine

end EventKernel
