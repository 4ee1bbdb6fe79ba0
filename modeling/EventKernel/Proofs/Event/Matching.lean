import Mathlib.Data.List.Forall2
import Mathlib.Logic.Relator
import Mathlib.Order.Basic
import Mathlib.Tactic.Lemma
import EventKernel.Event.Basic

/-!
# Which slots correspond

Two runs can insert the same events in the same order and yet store them in different slots, if one
of them empties a slot earlier than the other. Their handles then have the same sequence numbers and
different slots. A matching tells, for each sequence number, which slots correspond. It is told in
the course of the two runs, so it grows; what is said about names and states in terms of a matching
goes on to hold as it grows.
-/

namespace EventKernel

/-- Which slot of one run corresponds to which slot of another, for each sequence number. -/
structure Matching where
  slots (sequence : Nat) : Nat → Nat → Prop
  biUnique (sequence : Nat) : Relator.BiUnique (slots sequence)
  detached : slots 0 0 0

namespace Matching

instance : Preorder Matching := Preorder.lift slots

variable {w : Matching} {n i j : Nat}

/-- One more pair of slots. -/
def insert (w : Matching) (n i j : Nat) (hleft : ∀ k, w.slots n k j → k = i)
    (hright : ∀ k, w.slots n i k → k = j) : Matching where
  slots m k l := w.slots m k l ∨ m = n ∧ k = i ∧ l = j
  biUnique m := by
    constructor
    · rintro a b c (ha | ⟨rfl, rfl, rfl⟩) (hb | ⟨hm, rfl, hc⟩)
      · exact (w.biUnique m).1 ha hb
      · subst hm hc
        exact hleft a ha
      · exact (hleft b hb).symm
      · rfl
    · rintro a b c (hb | ⟨rfl, rfl, rfl⟩) (hc | ⟨hm, ha, rfl⟩)
      · exact (w.biUnique m).2 hb hc
      · subst hm ha
        exact hright b hb
      · exact (hright c hc).symm
      · rfl
  detached := Or.inl w.detached

lemma le_insert (hleft : ∀ k, w.slots n k j → k = i) (hright : ∀ k, w.slots n i k → k = j) :
    w ≤ w.insert n i j hleft hright :=
  fun _ _ _ h => Or.inl h

/-- The slots of some handles, which correspond to themselves. -/
def same (P : EventId → Prop) : Matching where
  slots n i j := j = i ∧ (n = 0 ∨ P (.queued i n))
  biUnique _ := ⟨fun _ _ _ h h' => h.1.symm.trans h'.1, fun _ _ _ h h' => h.1.trans h'.1.symm⟩
  detached := ⟨rfl, Or.inl rfl⟩

lemma same_le_same {P Q : EventId → Prop} (h : ∀ id, P id → Q id) : same P ≤ same Q :=
  fun _ _ _ hij => ⟨hij.1, hij.2.imp_right (h _)⟩

end Matching

/-! ### Handles -/

/-- Two handles that differ in slots that correspond. -/
inductive EventId.Matched (w : Matching) : EventId → EventId → Prop where
  | queued {n i j : Nat} (h : w.slots n i j) : Matched w (.queued i n) (.queued j n)
  | destroy (n : Nat) : Matched w (.destroy n) (.destroy n)

namespace EventId

variable {w v : Matching} {id id' x y : EventId}

lemma matched_detached (w : Matching) : detached.Matched w detached := .queued w.detached

lemma Matched.mono (h : id.Matched w id') (hle : w ≤ v) : id.Matched v id' := by
  cases h with
  | queued h => exact .queued (hle _ _ _ h)
  | destroy n => exact .destroy n

lemma Matched.left_unique (h : x.Matched w id) (h' : y.Matched w id) : x = y := by
  cases h with
  | queued h =>
    cases h' with
    | queued h' => rw [(w.biUnique _).1 h h']
  | destroy n =>
    cases h'
    rfl

lemma Matched.right_unique (h : id.Matched w x) (h' : id.Matched w y) : x = y := by
  cases h with
  | queued h =>
    cases h' with
    | queued h' => rw [(w.biUnique _).2 h h']
  | destroy n =>
    cases h'
    rfl

lemma Matched.eq_iff (h : id.Matched w id') (hxy : x.Matched w y) : x = id ↔ y = id' := by
  constructor
  · rintro rfl
    exact hxy.right_unique h
  · rintro rfl
    exact hxy.left_unique h

lemma Matched.eq_of_same {P : EventId → Prop} (h : id.Matched (.same P) id') : id' = id := by
  cases h with
  | queued h => rw [h.1]
  | destroy n => rfl

lemma matched_same {P : EventId → Prop} (h : id.sequence = 0 ∨ P id) : id.Matched (.same P) id := by
  cases id with
  | queued i n => exact .queued ⟨rfl, h⟩
  | destroy n => exact .destroy n

/-- The pair that was added is the only new one. -/
lemma matched_insert_iff {n i j : Nat} (hleft : ∀ k, w.slots n k j → k = i)
    (hright : ∀ k, w.slots n i k → k = j) :
    x.Matched (w.insert n i j hleft hright) y ↔
      x.Matched w y ∨ x = .queued i n ∧ y = .queued j n := by
  constructor
  · rintro (h | n)
    · rcases h with h | ⟨rfl, rfl, rfl⟩
      · exact Or.inl (.queued h)
      · exact Or.inr ⟨rfl, rfl⟩
    · exact Or.inl (.destroy n)
  · rintro (h | ⟨rfl, rfl⟩)
    · exact h.mono (Matching.le_insert hleft hright)
    · exact .queued (Or.inr ⟨rfl, rfl, rfl⟩)

/-- A pair of a larger matching can be added to a smaller one. -/
lemma Matched.exists_insert (h : id.Matched v id') (hle : w ≤ v) :
    ∃ u, w ≤ u ∧ u ≤ v ∧ id.Matched u id' ∧
      ∀ x y, x.Matched u y → x.Matched w y ∨ x = id ∧ y = id' := by
  cases h with
  | @queued n i j h =>
    have hleft : ∀ k, w.slots n k j → k = i := fun k hk => (v.biUnique n).1 (hle _ _ _ hk) h
    have hright : ∀ k, w.slots n i k → k = j := fun k hk => (v.biUnique n).2 (hle _ _ _ hk) h
    refine ⟨w.insert n i j hleft hright, Matching.le_insert hleft hright, ?_, ?_, ?_⟩
    · rintro m k l (hkl | ⟨rfl, rfl, rfl⟩)
      · exact hle m k l hkl
      · exact h
    · exact .queued (Or.inr ⟨rfl, rfl, rfl⟩)
    · exact fun x y hxy => (matched_insert_iff hleft hright).mp hxy
  | destroy n =>
    exact ⟨w, le_refl w, hle, .destroy n, fun x y hxy => Or.inl hxy⟩

end EventId

/-! ### Everything else -/

/-- What it means for two things to be the same but for slots that correspond. -/
structure Correspondence (X : Type) where
  rel : Matching → X → X → Prop
  mono {w v : Matching} {x y : X} (h : rel w x y) (hle : w ≤ v) : rel v x y

lemma rel_option_mono {X Y : Type} {R S : X → Y → Prop} (hRS : ∀ x y, R x y → S x y)
    {a : Option X} {b : Option Y} (h : Option.Rel R a b) : Option.Rel S a b := by
  cases h with
  | some h => exact .some (hRS _ _ h)
  | none => exact .none

lemma rel_option_map {X Y : Type} {R S : X → Y → Prop} {f : X → X} {g : Y → Y}
    (hRS : ∀ x y, R x y → S (f x) (g y)) {a : Option X} {b : Option Y} (h : Option.Rel R a b) :
    Option.Rel S (a.map f) (b.map g) := by
  cases h with
  | some h => exact .some (hRS _ _ h)
  | none => exact .none

lemma rel_option_cases {X Y : Type} {R : X → Y → Prop} {a : Option X} {b : Option Y}
    (h : Option.Rel R a b) : a = none ∧ b = none ∨ ∃ x y, a = some x ∧ b = some y ∧ R x y := by
  cases h with
  | some h => exact Or.inr ⟨_, _, rfl, rfl, h⟩
  | none => exact Or.inl ⟨rfl, rfl⟩

lemma rel_option_or {X Y : Type} {R : X → Y → Prop} {a : Option X} {b : Option Y} {x : X} {y : Y}
    (h : Option.Rel R a b) (hxy : R x y) : Option.Rel R (a.or (some x)) (b.or (some y)) := by
  cases h with
  | some h => exact .some h
  | none => exact .some hxy

namespace Correspondence

variable {X : Type}

/-- Things that have nothing to do with slots. -/
def eq (X : Type) : Correspondence X where
  rel _ := (· = ·)
  mono h _ := h

def handle : Correspondence EventId where
  rel := EventId.Matched
  mono := EventId.Matched.mono

def option (C : Correspondence X) : Correspondence (Option X) where
  rel w := Option.Rel (C.rel w)
  mono h hle := rel_option_mono (fun _ _ hxy => C.mono hxy hle) h

end Correspondence

end EventKernel
