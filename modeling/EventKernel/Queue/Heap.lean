import EventKernel.Event.Entry

/-!
# Leftist heaps of entries

Every node comes before its children, and the right spine is the shortest way down. All changes are
merges along right spines. Taking an entry out of the middle rebuilds the heap without it.
-/

namespace EventKernel

/-- A binary tree of entries with the length of its right spine in each node. -/
inductive Heap where
  | leaf
  | node (rank : Nat) (entry : Entry) (left right : Heap)

namespace Heap

/-- The length of the right spine. -/
def rank : Heap → Nat
  | leaf => 0
  | node r _ _ _ => r

/-- The number of entries. -/
def size : Heap → Nat
  | leaf => 0
  | node _ _ l r => l.size + r.size + 1

/-- A node over two heaps, the one with the shorter spine on the right. -/
def join (e : Entry) (a b : Heap) : Heap :=
  if b.rank ≤ a.rank then node (b.rank + 1) e a b else node (a.rank + 1) e b a

/-- The heap with the entries of both. -/
def merge : Heap → Heap → Heap
  | leaf, b => b
  | a, leaf => a
  | node r x l₁ r₁, node s y l₂ r₂ =>
    if y.before x then join y l₂ (merge (node r x l₁ r₁) r₂)
    else join x l₁ (merge r₁ (node s y l₂ r₂))
termination_by a b => a.size + b.size
decreasing_by all_goals simp only [size]; omega

/-- Add an entry. -/
def insert (e : Entry) (h : Heap) : Heap :=
  merge (node 1 e leaf leaf) h

def least? : Heap → Option Entry
  | leaf => none
  | node _ e _ _ => some e

/-- Take out the least entry. -/
def pop? : Heap → Option (Entry × Heap)
  | leaf => none
  | node _ e l r => some (e, merge l r)

/-- The entries, parents in front of their children. -/
def toList : Heap → List Entry
  | leaf => []
  | node _ e l r => e :: (l.toList ++ r.toList)

/-- The heap of the given entries. -/
def ofList (es : List Entry) : Heap :=
  es.foldl (fun h e => h.insert e) leaf

/-- Take out every copy of an entry; `none` if there is none. -/
def remove (e : Entry) (h : Heap) : Option Heap :=
  let rest := h.toList.filter (· ≠ e)
  if rest.length = h.size then none else some (ofList rest)

theorem size_join (e : Entry) (a b : Heap) : (join e a b).size = a.size + b.size + 1 := by
  unfold join
  split
  · simp only [size]
  · simp only [size]
    omega

theorem size_merge (a b : Heap) : (merge a b).size = a.size + b.size := by
  fun_induction merge a b with
  | case1 => simp [size]
  | case2 => simp [size]
  | case3 r x l₁ r₁ s y l₂ r₂ _ ih => simp only [size_join, ih, size]; omega
  | case4 r x l₁ r₁ s y l₂ r₂ _ ih => simp only [size_join, ih, size]; omega

theorem size_of_pop? {h k : Heap} {e : Entry} (hp : h.pop? = some (e, k)) : k.size < h.size := by
  cases h with
  | leaf => simp [pop?] at hp
  | node r x a b =>
    simp only [pop?, Option.some.injEq, Prod.mk.injEq] at hp
    obtain ⟨rfl, rfl⟩ := hp
    simp only [size_merge, size]
    omega

end Heap

end EventKernel
