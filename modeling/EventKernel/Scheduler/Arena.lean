import EventKernel.Event.Basic

/-!
# Slots for event records

Records live in numbered slots. A slot that was emptied is the next one to be filled, the one
emptied last first; a new slot is opened only if none is empty. A record is found only under the
sequence number it was stored with.
-/

namespace EventKernel

/-- Records in slots. -/
structure Arena (α : Type) where
  slots : Array (Option (Event α)) := #[]
  /-- The empty slots, the one emptied last in front. -/
  free : List Nat := []
  /-- The number of records. -/
  live : Nat := 0

namespace Arena

variable {α : Type}

/-- The record in a slot, whatever its sequence number. -/
def at? (a : Arena α) (slot : Nat) : Option (Event α) :=
  (a.slots[slot]?).join

/-- The record in a slot if it was stored with the given sequence number. -/
def get? (a : Arena α) (slot sequence : Nat) : Option (Event α) :=
  (a.at? slot).filter (·.key.sequence = sequence)

/-- Store a record; the slot it got is returned too. -/
def insert (ev : Event α) (a : Arena α) : Nat × Arena α :=
  match a with
  | ⟨slots, slot :: free, live⟩ => (slot, ⟨slots.setIfInBounds slot (some ev), free, live + 1⟩)
  | ⟨slots, [], live⟩ => (slots.size, ⟨slots.push (some ev), [], live + 1⟩)

/-- Change the record in a slot. -/
def set (slot : Nat) (ev : Event α) (a : Arena α) : Arena α :=
  { a with slots := a.slots.setIfInBounds slot (some ev) }

/-- Empty a slot. -/
def release (slot : Nat) (a : Arena α) : Arena α :=
  match a with
  | ⟨slots, free, live⟩ => ⟨slots.setIfInBounds slot none, slot :: free, live - 1⟩

/-- Take out the record of a slot if it was stored with the given sequence number. -/
def take (slot sequence : Nat) (a : Arena α) : Option (Event α) × Arena α :=
  match a.get? slot sequence with
  | none => (none, a)
  | some ev => (some ev, a.release slot)

end Arena

end EventKernel
