import EventKernel.Event.Entry

/-!
# Events and their handles

An event is work due at a time. It is stored in a numbered slot and carries the sequence number of
its insertion, which is never used again; a handle names the slot and the sequence number, so a
handle whose event is gone cannot name the next event of the slot. Events that run at teardown are
named by their sequence number alone.
-/

namespace EventKernel

/-! ### Contexts -/

/-- The number of the entity on whose behalf an event runs. -/
structure ContextId where
  raw : UInt32
  deriving DecidableEq, Repr

namespace ContextId

/-- The context of code that runs outside any event. -/
def none : ContextId := ⟨4294967295⟩

instance : Inhabited ContextId := ⟨none⟩

/-- Whether a context is that of code outside any event. -/
def isNone (c : ContextId) : Bool := c = none

def text (c : ContextId) : String :=
  if c.isNone then "ctx:none" else "ctx:" ++ toString c.raw.toNat

end ContextId

/-! ### Handles -/

/-- The name of an event: a stored one by slot and sequence number, a teardown event by its
sequence number. -/
inductive EventId where
  | queued (slot sequence : Nat)
  | destroy (sequence : Nat)
  deriving DecidableEq, Repr

namespace EventId

/-- The handle that names nothing; sequence numbers start at one. -/
def detached : EventId := queued 0 0

instance : Inhabited EventId := ⟨detached⟩

/-- The sequence number in a handle. -/
def sequence : EventId → Nat
  | queued _ n => n
  | destroy n => n

/-- Whether a handle was never given out. -/
def isDetached (id : EventId) : Bool := id.sequence = 0

/-- Whether a handle names a teardown event. -/
def isDestroy : EventId → Bool
  | queued _ _ => false
  | destroy n => n ≠ 0

/-- The handle of the event an entry stands for. -/
def ofEntry (e : Entry) : EventId := queued e.slot e.key.sequence

/-- The text of a handle. -/
def text : EventId → String
  | queued slot n => "E#" ++ toString n ++ "@" ++ toString slot
  | destroy n => "E#" ++ toString n ++ "@destroy"

end EventId

/-! ### Records -/

/-- A stored event with the work `task`. -/
structure Event (α : Type) where
  key : EventKey
  context : ContextId
  task : α
  cancelled : Bool := false

/-- What an observer learns about an event that is about to run. -/
structure EventInfo where
  id : EventId
  time : Time
  context : ContextId

end EventKernel
