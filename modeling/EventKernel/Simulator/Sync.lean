import EventKernel.Time.Basic

/-!
# Synchronization modes

A simulator runs alone, or as one partition of a larger run that may only advance a bounded window
ahead of the others. The window can be narrowed but not widened.
-/

namespace EventKernel

/-- How a simulator relates to other partitions. -/
inductive SyncMode where
  | sequential
  | conservative (systemId : UInt32) (lookahead : Time)
  deriving DecidableEq

namespace SyncMode

instance : Inhabited SyncMode := ⟨sequential⟩

/-- The number of the partition, zero for a simulator that runs alone. -/
def systemId : SyncMode → UInt32
  | sequential => 0
  | conservative id _ => id

/-- The window ahead of the other partitions. -/
def lookahead : SyncMode → Time
  | sequential => .never
  | conservative _ window => window

/-- Narrow the window. -/
def boundLookahead (bound : Time) : SyncMode → SyncMode
  | sequential => sequential
  | conservative id window => conservative id (window.earlier bound)

def name : SyncMode → String
  | sequential => "Sequential"
  | conservative _ _ => "Conservative"

/-- The description of a mode. -/
def describe : SyncMode → String
  | sequential => "Sequential"
  | conservative id window =>
    "Conservative \x7b system_id: " ++ toString id.toNat ++ ", lookahead: Time("
      ++ toString window.ticks ++ ") \x7d"

end SyncMode

end EventKernel
