import EventKernel.Queue.Basic

/-!
# Operations on queues

Operations with their answers, so that whole histories of queues can be compared.
-/

namespace EventKernel

/-- An operation on a queue. -/
inductive QueueOp where
  | insert (e : Entry)
  | pop
  | least
  | remove (e : Entry)
  | isEmpty

/-- The answer of an operation. -/
inductive QueueReply where
  | nothing
  | entry (e : Option Entry)
  | flag (b : Bool)
  deriving DecidableEq

namespace Queue

/-- Carry out an operation. -/
def apply (q : Queue) : QueueOp → QueueReply × Queue
  | .insert e => (.nothing, q.insert e)
  | .pop =>
    match q.pop? with
    | none => (.entry none, q)
    | some (e, q) => (.entry (some e), q)
  | .least => (.entry q.least?, q)
  | .remove e =>
    match q.remove e with
    | none => (.flag false, q)
    | some q => (.flag true, q)
  | .isEmpty => (.flag q.isEmpty, q)

/-- Carry out operations in turn: each answer, and the queue behind it. -/
def history (q : Queue) : List QueueOp → List (QueueReply × Queue)
  | [] => []
  | op :: ops =>
    let (a, q) := q.apply op
    (a, q) :: history q ops

end Queue

end EventKernel
