import EventKernel.Reader.Descriptor

/-!
# Strategies of reading

Each time its descriptor is ready, a reader has a strategy fill its buffer. A strategy reads at most
once, and says how much of the buffer is to be handed on.
-/

namespace EventKernel

/-! ### Buffers -/

/-- A buffer of a fixed size. It starts with `front` and has zeros behind it. -/
structure Buffer where
  size : Nat
  front : List UInt8 := []

namespace Buffer

/-- Overwrite the start of a buffer. -/
def fill (bytes : List UInt8) (b : Buffer) : Buffer :=
  { b with front := bytes ++ b.front.drop bytes.length }

/-- The first `n` bytes, or all if there are fewer. -/
def take (n : Nat) (b : Buffer) : List UInt8 :=
  let front := b.front.take (min n b.size)
  front ++ List.replicate (min n b.size - front.length) 0

end Buffer

/-! ### Outcomes -/

/-- What a strategy did. -/
inductive ReadOutcome where
  /-- The first `n` bytes of the buffer are to be handed on. -/
  | data (n : Nat)
  /-- The end of file was reached. -/
  | closed
  /-- There is nothing to hand on. -/
  | skip
  | failed (e : Errno)
  deriving DecidableEq, Repr

/-- Read once from a descriptor into a buffer, at most `limit` bytes; nothing if the read has to
wait. -/
def readOnce? (limit : Nat) (d : Descriptor) (b : Buffer) :
    Option (ReadOutcome × Buffer × Descriptor) :=
  match d.read? (min limit b.size) with
  | none => none
  | some (.bytes [], d) => some (.closed, b, d)
  | some (.bytes bytes, d) => some (.data bytes.length, b.fill bytes, d)
  | some (.again, d) => some (.skip, b, d)
  | some (.failed e, d) => some (.failed e, b, d)

/-! ### Strategies -/

/-- How to fill the buffer. -/
inductive Strategy where
  /-- Read once. -/
  | single
  /-- Read one byte, and skip it if it is the given one. -/
  | skipping (byte : UInt8)
  /-- Read once, but only so many bytes. -/
  | atMost (limit : Nat)
  /-- Read once, and hand the whole buffer on. -/
  | whole
  /-- Read once, and hand an empty chunk on. -/
  | empty
  /-- Report the end of file without a read. -/
  | closed
  /-- Fail without a read. -/
  | failing (e : Errno)
  deriving DecidableEq, Repr

namespace Strategy

/-- Fill the buffer; nothing if a read has to wait. -/
def read? (d : Descriptor) (b : Buffer) :
    Strategy → Option (ReadOutcome × Buffer × Descriptor)
  | single => readOnce? b.size d b
  | skipping byte => (readOnce? 1 d b).map fun
    | (.data n, b, d) => (if b.take 1 = [byte] then .skip else .data n, b, d)
    | other => other
  | atMost limit => readOnce? limit d b
  | whole => (readOnce? b.size d b).map fun
    | (.data _, b, d) => (.data b.size, b, d)
    | other => other
  | empty => (readOnce? b.size d b).map fun
    | (.data _, b, d) => (.data 0, b, d)
    | other => other
  | closed => some (.closed, b, d)
  | failing e => some (.failed e, b, d)

end Strategy

end EventKernel
