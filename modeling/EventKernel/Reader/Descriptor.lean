/-!
# Descriptors

A descriptor refers to the read end of a pipe, to a directory, or to nothing. A pipe is a queue of
bytes; its end of file is reached once it is empty and its write end is closed.
-/

namespace EventKernel

/-- Why a call on a descriptor fails. -/
inductive Errno where
  | badDescriptor | isDirectory | inputOutput | invalidArgument | tooManyFiles
  deriving DecidableEq, Repr

namespace Errno

/-- The symbolic name of an error. -/
def name : Errno → String
  | badDescriptor => "EBADF"
  | isDirectory => "EISDIR"
  | inputOutput => "EIO"
  | invalidArgument => "EINVAL"
  | tooManyFiles => "EMFILE"

/-- What an error is about. -/
def text : Errno → String
  | badDescriptor => "Bad file number"
  | isDirectory => "Is a directory"
  | inputOutput => "I/O error"
  | invalidArgument => "Invalid argument"
  | tooManyFiles => "Too many open files"

/-- The name of an error and what it is about. -/
def message (e : Errno) : String := e.name ++ ": " ++ e.text

end Errno

/-! ### Pipes -/

/-- A pipe. -/
structure Pipe where
  /-- The bytes that were written and not yet read. -/
  bytes : List UInt8 := []
  writerOpen : Bool := true
  /-- Whether a read of the empty pipe gives up instead of waiting. -/
  nonblocking : Bool := false

namespace Pipe

/-- Write bytes; without a write end nothing is written. -/
def write (bytes : List UInt8) (p : Pipe) : Pipe :=
  if p.writerOpen then { p with bytes := p.bytes ++ bytes } else p

/-- Close the write end. -/
def close (p : Pipe) : Pipe := { p with writerOpen := false }

end Pipe

/-! ### Descriptors -/

/-- What a descriptor refers to. -/
inductive Descriptor where
  | pipe (p : Pipe)
  | directory
  /-- The descriptor is not open. -/
  | absent

/-- What waiting on a descriptor tells. -/
inductive Readiness where
  /-- A read would have to wait. -/
  | quiet
  /-- A read would not have to wait. -/
  | ready
  /-- The descriptor is not open. -/
  | invalid
  deriving DecidableEq, Repr

/-- The result of a read. -/
inductive ReadResult where
  /-- Bytes were read; none at the end of file. -/
  | bytes (bs : List UInt8)
  /-- There is nothing to read now. -/
  | again
  | failed (e : Errno)

namespace Descriptor

/-- The number of bytes that wait to be read. -/
def available : Descriptor → Nat
  | pipe p => p.bytes.length
  | directory | absent => 0

/-- What waiting on a descriptor tells now. -/
def readiness : Descriptor → Readiness
  | pipe p => if p.bytes.isEmpty && p.writerOpen then .quiet else .ready
  | directory => .ready
  | absent => .invalid

/-- Read at most `size` bytes; nothing if the read has to wait. -/
def read? (size : Nat) : Descriptor → Option (ReadResult × Descriptor)
  | pipe p =>
    if size = 0 then some (.bytes [], pipe p)
    else if p.bytes.isEmpty && p.writerOpen then
      if p.nonblocking then some (.again, pipe p) else none
    else some (.bytes (p.bytes.take size), pipe { p with bytes := p.bytes.drop size })
  | directory => some (.failed .isDirectory, directory)
  | absent => some (.failed .badDescriptor, absent)

/-- Write to a pipe; other descriptors are not written to. -/
def write (bytes : List UInt8) : Descriptor → Descriptor
  | pipe p => pipe (p.write bytes)
  | directory => directory
  | absent => absent

/-- Close the write end of a pipe. -/
def close : Descriptor → Descriptor
  | pipe p => pipe p.close
  | directory => directory
  | absent => absent

end Descriptor

end EventKernel
