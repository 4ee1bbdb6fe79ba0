/-!
# Wake-pipes

A thread that waits on a descriptor also waits on a pipe of its own, through which it can be woken.
-/

namespace EventKernel

/-- The pipe through which a thread is woken. Its read end never waits. -/
structure WakePipe where
  /-- The number of unread bytes. -/
  pending : Nat := 0
  writerOpen : Bool := true
  /-- Whether it can be read. -/
  readable : Bool := true
  /-- Whether it can be written to. -/
  writable : Bool := true

namespace WakePipe

/-- Whether waiting on it ends at once. -/
def isReady (w : WakePipe) : Bool := 0 < w.pending || !w.writerOpen

/-- Write a byte; a failure is ignored. -/
def wake (w : WakePipe) : WakePipe :=
  if w.writable then { w with pending := w.pending + 1 } else w

/-- Read all bytes; false if the end of file was found. A pipe that cannot be read counts as
emptied. -/
def drain (w : WakePipe) : Bool × WakePipe :=
  if w.readable then (w.writerOpen, { w with pending := 0 }) else (true, w)

end WakePipe

end EventKernel
