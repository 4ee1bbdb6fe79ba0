import EventKernel.Command.Run

/-!
# The program

Reads the command line, the environment and the standard input, and writes what the command came to.
It keeps no log.
-/

open EventKernel

/-- The environment variables that hold settings. -/
def settingNames : List String :=
  ["EVENTIDE_SCHEDULER", "EVENTIDE_RESOLUTION", "EVENTIDE_STOP_AFTER_NS", "EVENTIDE_READ_BUFFER"]

/-- The settings in the environment. -/
def readEnvironment : IO Environment :=
  settingNames.filterMapM fun name => do
    return (← IO.getEnv name).map fun value => (name, value.toUTF8.toList)

partial def readAllBytes (input : IO.FS.Stream) (read : ByteArray) : IO ByteArray := do
  let bytes ← input.read 65536
  if bytes.isEmpty then return read else readAllBytes input (read ++ bytes)

/-- The standard input, if the command line asks for it. -/
def readInput (words : List String) : IO (List UInt8) := do
  match Command.read? words with
  | some (.relay _ _) => return (← readAllBytes (← IO.getStdin) .empty).toList
  | _ => return []

/-- Run the command on the command line. -/
def main (words : List String) : IO UInt32 := do
  let result := Command.run words (← readEnvironment) (← readInput words)
  (← IO.getStdout).putStr result.output
  (← IO.getStderr).putStr result.errors
  return result.code
