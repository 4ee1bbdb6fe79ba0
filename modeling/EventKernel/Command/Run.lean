import EventKernel.Command.Basic
import EventKernel.Command.Hold
import EventKernel.Command.Relay
import EventKernel.Config.Environment

/-!
# Running commands

A command ends with a code, and with what it writes to the standard output and to the standard
error.

The options that set the levels of the log are read, and a word that names no level is refused. The
log itself is left out, on the console as in its file, since its lines carry the time of day. The
console is the standard output, so a level that lets lines of the log through adds them to what is
given here. At the default levels only a relay has such a line, the warning of its reader at the end
of the input, and `--reader-log-level error` in front of the command silences it. The variable
`RUST_LOG`, which takes the place of these levels, is not read.
-/

namespace EventKernel

/-- What a command came to. -/
structure CommandResult where
  code : UInt32
  /-- What the command prints, without the lines of the log that the console shows. -/
  output : String := ""
  errors : String := ""

namespace CommandResult

/-- A command that succeeded. -/
def success (output : String) : CommandResult := { code := 0, output }

/-- A command that failed. -/
def failure (e : CommandError) : CommandResult :=
  { code := 1, errors := "Error: " ++ e.message ++ "\n" }

/-- The result of a wrong command line. -/
def usage : CommandResult := { code := 2 }

end CommandResult

namespace Command

/-- Print the effective settings. -/
def showConfig (c : Config) : Except CommandError String :=
  match c.validate with
  | .error e => .error (.badConfig e)
  | .ok _ => .ok (c.toJson.pretty ++ "\n")

/-- Carry out a command. The input of a relay arrives while the loop waits. -/
def perform (env : Environment) (input : List UInt8) : Command → Except CommandError String
  | order kind json => .ok (DispatchOrder.report kind json)
  | bench events population seed kind => .ok (Hold.report events population seed kind)
  | relay latencyMicros context =>
    Relay.relay (.ofEnvironment env) latencyMicros context [[]] [input]
  | config => showConfig (.ofEnvironment env)

/-- Read a command line and carry it out. The levels of the log make no difference here, since the
output is without its lines. -/
def run (words : List String) (env : Environment) (input : List UInt8) : CommandResult :=
  match read? words with
  | none => .usage
  | some c =>
    match c.perform env input with
    | .ok output => .success output
    | .error e => .failure e

end Command

end EventKernel
