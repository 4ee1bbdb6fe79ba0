import EventKernel.Config.Json
import EventKernel.Lint.DeadCode
import EventKernel.Main
import EventKernel.Proofs.Machine.Clock
import EventKernel.Proofs.Machine.Lockstep
import EventKernel.Proofs.Queue.History
import EventKernel.Proofs.Scheduler.History
import EventKernel.Queue.Operation
import EventKernel.Script.Readers
import EventKernel.Script.Scheduler
import EventKernel.Script.Stage
import EventKernel.Time.Question
import EventKernel.Proofs.Scheduler.Lookup
import EventKernel.Proofs.Simulator.Teardown
import EventKernel.Proofs.Simulator.Turn
import EventKernel.Proofs.Simulator.Life
import EventKernel.Proofs.Machine.Turn
import EventKernel.Proofs.Machine.Handle
import EventKernel.Proofs.Machine.Stack
import EventKernel.Proofs.Machine.Account
import EventKernel.Proofs.Machine.Observer
import EventKernel.Proofs.Machine.Stop
import EventKernel.Proofs.Simulator.Owner
import EventKernel.Proofs.Timer.Trickle
import EventKernel.Proofs.Timer.Watchdog
import EventKernel.Proofs.Machine.Timers
import EventKernel.Proofs.Machine.Watchdog
import EventKernel.Proofs.Simulator.Inbox
import EventKernel.Proofs.Machine.Inbox
import EventKernel.Proofs.Machine.Push
import EventKernel.Proofs.Machine.Arrival
import EventKernel.Proofs.Machine.Teardown
import EventKernel.Proofs.Reader.Stop
import EventKernel.Proofs.Reader.Delivery
import EventKernel.Proofs.Machine.Terminal
import EventKernel.Proofs.Fleet.Isolation
import EventKernel.Proofs.Machine.Pinged
import EventKernel.Proofs.Machine.Resume
import EventKernel.Proofs.Fleet.Ownership
import EventKernel.Proofs.Relay.Rounds
import EventKernel.Proofs.Machine.Suppression
import EventKernel.Proofs.Machine.Doubling
import EventKernel.Proofs.Machine.Cancellation
import EventKernel.Proofs.Queue.Exchange
import EventKernel.Proofs.Scheduler.Exchange
import EventKernel.Proofs.Config.NegativeDelay
import EventKernel.Proofs.Machine.DelayLeft
import EventKernel.Proofs.Text.Utf8
import EventKernel.Proofs.Relay.Transcript
import EventKernel.Proofs.Relay.Fidelity
import EventKernel.Proofs.Reader.WakeUp
import EventKernel.Proofs.Machine.Refusal
import EventKernel.Proofs.Machine.Descent
import EventKernel.Proofs.Command.Hold
import EventKernel.Proofs.Time.Conversion
import EventKernel.Proofs.Config.RoundTrip
import EventKernel.Proofs.Queue.Calendar.LoadFactor
import EventKernel.Proofs.Queue.Calendar.Position
import EventKernel.Proofs.Lint.Workspace
import EventKernel.Proofs.Relay.Summary
