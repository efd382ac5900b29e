import Overseer.Capability.Basic
import Overseer.Capability.Call
import Overseer.Cli.Arguments
import Overseer.Cli.Execute
import Overseer.Command.Capture
import Overseer.Command.Child
import Overseer.Command.Executor
import Overseer.Command.Host
import Overseer.Command.Pipe
import Overseer.Command.Run
import Overseer.Config.Basic
import Overseer.Config.Decode
import Overseer.Config.File
import Overseer.Config.Storage
import Overseer.Cost.Basic
import Overseer.Cost.Budget
import Overseer.Cost.Estimator
import Overseer.Decimal.Binary
import Overseer.Decimal.Fixed
import Overseer.Decimal.Layout
import Overseer.Decimal.Nearest
import Overseer.Decimal.Scaled
import Overseer.Decimal.Shortest
import Overseer.Digest
import Overseer.Disk.Basic
import Overseer.Disk.Path
import Overseer.Disk.Tree
import Overseer.Document.Basic
import Overseer.Document.Decode
import Overseer.Duration
import Overseer.Event.Basic
import Overseer.Event.Channel
import Overseer.Failure.Noise
import Overseer.Failure.Signature
import Overseer.Healing.Diagnosis
import Overseer.Healing.Prompt
import Overseer.Healing.Report
import Overseer.Healing.Run
import Overseer.Healing.Session
import Overseer.Host.Effect
import Overseer.Host.Format
import Overseer.Host.Programs
import Overseer.Host.Shell.Arithmetic
import Overseer.Host.Shell.Capture
import Overseer.Host.Shell.Node
import Overseer.Host.Shell.Reader
import Overseer.Host.Shell.Redirects
import Overseer.Host.Shell.Run
import Overseer.Host.Shell.State
import Overseer.Host.Tool
import Overseer.Http.Basic
import Overseer.Http.Endpoint
import Overseer.Http.Feed
import Overseer.Http.MediaType
import Overseer.Http.Service
import Overseer.Http.Submission
import Overseer.Json.Basic
import Overseer.Json.Lexer
import Overseer.Json.Printer
import Overseer.Json.Reader
import Overseer.Keyed
import Overseer.Main
import Overseer.Proofs.Capability.Call
import Overseer.Proofs.Capability.Rehearsal
import Overseer.Proofs.Command.Capture
import Overseer.Proofs.Command.Stop
import Overseer.Proofs.Config.Basic
import Overseer.Proofs.Config.Decode
import Overseer.Proofs.Config.File
import Overseer.Proofs.Config.Storage
import Overseer.Proofs.Cost.Exact
import Overseer.Proofs.Cost.Ordered
import Overseer.Proofs.Decimal.Nearest
import Overseer.Proofs.Decimal.Packed
import Overseer.Proofs.Decimal.Rounding
import Overseer.Proofs.Decimal.Shortest
import Overseer.Proofs.Decimal.Whole
import Overseer.Proofs.Disk.Directories
import Overseer.Proofs.Disk.Path
import Overseer.Proofs.Disk.Tree
import Overseer.Proofs.Document.Decode
import Overseer.Proofs.Document.RoundTrip
import Overseer.Proofs.Document.Value
import Overseer.Proofs.Event.Audience
import Overseer.Proofs.Failure.Clean
import Overseer.Proofs.Failure.Layout
import Overseer.Proofs.Failure.Refill
import Overseer.Proofs.Failure.Reflow
import Overseer.Proofs.Failure.Stable
import Overseer.Proofs.Healing.Bearing
import Overseer.Proofs.Healing.Budget
import Overseer.Proofs.Healing.Course
import Overseer.Proofs.Healing.Diagnosis
import Overseer.Proofs.Healing.Iteration
import Overseer.Proofs.Healing.Overrun
import Overseer.Proofs.Healing.Shape
import Overseer.Proofs.Healing.Stand
import Overseer.Proofs.Healing.Stop
import Overseer.Proofs.Healing.Trace
import Overseer.Proofs.Http.Feed
import Overseer.Proofs.Json.Lexer
import Overseer.Proofs.Json.Reader
import Overseer.Proofs.Keyed
import Overseer.Proofs.Lists
import Overseer.Proofs.Prompt.Reduction
import Overseer.Proofs.Queue.Basic
import Overseer.Proofs.Queue.Ledger
import Overseer.Proofs.Queue.Page
import Overseer.Proofs.Queue.Wakeup
import Overseer.Proofs.System.Abort
import Overseer.Proofs.System.Accounts
import Overseer.Proofs.System.Advance
import Overseer.Proofs.System.Calls
import Overseer.Proofs.System.Clearance
import Overseer.Proofs.System.Custody
import Overseer.Proofs.System.Diary
import Overseer.Proofs.System.Ending
import Overseer.Proofs.System.Inputs
import Overseer.Proofs.System.Landing
import Overseer.Proofs.System.Leftover
import Overseer.Proofs.System.Loss
import Overseer.Proofs.System.Marks
import Overseer.Proofs.System.Passage
import Overseer.Proofs.System.Private
import Overseer.Proofs.System.Pulse
import Overseer.Proofs.System.Reasons
import Overseer.Proofs.System.Replay
import Overseer.Proofs.System.Run
import Overseer.Proofs.System.Sane
import Overseer.Proofs.System.Scene
import Overseer.Proofs.System.Silence
import Overseer.Proofs.System.Sound
import Overseer.Proofs.System.Stall
import Overseer.Proofs.System.Standing
import Overseer.Proofs.System.Sweep
import Overseer.Proofs.System.Tenure
import Overseer.Proofs.System.Turn
import Overseer.Proofs.System.Verdict
import Overseer.Proofs.System.Views
import Overseer.Proofs.System.Watchdog
import Overseer.Proofs.Table
import Overseer.Proofs.Task.Basic
import Overseer.Proofs.Task.Record
import Overseer.Proofs.Text.Blank
import Overseer.Proofs.Text.Offset
import Overseer.Proofs.Text.Utf8
import Overseer.Proofs.Token
import Overseer.Proofs.Toml.Quoted
import Overseer.Proofs.Toml.Reader
import Overseer.Proofs.Toml.Scalar
import Overseer.Proofs.Toml.Tree
import Overseer.Proofs.Trace.History
import Overseer.Queue.Basic
import Overseer.Queue.Waiter
import Overseer.Routing.Intent
import Overseer.Routing.Plan
import Overseer.Script.Decode
import Overseer.Script.Executor
import Overseer.Script.Gate
import Overseer.Script.Rehearsal
import Overseer.Script.Simulation
import Overseer.System.Basic
import Overseer.System.Operation
import Overseer.System.Worker
import Overseer.Table
import Overseer.Task.Failure
import Overseer.Task.Id
import Overseer.Task.State
import Overseer.Task.Store
import Overseer.Text.Blank
import Overseer.Text.Cut
import Overseer.Text.Digit
import Overseer.Text.Hex
import Overseer.Text.Offset
import Overseer.Text.Ranges
import Overseer.Text.Split
import Overseer.Text.Utf8
import Overseer.Text.Word
import Overseer.Time
import Overseer.Token
import Overseer.Toml.Printer
import Overseer.Toml.Quoted
import Overseer.Toml.Reader
import Overseer.Toml.Scalar
import Overseer.Toml.Tree
import Overseer.Trace.Step
import Overseer.Trace.Tracer
