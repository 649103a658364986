import Rota.Agent.Assembly
import Rota.Agent.Run
import Rota.Assoc
import Rota.Calendar.Date
import Rota.Calendar.Json
import Rota.Calendar.Moment
import Rota.Calendar.Rfc3339
import Rota.Calendar.Stamp
import Rota.Json.Basic
import Rota.Json.Decode
import Rota.Json.Reader
import Rota.Json.Writer
import Rota.Metrics.Basic
import Rota.Module.Behaviour
import Rota.Module.Command
import Rota.Module.Error
import Rota.Module.Output
import Rota.Number.Binary64
import Rota.Number.Literal
import Rota.Number.Shortest
import Rota.Program.Cat
import Rota.Program.Disk
import Rota.Program.Echo
import Rota.Program.Escape
import Rota.Program.Format
import Rota.Program.Head
import Rota.Program.Options
import Rota.Program.Outcome
import Rota.Program.Quoted
import Rota.Program.Sleep
import Rota.Program.Stream
import Rota.Program.Tool
import Rota.Program.Tr
import Rota.Proofs.Calendar.Gregorian
import Rota.Proofs.Calendar.Moment
import Rota.Proofs.Calendar.Month
import Rota.Proofs.Schedule.Ahead
import Rota.Proofs.Schedule.Dates
import Rota.Proofs.Schedule.Daylight
import Rota.Proofs.Schedule.Fingerprint
import Rota.Proofs.Schedule.Grid
import Rota.Proofs.Schedule.Idempotent
import Rota.Proofs.Schedule.Line
import Rota.Proofs.Schedule.Monotone
import Rota.Proofs.Except
import Rota.Proofs.Schedule.Normalize
import Rota.Proofs.Schedule.Order
import Rota.Proofs.Schedule.Phase
import Rota.Proofs.Schedule.Prompt
import Rota.Proofs.Schedule.Resolve
import Rota.Proofs.Schedule.Restart
import Rota.Proofs.Schedule.Utc
import Rota.Proofs.Zone.Changes
import Rota.Proofs.Zone.Daylight
import Rota.Proofs.Zone.Regular
import Rota.Report.Basic
import Rota.Report.Channel
import Rota.Report.Delivery
import Rota.Report.Forwarder
import Rota.Runner.Basic
import Rota.Runner.Measure
import Rota.Runner.Notice
import Rota.Runner.Shutdown
import Rota.Schedule.Basic
import Rota.Schedule.Config
import Rota.Schedule.Error
import Rota.Schedule.Interval
import Rota.Schedule.Json
import Rota.Schedule.Normalize
import Rota.Schedule.Policy
import Rota.Schedule.Slot
import Rota.Schedule.TimeOfDay
import Rota.Schedule.Weekday
import Rota.Schedule.WeekdaySpec
import Rota.Settings.Basic
import Rota.Settings.Json
import Rota.Settings.Layers
import Rota.Settings.Load
import Rota.Settings.Typed
import Rota.Shell.Arithmetic
import Rota.Shell.Builtin
import Rota.Shell.Builtin.Control
import Rota.Shell.Builtin.Letters
import Rota.Shell.Builtin.Options
import Rota.Shell.Builtin.Printing
import Rota.Shell.Builtin.Reading
import Rota.Shell.Builtin.Signals
import Rota.Shell.Builtin.Variables
import Rota.Shell.Command
import Rota.Shell.Condition
import Rota.Shell.Cursor
import Rota.Shell.Evaluation
import Rota.Shell.Expansion
import Rota.Shell.Host
import Rota.Shell.Invocation
import Rota.Shell.Launch
import Rota.Shell.Lexer
import Rota.Shell.Parser
import Rota.Shell.Paths
import Rota.Shell.Pattern
import Rota.Shell.Printf
import Rota.Shell.Process
import Rota.Shell.Redirection
import Rota.Shell.Signal
import Rota.Shell.State
import Rota.Shell.World
import Rota.Simulation.Clock
import Rota.Simulation.Session
import Rota.Simulation.Task
import Rota.State.Saved
import Rota.State.Store
import Rota.State.Directory
import Rota.Status.Basic
import Rota.Status.Query
import Rota.Status.Registry
import Rota.Text.Blank
import Rota.Text.Numeral
import Rota.Text.Radix
import Rota.Text.Raw
import Rota.Text.Scientific
import Rota.Text.Utf8
import Rota.Toml.Basic
import Rota.Toml.Reader
import Rota.Toml.Scalar
import Rota.Toml.Table
import Rota.Zone.Basic
import Rota.Zone.Clock
import Rota.Zone.Table
import Rota.Zone.Rule
import Rota.Proofs.Runner.Lives
import Rota.Proofs.Calendar.Rfc3339
import Rota.Proofs.Json.Record
import Rota.Proofs.State.Saved
import Rota.Proofs.State.Store
import Rota.Proofs.State.Directory
import Rota.Proofs.State.Atomic
import Rota.Proofs.State.Plain
import Rota.Proofs.State.Modules
import Rota.Proofs.Schedule.Advance
import Rota.Proofs.Runner.Step
import Rota.Proofs.Runner.Runs
import Rota.Proofs.Runner.LifeCycle
import Rota.Proofs.Runner.Jumps
import Rota.Proofs.Runner.Statistics
import Rota.Proofs.Runner.Looks
import Rota.Proofs.Runner.StateFile
import Rota.Proofs.Schedule.Acceptance
import Rota.Proofs.Status.Registry
import Rota.Proofs.Agent.Assembly
import Rota.Proofs.Agent.Validation
import Rota.Proofs.Report.Channel
import Rota.Proofs.Agent.Crew
import Rota.Proofs.Agent.Delivery
import Rota.Proofs.Simulation.Task
import Rota.Proofs.Simulation.Line
import Rota.Proofs.Simulation.Crew
import Rota.Proofs.Simulation.Turns
import Rota.Proofs.Simulation.Shutdown
import Rota.Proofs.Agent.Reports
import Rota.Proofs.Schedule.Faults
import Rota.Proofs.Json.Text
import Rota.Proofs.Settings.Json
import Rota.Proofs.Status.Query
import Rota.Proofs.Status.History
import Rota.Proofs.Schedule.Gap
import Rota.Proofs.Schedule.Plain
import Rota.Proofs.Schedule.Effective
import Rota.Proofs.Runner.Own
import Rota.Proofs.Agent.Ensemble
import Rota.Proofs.Agent.Solo
import Rota.Proofs.Simulation.Settling
import Rota.Proofs.Simulation.Player
import Rota.Proofs.Simulation.Mirror
import Rota.Proofs.Simulation.Cues
import Rota.Proofs.Simulation.Script
import Rota.Proofs.Simulation.Account
import Rota.Proofs.Agent.Independence
import Rota.Proofs.Schedule.Rounds
import Rota.Proofs.Text.Blank
import Rota.Proofs.Text.Letters
import Rota.Proofs.Text.Numeral
import Rota.Proofs.Schedule.Grammar
import Rota.Proofs.Settings.Merge
import Rota.Proofs.Settings.Words
import Rota.Proofs.Settings.Layers
import Rota.Proofs.Text.Utf8
import Rota.Proofs.Module.Output
import Rota.Proofs.Module.Command
