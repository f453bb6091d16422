import TaskLedger.Command.Arguments
import TaskLedger.Command.BuildName
import TaskLedger.Command.Run
import TaskLedger.Command.Simulate
import TaskLedger.Command.Summary
import TaskLedger.Config.Basic
import TaskLedger.Config.Environment
import TaskLedger.Config.File
import TaskLedger.Dispatch.Executor
import TaskLedger.Dispatch.Op
import TaskLedger.Dispatch.Pool
import TaskLedger.Dispatch.Work
import TaskLedger.EnvFile.Lines
import TaskLedger.EnvFile.Load
import TaskLedger.EnvFile.Value
import TaskLedger.Error
import TaskLedger.Fault
import TaskLedger.Files.Path
import TaskLedger.Files.Tree
import TaskLedger.Hash.Param
import TaskLedger.Hash.Sip
import TaskLedger.Json.Fault
import TaskLedger.Json.Fields
import TaskLedger.Json.Numeral
import TaskLedger.Json.Quoted
import TaskLedger.Json.Scalar
import TaskLedger.Json.Skip
import TaskLedger.Ledger.Basic
import TaskLedger.Ledger.Notice
import TaskLedger.Ledger.Op
import TaskLedger.Ledger.Record
import TaskLedger.Ledger.Registry
import TaskLedger.Ledger.Sink
import TaskLedger.Ledger.Status
import TaskLedger.Ledger.Task
import TaskLedger.Ledger.Worker
import TaskLedger.Main
import TaskLedger.Number.Binary64
import TaskLedger.Number.Shortest
import TaskLedger.Number.Word
import TaskLedger.Reading.Mismatch
import TaskLedger.Session.Batch
import TaskLedger.Session.Run
import TaskLedger.Session.Step
import TaskLedger.Session.View
import TaskLedger.Span.Basic
import TaskLedger.Span.Reader
import TaskLedger.Span.Writer
import TaskLedger.SpanFile.Lines
import TaskLedger.SpanFile.Read
import TaskLedger.Text.Alphanumeric
import TaskLedger.Text.Blank
import TaskLedger.Text.Combining
import TaskLedger.Text.Quoted
import TaskLedger.Text.Unprintable
import TaskLedger.Text.Utf8
import TaskLedger.Time.Calendar
import TaskLedger.Time.Instant
import TaskLedger.Toml.Date
import TaskLedger.Toml.Document
import TaskLedger.Toml.Fault
import TaskLedger.Toml.Lexical
import TaskLedger.Toml.Numeral
import TaskLedger.Toml.Table
import TaskLedger.Toml.Text
import TaskLedger.Toml.Value
import TaskLedger.Proofs.Text.Utf8
import TaskLedger.Proofs.Json.Quoted
import TaskLedger.Proofs.Json.Numeral
import TaskLedger.Proofs.Json.Scalar
import TaskLedger.Proofs.Json.Members
import TaskLedger.Proofs.Json.Keeping
import TaskLedger.Proofs.Json.Closing
import TaskLedger.Proofs.Json.Grammar
import TaskLedger.Proofs.Json.Recognition
import TaskLedger.Proofs.Json.Decimal
import TaskLedger.Proofs.Json.Passing
import TaskLedger.Proofs.Json.Layout
import TaskLedger.Proofs.Json.Slots
import TaskLedger.Proofs.Span.RoundTrip
import TaskLedger.Proofs.Span.Spelling
import TaskLedger.Proofs.SpanFile.Framing
import TaskLedger.Proofs.SpanFile.Seam
import TaskLedger.Proofs.SpanFile.Composition
import TaskLedger.Proofs.Files.Following
import TaskLedger.Proofs.Files.Reopening
import TaskLedger.Proofs.Ledger.Course
import TaskLedger.Proofs.Ledger.Change
import TaskLedger.Proofs.Ledger.CrewsUndisturbed
import TaskLedger.Proofs.Ledger.Filing
import TaskLedger.Proofs.Ledger.Registered
import TaskLedger.Proofs.Ledger.Settlement
import TaskLedger.Proofs.Ledger.Sweep
import TaskLedger.Proofs.Ledger.Service
import TaskLedger.Proofs.Ledger.Nesting
import TaskLedger.Proofs.Ledger.UntouchedTasks
import TaskLedger.Proofs.Ledger.ReadyToWrite
import TaskLedger.Proofs.Ledger.FileSink
import TaskLedger.Proofs.Ledger.Alike
import TaskLedger.Proofs.Ledger.FileInvariants
import TaskLedger.Proofs.Ledger.Numbering
import TaskLedger.Proofs.Ledger.SessionLinks
import TaskLedger.Proofs.Ledger.Standstill
import TaskLedger.Proofs.Dispatch.Turn
import TaskLedger.Proofs.Dispatch.Frame
import TaskLedger.Proofs.Dispatch.Keys
import TaskLedger.Proofs.Dispatch.UnitsInCrews
import TaskLedger.Proofs.Dispatch.OwnWorker
import TaskLedger.Proofs.Dispatch.Idle
import TaskLedger.Proofs.Dispatch.Booking
import TaskLedger.Proofs.Dispatch.Account
import TaskLedger.Proofs.Dispatch.Await
import TaskLedger.Proofs.Dispatch.Moves
import TaskLedger.Proofs.Dispatch.Pending
import TaskLedger.Proofs.Dispatch.Deferral
import TaskLedger.Proofs.Dispatch.Refusal
import TaskLedger.Proofs.Dispatch.Progress
import TaskLedger.Proofs.Dispatch.Backends
import TaskLedger.Proofs.Dispatch.Shift
import TaskLedger.Proofs.Dispatch.ShiftInvariant
import TaskLedger.Proofs.Dispatch.Schedules
import TaskLedger.Proofs.Dispatch.Untaken
import TaskLedger.Proofs.Dispatch.Shutdown
import TaskLedger.Proofs.Command.Builds
import TaskLedger.Proofs.Dispatch.Replay
import TaskLedger.Proofs.Dispatch.Bystander
import TaskLedger.Proofs.Dispatch.Echo
import TaskLedger.Proofs.Dispatch.TasksApart
import TaskLedger.Proofs.Dispatch.Unbooked
import TaskLedger.Proofs.Ledger.TaskEffects
import TaskLedger.Proofs.Ledger.Lifecycle
import TaskLedger.Proofs.Ledger.Emission
import TaskLedger.Proofs.Ledger.Timeline
import TaskLedger.Proofs.Ledger.Requests
import TaskLedger.Proofs.Command.Totals
import TaskLedger.Proofs.Text.Blank
import TaskLedger.Proofs.Config.Variables
import TaskLedger.Proofs.Toml.Grammar
import TaskLedger.Proofs.Toml.Strings
import TaskLedger.Proofs.Toml.Reading
import TaskLedger.Proofs.Config.Agreement
import TaskLedger.Proofs.Ledger.Orders
import TaskLedger.Proofs.Dispatch.Sweeps
import TaskLedger.Proofs.Ledger.Halted
import TaskLedger.Proofs.Session.PriorRuns
import TaskLedger.Proofs.Session.Faults
import TaskLedger.Proofs.Dispatch.Series
import TaskLedger.Proofs.Ledger.Readings
import TaskLedger.Proofs.Ledger.Ranges
