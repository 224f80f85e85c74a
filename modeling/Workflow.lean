import Workflow.Action.Registry
import Workflow.Agent
import Workflow.Backoff
import Workflow.Calendar
import Workflow.Chat
import Workflow.Chat.Provider
import Workflow.Chat.Turn
import Workflow.CommandLine.Arguments
import Workflow.CommandLine.Session
import Workflow.Decimal.Binary
import Workflow.Decimal.Shortest
import Workflow.Decimal.Text
import Workflow.Definition
import Workflow.Definition.Decode
import Workflow.Definition.Encode
import Workflow.Definition.Load
import Workflow.Dispatch
import Workflow.Duration
import Workflow.Engine
import Workflow.Event
import Workflow.EventLog
import Workflow.Failure
import Workflow.Graph
import Workflow.Graph.Reachability
import Workflow.Host
import Workflow.Http.Address
import Workflow.Http.Request
import Workflow.Http.Url
import Workflow.Incoming
import Workflow.Json.Reader
import Workflow.Json.Writer
import Workflow.Main
import Workflow.Pairs
import Workflow.Program
import Workflow.Proofs.Decimal.Nearest
import Workflow.Proofs.Decimal.Bits
import Workflow.Proofs.Decimal.Shortest
import Workflow.Proofs.Json.Number
import Workflow.Proofs.Json.Text
import Workflow.Proofs.Json.RoundTrip
import Workflow.Proofs.Store.Timestamp
import Workflow.Proofs.Store.Effects
import Workflow.Proofs.Store.Writes
import Workflow.Proofs.Store.Journal
import Workflow.Proofs.Course
import Workflow.Proofs.Course.Account
import Workflow.Proofs.Course.Aftermath
import Workflow.Proofs.Course.Calm
import Workflow.Proofs.Course.Confluence
import Workflow.Proofs.Course.DataFlow
import Workflow.Proofs.Course.Invariant
import Workflow.Proofs.Course.Once
import Workflow.Proofs.Course.Partial
import Workflow.Proofs.Course.Readiness
import Workflow.Proofs.Course.Records
import Workflow.Proofs.Course.Stage
import Workflow.Proofs.Course.Termination
import Workflow.Proofs.Course.Verdict
import Workflow.Proofs.Engine.Following
import Workflow.Proofs.Engine.Rehearsal
import Workflow.Proofs.Engine.Stroke
import Workflow.Proofs.Engine.View
import Workflow.Proofs.Fallible
import Workflow.Proofs.Graph.Cycles
import Workflow.Proofs.Graph.Path
import Workflow.Proofs.Graph.Reachability
import Workflow.Proofs.Ledger
import Workflow.Proofs.Ledger.Filing
import Workflow.Proofs.Ledger.Recording
import Workflow.Proofs.Ledger.Mirror
import Workflow.Proofs.Outcome
import Workflow.Proofs.Run.Atomicity
import Workflow.Proofs.Run.Completion
import Workflow.Proofs.Run.Invariant
import Workflow.Proofs.Run.Operations
import Workflow.Proofs.Run.Settling
import Workflow.Proofs.Table
import Workflow.Rehearsal.Script
import Workflow.Rehearsal.Stage
import Workflow.Retry
import Workflow.Run
import Workflow.Run.Archive
import Workflow.Run.Lifecycle
import Workflow.Run.Report
import Workflow.Secret
import Workflow.Settings
import Workflow.Status
import Workflow.Store.Database
import Workflow.Store.Memory
import Workflow.Store.Record
import Workflow.Store.Repository
import Workflow.Store.Selection
import Workflow.Store.Timestamp
import Workflow.Table
import Workflow.Text.Base64
import Workflow.Text.Blank
import Workflow.Text.Case
import Workflow.Text.Digit
import Workflow.Text.Literal
import Workflow.Text.Printable
import Workflow.Tool.Calculator
import Workflow.Tool.Catalog
import Workflow.Validation
import Workflow.Validation.Record
import Workflow.Validation.Scalar
import Workflow.Value
import Workflow.Yaml.Cursor
import Workflow.Yaml.Document
import Workflow.Yaml.Node
import Workflow.Yaml.Resolution
import Workflow.Yaml.ScalarText
import Workflow.Yaml.Token
import Workflow.Proofs.EventLog.Delivery
import Workflow.Proofs.Run.Telling
import Workflow.Proofs.Course.Chronicle
import Workflow.Proofs.Course.Conclusion
import Workflow.Proofs.Graph.Acceptance
import Workflow.Proofs.Secrecy.Program
import Workflow.Proofs.Secrecy.Stage
import Workflow.Proofs.Secrecy.Engine
import Workflow.Proofs.Secrecy.Deeds
import Workflow.Proofs.Secrecy.Servers
import Workflow.Proofs.Program.Dialogue
import Workflow.Proofs.Agent.Conversation
import Workflow.Proofs.Agent.Ending
import Workflow.Proofs.Agent.Messages
import Workflow.Proofs.Agent.Isolation
import Workflow.Proofs.Agent.Bounds
import Workflow.Proofs.Retry.Course
import Workflow.Proofs.Dispatch.Invocation
import Workflow.Proofs.Dispatch.Bounds
import Workflow.Proofs.Dispatch.Contract
import Workflow.Proofs.Dispatch.Credentials
import Workflow.Proofs.Validation.Decoding
import Workflow.Proofs.Definition.RoundTrip
import Workflow.Proofs.Engine.Roster
import Workflow.Proofs.Engine.Starting
import Workflow.Proofs.Store.History
import Workflow.Proofs.Retry.Schedule
import Workflow.Proofs.Text.Scanning
import Workflow.Proofs.Decimal.Rounding
import Workflow.Proofs.Dispatch.Merging
import Workflow.Proofs.Agent.Turns
import Workflow.Proofs.Duration
import Workflow.Proofs.Yaml.Failures
import Workflow.Proofs.Engine.Undisturbed
import Workflow.Proofs.CommandLine.Reading
import Workflow.Proofs.CommandLine.Outcome
import Workflow.Proofs.Store.Selection
import Workflow.Proofs.Http.Authorization
import Workflow.Proofs.Text.Lines
import Workflow.Proofs.Ledger.Blame
import Workflow.Proofs.Engine.Clock
import Workflow.Proofs.Engine.Timeout
import Workflow.Proofs.CommandLine.Timeout
