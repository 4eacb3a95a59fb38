import CodeIntel.Agent.Greeting
import CodeIntel.Agent.Identity
import CodeIntel.Agent.Message
import CodeIntel.Agent.Program
import CodeIntel.Agent.Session
import CodeIntel.Capabilities
import CodeIntel.Client.Basic
import CodeIntel.Client.Exchange
import CodeIntel.Client.Handshake
import CodeIntel.Client.Queries
import CodeIntel.Client.Start
import CodeIntel.Client.Teardown
import CodeIntel.CommandLine
import CodeIntel.Config
import CodeIntel.Connection.Basic
import CodeIntel.Connection.Calls
import CodeIntel.Decimal.Binary64
import CodeIntel.Decimal.Shortest
import CodeIntel.Diagnostics.Store
import CodeIntel.Diagnostics.Waiting
import CodeIntel.Disk.Error
import CodeIntel.Disk.Path
import CodeIntel.Disk.Tree
import CodeIntel.Documents.Basic
import CodeIntel.Documents.Language
import CodeIntel.Edit.Lines
import CodeIntel.Edit.Offset
import CodeIntel.Edit.Spans
import CodeIntel.Edit.Workspace
import CodeIntel.Fault
import CodeIntel.Frame.Buffer
import CodeIntel.Frame.Problem
import CodeIntel.Frame.Reader
import CodeIntel.Frame.Writer
import CodeIntel.Json.Basic
import CodeIntel.Json.Fields
import CodeIntel.Json.Printer
import CodeIntel.Json.Reader
import CodeIntel.Lifecycle.Outcome
import CodeIntel.Lookup.Candidate
import CodeIntel.Lookup.Enclosing
import CodeIntel.Lookup.Match
import CodeIntel.Lookup.Search
import CodeIntel.Main
import CodeIntel.Message
import CodeIntel.Mock.Fixture
import CodeIntel.Mock.Options
import CodeIntel.Mock.Process
import CodeIntel.Mock.Server
import CodeIntel.Options
import CodeIntel.Peer.Basic
import CodeIntel.Peer.Plan
import CodeIntel.Protocol.CallHierarchy
import CodeIntel.Protocol.CodeAction
import CodeIntel.Protocol.Command
import CodeIntel.Protocol.Completion
import CodeIntel.Protocol.Edit
import CodeIntel.Protocol.Markup
import CodeIntel.Protocol.Position
import CodeIntel.Protocol.Request
import CodeIntel.Protocol.Symbol
import CodeIntel.Report.Actions
import CodeIntel.Report.Definitions
import CodeIntel.Report.Diagnostics
import CodeIntel.Report.Excerpt
import CodeIntel.Report.Place
import CodeIntel.Report.References
import CodeIntel.Report.Signatures
import CodeIntel.Report.Symbols
import CodeIntel.Script.Command
import CodeIntel.Script.Program
import CodeIntel.Script.Run
import CodeIntel.Script.Value
import CodeIntel.Script.Word
import CodeIntel.Sorting
import CodeIntel.Text.Blank
import CodeIntel.Text.Compose
import CodeIntel.Text.Dump
import CodeIntel.Text.Duration
import CodeIntel.Text.Lines
import CodeIntel.Text.Lowercase
import CodeIntel.Text.Numeral
import CodeIntel.Text.Units
import CodeIntel.Text.Utf8
import CodeIntel.Tool.Call
import CodeIntel.Tool.Listing
import CodeIntel.Tool.Perform
import CodeIntel.Totals
import CodeIntel.Url.Basic
import CodeIntel.Url.Domain
import CodeIntel.Url.Host
import CodeIntel.Url.Map
import CodeIntel.Url.Parser
import CodeIntel.Url.Parts
import CodeIntel.Url.Percent
import CodeIntel.Url.Punycode
import CodeIntel.Proofs.Disk.RealPath
import CodeIntel.Proofs.Disk.Writing
import CodeIntel.Proofs.Url.FilePath
import CodeIntel.Proofs.Connection.Slots
import CodeIntel.Proofs.Connection.Sending
import CodeIntel.Proofs.Json.Members
import CodeIntel.Proofs.Mock.Documents
import CodeIntel.Proofs.Documents.Mirror
import CodeIntel.Proofs.Connection.Ledger
import CodeIntel.Proofs.Connection.FirstAnswer
import CodeIntel.Proofs.Connection.Stranding
import CodeIntel.Proofs.Frame.Reading
import CodeIntel.Proofs.Frame.Progress
import CodeIntel.Proofs.Frame.Neighbours
import CodeIntel.Proofs.Frame.Series
import CodeIntel.Proofs.Message.Prefix
import CodeIntel.Proofs.Message.Sorting
import CodeIntel.Proofs.Documents.Announced
import CodeIntel.Proofs.Documents.Outcomes
import CodeIntel.Proofs.Client.Waiting
import CodeIntel.Proofs.Client.Undisturbed
import CodeIntel.Proofs.Client.Opening
import CodeIntel.Proofs.Client.Openable
import CodeIntel.Proofs.Client.Asking
import CodeIntel.Proofs.Client.Programs
import CodeIntel.Proofs.Lifecycle.Closing
import CodeIntel.Proofs.Lifecycle.Retiring
import CodeIntel.Proofs.Lifecycle.Returning
import CodeIntel.Proofs.Text.Lines
import CodeIntel.Proofs.Edit.FinalNewline
import CodeIntel.Proofs.Edit.Grouping
import CodeIntel.Proofs.Edit.LineSpans
import CodeIntel.Proofs.Edit.Positions
import CodeIntel.Proofs.Edit.Reversed
import CodeIntel.Proofs.Edit.Splices
import CodeIntel.Proofs.Edit.TextEdits
import CodeIntel.Proofs.Edit.Untouched
import CodeIntel.Proofs.Edit.WholeLines
import CodeIntel.Proofs.Tool.Program
import CodeIntel.Proofs.Tool.Updates
import CodeIntel.Proofs.Tool.Renaming
import CodeIntel.Proofs.Tool.Overlap
import CodeIntel.Proofs.Tool.InStep
import CodeIntel.Proofs.Tool.Asking
import CodeIntel.Proofs.Documents.Sessions
import CodeIntel.Proofs.Connection.Dispatching
import CodeIntel.Proofs.Connection.Living
import CodeIntel.Proofs.Mock.Answering
import CodeIntel.Proofs.Mock.Conversation
import CodeIntel.Proofs.Connection.Pieces
import CodeIntel.Proofs.Documents.Faults
import CodeIntel.Proofs.Documents.Closing
import CodeIntel.Proofs.Diagnostics.Latest
import CodeIntel.Proofs.Diagnostics.Waking
import CodeIntel.Proofs.Lookup.Matching
import CodeIntel.Proofs.Lookup.Innermost
import CodeIntel.Proofs.Client.Serving
import CodeIntel.Proofs.Lookup.Searching
import CodeIntel.Proofs.Report.Excerpt
import CodeIntel.Proofs.Report.Numbering
import CodeIntel.Proofs.Client.Offered
import CodeIntel.Proofs.Report.References
import CodeIntel.Proofs.Tool.Referring
import CodeIntel.Proofs.Connection.Listening
import CodeIntel.Proofs.Mock.Marking
import CodeIntel.Proofs.Report.Signatures
import CodeIntel.Proofs.Tool.Lenses
