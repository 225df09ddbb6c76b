import TwinWall.Audit.Event
import TwinWall.Audit.Log
import TwinWall.Audit.Moment
import TwinWall.Audit.RunId
import TwinWall.Cli.Arguments
import TwinWall.Cli.Request
import TwinWall.Cli.Session
import TwinWall.Decimal.Binary64
import TwinWall.Decimal.Natural
import TwinWall.Decimal.Shortest
import TwinWall.Deploy.Failure
import TwinWall.Deploy.Listing
import TwinWall.Deploy.Record
import TwinWall.Deploy.Run
import TwinWall.Deploy.Step
import TwinWall.Diff.Change
import TwinWall.Diff.Compare
import TwinWall.Diff.Lines
import TwinWall.Diff.Middle
import TwinWall.Diff.Slide
import TwinWall.Digest
import TwinWall.Document.Assemble
import TwinWall.Document.Clause
import TwinWall.Document.Compile
import TwinWall.Document.Table
import TwinWall.Error
import TwinWall.Files
import TwinWall.Json.Fault
import TwinWall.Json.Lexeme
import TwinWall.Json.Number
import TwinWall.Json.Printer
import TwinWall.Json.Reader
import TwinWall.Json.Record
import TwinWall.Json.Skip
import TwinWall.Json.Value
import TwinWall.Main
import TwinWall.Net.Address
import TwinWall.Net.Network
import TwinWall.Nft.Check
import TwinWall.Nft.Diagnostics
import TwinWall.Nft.Hint
import TwinWall.Policy.Batch
import TwinWall.Policy.Defect
import TwinWall.Policy.Field
import TwinWall.Policy.File
import TwinWall.Policy.Name
import TwinWall.Policy.Port
import TwinWall.Policy.Rule
import TwinWall.Policy.RuleCheck
import TwinWall.Policy.SetCheck
import TwinWall.Program
import TwinWall.Proofs.Audit.Appended
import TwinWall.Proofs.Audit.Entry
import TwinWall.Proofs.Audit.Newest
import TwinWall.Proofs.Audit.Stamps
import TwinWall.Proofs.Audit.Summary
import TwinWall.Proofs.Cli.Audited
import TwinWall.Proofs.Cli.Compared
import TwinWall.Proofs.Cli.ExitStatus
import TwinWall.Proofs.Cli.Operated
import TwinWall.Proofs.Decimal.Numeral
import TwinWall.Proofs.Deploy.Apart
import TwinWall.Proofs.Deploy.Commands
import TwinWall.Proofs.Deploy.Course
import TwinWall.Proofs.Deploy.Effects
import TwinWall.Proofs.Deploy.Guard
import TwinWall.Proofs.Deploy.Handover
import TwinWall.Proofs.Deploy.History
import TwinWall.Proofs.Deploy.Installed
import TwinWall.Proofs.Deploy.Interleaved
import TwinWall.Proofs.Deploy.Interrupted
import TwinWall.Proofs.Deploy.Nodes
import TwinWall.Proofs.Deploy.Order
import TwinWall.Proofs.Deploy.Reported
import TwinWall.Proofs.Deploy.Scrubbed
import TwinWall.Proofs.Deploy.Staged
import TwinWall.Proofs.Deploy.StagingPath
import TwinWall.Proofs.Deploy.Surveyed
import TwinWall.Proofs.Diff.Displayed
import TwinWall.Proofs.Document.Arranged
import TwinWall.Proofs.Document.Built
import TwinWall.Proofs.Document.Closed
import TwinWall.Proofs.Document.Determined
import TwinWall.Proofs.Document.InterfaceTexts
import TwinWall.Proofs.Document.Outcome
import TwinWall.Proofs.Document.Outline
import TwinWall.Proofs.Document.Places
import TwinWall.Proofs.Document.Printable
import TwinWall.Proofs.Document.Reading
import TwinWall.Proofs.Document.RoundTrip
import TwinWall.Proofs.Document.RuleOfLine
import TwinWall.Proofs.Document.SetTexts
import TwinWall.Proofs.Document.Sorted
import TwinWall.Proofs.Document.Tokens
import TwinWall.Proofs.Files.Beside
import TwinWall.Proofs.Files.Grown
import TwinWall.Proofs.Filter.Logged
import TwinWall.Proofs.Filter.OwnFamily
import TwinWall.Proofs.Filter.Packet
import TwinWall.Proofs.Filter.PortBound
import TwinWall.Proofs.Filter.RuleLine
import TwinWall.Proofs.Filter.Verdict
import TwinWall.Proofs.Json.Compact
import TwinWall.Proofs.Json.Container
import TwinWall.Proofs.Json.Numerals
import TwinWall.Proofs.Json.Passed
import TwinWall.Proofs.Json.RecordText
import TwinWall.Proofs.Json.Reread
import TwinWall.Proofs.Json.Token
import TwinWall.Proofs.Net.AddressText
import TwinWall.Proofs.Net.Blocks
import TwinWall.Proofs.Net.Continued
import TwinWall.Proofs.Net.HostBits
import TwinWall.Proofs.Net.NetworkText
import TwinWall.Proofs.Net.Parsed
import TwinWall.Proofs.Nft.Reasons
import TwinWall.Proofs.Policy.Accounted
import TwinWall.Proofs.Policy.AddressSpaces
import TwinWall.Proofs.Policy.Fields
import TwinWall.Proofs.Policy.Kept
import TwinWall.Proofs.Policy.Loaded
import TwinWall.Proofs.Policy.PortGrammar
import TwinWall.Proofs.Policy.PortText
import TwinWall.Proofs.Policy.Sound
import TwinWall.Proofs.Settings.Draft
import TwinWall.Proofs.Settings.Loaded
import TwinWall.Proofs.Settings.Saved
import TwinWall.Proofs.Shell.Fields
import TwinWall.Proofs.Shell.Pipeline
import TwinWall.Proofs.Shell.Quoting
import TwinWall.Proofs.Shell.Script
import TwinWall.Proofs.Text.Endings
import TwinWall.Proofs.Text.Trimmed
import TwinWall.Proofs.Text.Utf8
import TwinWall.Proofs.Text.Words
import TwinWall.Proofs.Topology.Pair
import TwinWall.Proofs.Topology.Sites
import TwinWall.Remote.Reply
import TwinWall.Remote.Ssh
import TwinWall.Settings
import TwinWall.Shell.Word
import TwinWall.Text.Blank
import TwinWall.Text.Hex
import TwinWall.Text.Lines
import TwinWall.Text.Search
import TwinWall.Text.Shown
import TwinWall.Text.Utf8
import TwinWall.Topology.Node
import TwinWall.Topology.Resolve
