import ParserClient.Base64
import ParserClient.Content
import ParserClient.ContentEncoding
import ParserClient.Environment
import ParserClient.Environment.File
import ParserClient.Environment.Table
import ParserClient.Fault
import ParserClient.Frame.Calls
import ParserClient.Frame.Reading
import ParserClient.Frame.Writing
import ParserClient.Json.Reading
import ParserClient.Json.Writing
import ParserClient.Message.Issue
import ParserClient.Message.Reply
import ParserClient.Message.Request
import ParserClient.Message.Settings
import ParserClient.Mishap
import ParserClient.Number.Double
import ParserClient.Number.Integer
import ParserClient.Number.Reading
import ParserClient.Number.Seconds
import ParserClient.Number.Shortest
import ParserClient.Pipe
import ParserClient.Report
import ParserClient.Session.Child
import ParserClient.Session.Command
import ParserClient.Session.Lifecycle
import ParserClient.Session.Schedule
import ParserClient.Session.State
import ParserClient.Session.World
import ParserClient.Text
import ParserClient.Text.Blank
import ParserClient.Text.Case
import ParserClient.Text.Lowercase
import ParserClient.Text.Printable
import ParserClient.Text.Quoted
import ParserClient.Text.Range
import ParserClient.Text.Utf8
import ParserClient.Tree
import ParserClient.Value
import ParserClient.Value.Printing
import ParserClient.Proofs.Text.Utf8
import ParserClient.Proofs.Text.Words
import ParserClient.Proofs.Text.Folding
import ParserClient.Proofs.Text.Replacing
import ParserClient.Proofs.Text.Quoted
import ParserClient.Proofs.Number.Integer
import ParserClient.Proofs.Number.Shortest
import ParserClient.Proofs.Value.Printing
import ParserClient.Proofs.Value.Walk
import ParserClient.Proofs.Json.Strings
import ParserClient.Proofs.Json.Values
import ParserClient.Proofs.Json.Stops
import ParserClient.Proofs.Json.Extension
import ParserClient.Proofs.Json.Controls
import ParserClient.Proofs.Base64.Reading
import ParserClient.Proofs.Base64.Bytes
import ParserClient.Proofs.ContentEncoding
import ParserClient.Proofs.Content
import ParserClient.Proofs.Message.Issues
import ParserClient.Proofs.Message.Replies
import ParserClient.Proofs.Message.Tags
import ParserClient.Proofs.Tree.Conversion
import ParserClient.Proofs.Tree.Printing
import ParserClient.Proofs.Session.Dialogue
import ParserClient.Proofs.Session.Moves
import ParserClient.Proofs.Session.Steps
import ParserClient.Proofs.Session.Service
import ParserClient.Proofs.Session.Alone
import ParserClient.Proofs.Session.Serial
import ParserClient.Proofs.Session.Lifecycle
import ParserClient.Proofs.Session.Concurrent
import ParserClient.Proofs.Session.Pairing
import ParserClient.Proofs.Session.Deadline
import ParserClient.Proofs.Session.Tagged
import ParserClient.Proofs.Frame.Line
import ParserClient.Proofs.Frame.Stream
import ParserClient.Proofs.Frame.Calls
import ParserClient.Proofs.Frame.OneLine
import ParserClient.Proofs.Frame.Framing
import ParserClient.Proofs.Frame.Escapes
import ParserClient.Proofs.Frame.Truncation
import ParserClient.Proofs.Frame.RawLine
import ParserClient.Proofs.Environment.Forced
import ParserClient.Proofs.Environment.Loading
import ParserClient.Proofs.Environment.Configured
import ParserClient.Proofs.Session.Wire
import ParserClient.Proofs.Session.Lives
import ParserClient.Proofs.Session.Confinement
import ParserClient.Proofs.Session.Completion
import ParserClient.Proofs.Session.Rejection
import ParserClient.Proofs.Session.Closing
import ParserClient.Proofs.Session.Starting
import ParserClient.Proofs.Session.Complaints
import ParserClient.Proofs.Session.Classification
import ParserClient.Proofs.Session.Salvage
