import ReverseDns.Address
import ReverseDns.Address.Dotted
import ReverseDns.Address.Grouped
import ReverseDns.Address.Text
import ReverseDns.Batch
import ReverseDns.Batch.Pool
import ReverseDns.Clock
import ReverseDns.Config
import ReverseDns.Config.Integer
import ReverseDns.Conversion
import ReverseDns.Decimal.Binary64
import ReverseDns.Decimal.Shortest
import ReverseDns.Error
import ReverseDns.Error.Class
import ReverseDns.Error.Saved
import ReverseDns.Fault
import ReverseDns.Json.Number
import ReverseDns.Json.Read
import ReverseDns.Json.Value
import ReverseDns.Json.Write
import ReverseDns.Label
import ReverseDns.Log.Line
import ReverseDns.Log.Record
import ReverseDns.Log.Session
import ReverseDns.Log.Step
import ReverseDns.Main
import ReverseDns.Octet
import ReverseDns.Proofs.ReverseName.Zone
import ReverseDns.Proofs.Text.Letter
import ReverseDns.Proofs.Text.Words
import ReverseDns.Ptr.Lookup
import ReverseDns.Ptr.Resolver
import ReverseDns.Ptr.Result
import ReverseDns.Report
import ReverseDns.ReverseName.Basic
import ReverseDns.ReverseName.Decode
import ReverseDns.ReverseName.Encode
import ReverseDns.ReverseName.Query
import ReverseDns.Text
import ReverseDns.Text.Blank
import ReverseDns.Text.DecimalDigit
import ReverseDns.Text.Letter
import ReverseDns.Text.Literal
import ReverseDns.Text.Printable
import ReverseDns.Text.Quoted
import ReverseDns.Timestamp
import ReverseDns.Tool
import ReverseDns.Yaml.Block
import ReverseDns.Yaml.Fold
import ReverseDns.Yaml.Style
import ReverseDns.Yaml.Typed
import ReverseDns.Proofs.Octet
import ReverseDns.Proofs.Label
import ReverseDns.Proofs.ReverseName.Grammar
import ReverseDns.Proofs.ReverseName.RoundTrip
import ReverseDns.Proofs.ReverseName.FirstFault
import ReverseDns.Proofs.Address.Grouped
import ReverseDns.Proofs.Address.Text
import ReverseDns.Proofs.Address.Canonical
import ReverseDns.Proofs.Conversion
import ReverseDns.Proofs.Conversion.Detection
import ReverseDns.Proofs.Batch.Schedule
import ReverseDns.Proofs.Batch.Task
import ReverseDns.Proofs.Batch.Outcome
import ReverseDns.Proofs.Log.Line
import ReverseDns.Proofs.Log.Written
import ReverseDns.Proofs.Ptr.Lookup
import ReverseDns.Proofs.Batch.Timeout
import ReverseDns.Proofs.Config
import ReverseDns.Proofs.Tool.Run
import ReverseDns.Proofs.Tool.TwoRuns
import ReverseDns.Proofs.Batch.Unknown
import ReverseDns.Proofs.Tool.Account
import ReverseDns.Proofs.Text.Printed
import ReverseDns.Proofs.Json.Quoted
import ReverseDns.Proofs.Json.Scalar
import ReverseDns.Proofs.Json.Layout
import ReverseDns.Proofs.Json.Members
import ReverseDns.Proofs.Json.Printed
import ReverseDns.Proofs.Json.Sorted
import ReverseDns.Proofs.Report.Written
import ReverseDns.Proofs.Report.Json
import ReverseDns.Proofs.Report.Totals
import ReverseDns.Proofs.Text.Pieces
import ReverseDns.Proofs.Yaml.Pieces
import ReverseDns.Proofs.Yaml.Scalar
import ReverseDns.Proofs.Yaml.Block
import ReverseDns.Proofs.Yaml.Lines
import ReverseDns.Proofs.Report.Yaml
import ReverseDns.Proofs.Log.History
import ReverseDns.Proofs.Label.Position
import ReverseDns.Proofs.LetterCase
import ReverseDns.Proofs.ReverseName.LetterCase
import ReverseDns.Proofs.ReverseName.Backwards
import ReverseDns.Proofs.ReverseName.Delegation
import ReverseDns.Proofs.Text.Quoted
import ReverseDns.Proofs.Error.Chain
import ReverseDns.Proofs.Ptr.Outcome
import ReverseDns.Proofs.ReverseName.Message
import ReverseDns.Proofs.Text.Trim
import ReverseDns.Proofs.Config.Integer
import ReverseDns.Proofs.Config.Acceptance
import ReverseDns.Proofs.ReverseName.Shown
import ReverseDns.Proofs.Tool.Lines
import ReverseDns.Proofs.ReverseName.Query
import ReverseDns.Proofs.ReverseName.Bounds
import ReverseDns.Proofs.Config.Switch
