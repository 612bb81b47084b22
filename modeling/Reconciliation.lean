import Reconciliation.Checksum.Crc32
import Reconciliation.Checksum.Sha256
import Reconciliation.Command.Basic
import Reconciliation.Command.Execution
import Reconciliation.Command.Options
import Reconciliation.Files.Error
import Reconciliation.Files.Path
import Reconciliation.Files.Tree
import Reconciliation.Json.Printer
import Reconciliation.Json.Reader
import Reconciliation.Json.Token
import Reconciliation.Log
import Reconciliation.Main
import Reconciliation.Merge.Coercion
import Reconciliation.Merge.Elements
import Reconciliation.Merge.Error
import Reconciliation.Merge.Order
import Reconciliation.Number.Arithmetic
import Reconciliation.Number.Binary64
import Reconciliation.Number.Decimal
import Reconciliation.Number.Numeral
import Reconciliation.Number.Spelling
import Reconciliation.Report.Basic
import Reconciliation.Report.Timestamp
import Reconciliation.Report.Workbook
import Reconciliation.Report.Writer
import Reconciliation.Run.Basic
import Reconciliation.Run.Deadline
import Reconciliation.Run.Execution
import Reconciliation.Run.Payload
import Reconciliation.Schema.Basic
import Reconciliation.Schema.Declaration
import Reconciliation.Schema.Error
import Reconciliation.Schema.Reader
import Reconciliation.Schema.Source
import Reconciliation.Schema.StateName
import Reconciliation.Settings.Basic
import Reconciliation.Settings.Reader
import Reconciliation.Settings.Template
import Reconciliation.State.Basic
import Reconciliation.State.Changes
import Reconciliation.State.File
import Reconciliation.State.Identifier
import Reconciliation.State.Session
import Reconciliation.Text.Base64
import Reconciliation.Text.Blank
import Reconciliation.Text.Case
import Reconciliation.Text.CaseRanges
import Reconciliation.Text.Digits
import Reconciliation.Text.InvisibleRanges
import Reconciliation.Text.Literal
import Reconciliation.Text.Terminal
import Reconciliation.Traced
import Reconciliation.Value.Basic
import Reconciliation.Value.Entries
import Reconciliation.Value.Equality
import Reconciliation.Value.Hash
import Reconciliation.Yaml.Block
import Reconciliation.Yaml.Composition
import Reconciliation.Yaml.Content
import Reconciliation.Yaml.Cursor
import Reconciliation.Yaml.Date
import Reconciliation.Yaml.Error
import Reconciliation.Yaml.Form
import Reconciliation.Yaml.Graph
import Reconciliation.Yaml.Layout
import Reconciliation.Yaml.Plain
import Reconciliation.Yaml.Quoted
import Reconciliation.Yaml.Reader
import Reconciliation.Yaml.Scalar
import Reconciliation.Yaml.Tag
import Reconciliation.Yaml.Token
import Reconciliation.Proofs.Entries
import Reconciliation.Proofs.Value.Order
import Reconciliation.Proofs.Value.Hash
import Reconciliation.Proofs.Number.Decimal
import Reconciliation.Proofs.Number.Numeral
import Reconciliation.Proofs.Number.Rounding
import Reconciliation.Proofs.Number.Shortest
import Reconciliation.Proofs.Value.Equality
import Reconciliation.Proofs.Number.RoundTrip
import Reconciliation.Proofs.Json.Scalar
import Reconciliation.Proofs.Json.Tokens
import Reconciliation.Proofs.Json.RoundTrip
import Reconciliation.Proofs.Files.Frame
import Reconciliation.Proofs.Traced
import Reconciliation.Proofs.Merge.Coercion
import Reconciliation.Proofs.Merge.Events
import Reconciliation.Proofs.Lists
import Reconciliation.Proofs.Merge.Preservation
import Reconciliation.Proofs.Merge.SameTree
import Reconciliation.Proofs.Merge.Order
import Reconciliation.Proofs.State.Reconcile
import Reconciliation.Proofs.State.File
import Reconciliation.Proofs.Run.Step
import Reconciliation.Proofs.Settings.Frame
import Reconciliation.Proofs.Run.Replay
import Reconciliation.Proofs.Merge.Memory
import Reconciliation.Proofs.Merge.Wrapping
import Reconciliation.Proofs.Merge.Reading
import Reconciliation.Proofs.Merge.Correlation
import Reconciliation.Proofs.Merge.Conformance
import Reconciliation.Proofs.State.Secrets
import Reconciliation.Proofs.Merge.Again
import Reconciliation.Proofs.Merge.Recognition
import Reconciliation.Proofs.Merge.Arrangement
import Reconciliation.Proofs.State.Again
import Reconciliation.Proofs.Run.Rerun
import Reconciliation.Proofs.Schema.Decision
import Reconciliation.Proofs.Schema.Declaration
import Reconciliation.Proofs.Merge.Acceptance
import Reconciliation.Proofs.Merge.Failure
import Reconciliation.Proofs.Value.Decision
import Reconciliation.Proofs.Number.Magnitude
import Reconciliation.Proofs.Report.Again
import Reconciliation.Proofs.Report.Disclosure
import Reconciliation.Proofs.Report.Cell
import Reconciliation.Proofs.Merge.Path
import Reconciliation.Proofs.Merge.PayloadForm
import Reconciliation.Proofs.State.ListOrder
import Reconciliation.Proofs.Files.Alteration
import Reconciliation.Proofs.Run.Failure
import Reconciliation.Proofs.Files.Null
import Reconciliation.Proofs.State.RoundTrip
import Reconciliation.Proofs.State.Session
import Reconciliation.Proofs.State.TooLarge
import Reconciliation.Proofs.Schema.Wrapping
import Reconciliation.Proofs.Schema.WellFormed
import Reconciliation.Proofs.Schema.Scalar
import Reconciliation.Proofs.Settings.Scalar
import Reconciliation.Proofs.Run.Unaccounted
import Reconciliation.Proofs.Schema.StateName
import Reconciliation.Proofs.Merge.Naming
import Reconciliation.Proofs.Value.Text
import Reconciliation.Proofs.Value.Collision
import Reconciliation.Proofs.Value.Content
import Reconciliation.Proofs.Value.NormalForm
import Reconciliation.Proofs.Merge.Distinct
import Reconciliation.Proofs.Merge.Meeting
import Reconciliation.Proofs.Merge.Unkeyed
import Reconciliation.Proofs.State.WriteOnly
import Reconciliation.Proofs.State.Composition
import Reconciliation.Proofs.State.Changes
import Reconciliation.Proofs.Merge.Scan
import Reconciliation.Proofs.Merge.ElementOrder
import Reconciliation.Proofs.Merge.StoredOrder
import Reconciliation.Proofs.Merge.Exact
