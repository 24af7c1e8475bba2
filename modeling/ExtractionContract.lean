import ExtractionContract.Compiler.Basic
import ExtractionContract.Compiler.Config
import ExtractionContract.Decimal.Binary64
import ExtractionContract.Decimal.Literal
import ExtractionContract.Decimal.Power
import ExtractionContract.Decimal.Shortest
import ExtractionContract.Digest.Sha256
import ExtractionContract.Event
import ExtractionContract.Example.Instance
import ExtractionContract.Example.Tree
import ExtractionContract.Failure
import ExtractionContract.Field.Basic
import ExtractionContract.Field.Codec
import ExtractionContract.Field.DataType
import ExtractionContract.Field.Identifier
import ExtractionContract.Field.RecordSchema
import ExtractionContract.Graph.Basic
import ExtractionContract.Graph.Depth
import ExtractionContract.Graph.Display
import ExtractionContract.Graph.Naming
import ExtractionContract.Import.Column
import ExtractionContract.Import.Merge
import ExtractionContract.Import.Policy
import ExtractionContract.Import.Record
import ExtractionContract.Import.Source
import ExtractionContract.Json.Basic
import ExtractionContract.Json.Fault
import ExtractionContract.Json.Members
import ExtractionContract.Json.Reader
import ExtractionContract.Json.Shape
import ExtractionContract.Json.Text
import ExtractionContract.Lenient.Commas
import ExtractionContract.Lenient.Comments
import ExtractionContract.Lenient.Literal
import ExtractionContract.Lenient.Quotes
import ExtractionContract.Lenient.Recovery
import ExtractionContract.Lenient.Stage
import ExtractionContract.Proofs.Decimal.Bounds
import ExtractionContract.Proofs.Decimal.Neighbours
import ExtractionContract.Proofs.Decimal.Shortest
import ExtractionContract.Proofs.Example.Tree
import ExtractionContract.Proofs.Example.Types
import ExtractionContract.Proofs.Field.Codec
import ExtractionContract.Proofs.Field.DataType
import ExtractionContract.Proofs.Graph.CanonicalOrder
import ExtractionContract.Proofs.Graph.Chain
import ExtractionContract.Proofs.Graph.Cycles
import ExtractionContract.Proofs.Graph.Display
import ExtractionContract.Proofs.Graph.DisplayOrder
import ExtractionContract.Proofs.Graph.Evolution
import ExtractionContract.Proofs.Graph.Index
import ExtractionContract.Proofs.Graph.Links
import ExtractionContract.Proofs.Graph.Removal
import ExtractionContract.Proofs.Graph.Stored
import ExtractionContract.Proofs.Import.Batch
import ExtractionContract.Proofs.Import.BatchOrder
import ExtractionContract.Proofs.Import.Coexisting
import ExtractionContract.Proofs.Import.Cycles
import ExtractionContract.Proofs.Import.Folding
import ExtractionContract.Proofs.Import.Idempotence
import ExtractionContract.Proofs.Import.Integrity
import ExtractionContract.Proofs.Import.KeyedRows
import ExtractionContract.Proofs.Import.Linking
import ExtractionContract.Proofs.Import.Numbering
import ExtractionContract.Proofs.Import.Overwrite
import ExtractionContract.Proofs.Import.Policies
import ExtractionContract.Proofs.Import.Sample
import ExtractionContract.Proofs.Import.Splitting
import ExtractionContract.Proofs.Import.Table
import ExtractionContract.Proofs.Json.Alike
import ExtractionContract.Proofs.Json.CanonicalForm
import ExtractionContract.Proofs.Json.Collapse
import ExtractionContract.Proofs.Json.Distinct
import ExtractionContract.Proofs.Json.EveryObject
import ExtractionContract.Proofs.Json.Grammar
import ExtractionContract.Proofs.Json.Indented
import ExtractionContract.Proofs.Json.Members
import ExtractionContract.Proofs.Json.NumberText
import ExtractionContract.Proofs.Json.Numerals
import ExtractionContract.Proofs.Json.ReadBack
import ExtractionContract.Proofs.Json.Readable
import ExtractionContract.Proofs.Json.Shape
import ExtractionContract.Proofs.Json.Tokens
import ExtractionContract.Proofs.Json.Unambiguous
import ExtractionContract.Proofs.Lenient.Decoration
import ExtractionContract.Proofs.Lenient.Documents
import ExtractionContract.Proofs.Lenient.Literals
import ExtractionContract.Proofs.Lenient.Pieces
import ExtractionContract.Proofs.Lenient.Recovery
import ExtractionContract.Proofs.Lenient.Repair
import ExtractionContract.Proofs.Sample.DottedKeys
import ExtractionContract.Proofs.Sample.Findings
import ExtractionContract.Proofs.Sample.Forest
import ExtractionContract.Proofs.Sample.Identifiers
import ExtractionContract.Proofs.Sample.OneArrayDeep
import ExtractionContract.Proofs.Sample.Orders
import ExtractionContract.Proofs.Sample.Recovered
import ExtractionContract.Proofs.Sample.Shown
import ExtractionContract.Proofs.Sample.Values
import ExtractionContract.Proofs.Sample.WellFormed
import ExtractionContract.Proofs.Schema.Agreement
import ExtractionContract.Proofs.Schema.Text
import ExtractionContract.Proofs.Staleness.Fingerprint
import ExtractionContract.Proofs.Staleness.Monitor
import ExtractionContract.Proofs.Staleness.Reordering
import ExtractionContract.Proofs.Staleness.Snapshot
import ExtractionContract.Proofs.Time.Calendar
import ExtractionContract.Proofs.Time.Instant
import ExtractionContract.Sample.Inference
import ExtractionContract.Sample.Labels
import ExtractionContract.Schema.Descriptions
import ExtractionContract.Schema.Document
import ExtractionContract.Session.Basic
import ExtractionContract.Session.Edit
import ExtractionContract.Session.Query
import ExtractionContract.Session.Step
import ExtractionContract.Session.Watch
import ExtractionContract.Staleness.Fingerprint
import ExtractionContract.Staleness.Monitor
import ExtractionContract.Staleness.Snapshot
import ExtractionContract.Text.Blank
import ExtractionContract.Text.Case
import ExtractionContract.Text.CaseTable
import ExtractionContract.Text.DecimalDigit
import ExtractionContract.Text.Quoted
import ExtractionContract.Text.Ranges
import ExtractionContract.Time.Instant
import ExtractionContract.Proofs.Import.MemberOrder
import ExtractionContract.Proofs.Schema.OneLevel
import ExtractionContract.Proofs.Lenient.OnePass
