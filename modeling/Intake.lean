import Intake.Text.Blank
import Intake.Text.Segments
import Intake.SortedMap
import Intake.Json.Reader
import Intake.Json.Writer
import Intake.Calendar.Reading
import Intake.Numeral.Literal
import Intake.Value.Edit
import Intake.Value.Typed
import Intake.Value.Flatten
import Intake.Value.Json
import Intake.Report
import Intake.Coercion
import Intake.Constraint.Length
import Intake.Constraint.Charset
import Intake.Constraint.Glob
import Intake.Constraint.Email
import Intake.Constraint.Decimal
import Intake.Constraint
import Intake.Schema
import Intake.Schema.Validate
import Intake.Proofs.Schema.Levels
import Intake.Proofs.Report.Paths
import Intake.Proofs.Schema.Outcomes
import Intake.Proofs.Schema.Keys
import Intake.Proofs.Schema.Faults
import Intake.Proofs.Schema.Acceptance
import Intake.Proofs.Schema.Storage
import Intake.Proofs.Schema.Unknown
import Intake.Proofs.Schema.KeyFaults
import Intake.Proofs.Schema.OverlayFaults
import Intake.Proofs.Schema.Embedding
import Intake.Proofs.Schema.Columns
import Intake.Proofs.Schema.Arrangements
import Intake.Proofs.Schema.Permissive
import Intake.Proofs.Schema.Interchange
import Intake.Proofs.Calendar.ReadBack
import Intake.Proofs.Json.Depth
import Intake.Proofs.Numeral.Integers
import Intake.Proofs.Json.ReadBack
import Intake.Proofs.Schema.Revalidation
import Intake.Proofs.Value.Keyed
import Intake.Proofs.Value.Descents
import Intake.Proofs.Value.Frames
import Intake.Proofs.Value.Leaves
import Intake.Proofs.Schema.FlatResults
import Intake.Proofs.Numeral.IntegerLiterals
import Intake.Proofs.Numeral.DecimalLiterals
import Intake.Proofs.Json.Numbers
import Intake.Proofs.Json.Regular
import Intake.Proofs.Json.Integers
import Intake.Proofs.Text.ByteOrder
import Intake.Proofs.Schema.Copies
import Intake.Proofs.Numeral.Rounding
import Intake.Proofs.Value.Untyped
import Intake.Proofs.Calendar.Layouts
import Intake.Proofs.Numeral.Order
import Intake.Proofs.Numeral.IntegerFaults
import Intake.Proofs.Numeral.Shortest
import Intake.Proofs.Numeral.ReadBack
import Intake.Proofs.Numeral.Singles
import Intake.Proofs.Schema.Unions
import Intake.Proofs.Calendar.Rereading
import Intake.Proofs.Constraint.DecimalShapes
import Intake.Proofs.Constraint.EmailAddresses
import Intake.Proofs.Schema.Drafts
import Intake.Proofs.Report.Histories
import Intake.Proofs.Schema.Edits
