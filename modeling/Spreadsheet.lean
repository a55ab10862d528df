import Spreadsheet.Fill.Expr
import Spreadsheet.Formula.Cursor
import Spreadsheet.Formula.Draft
import Spreadsheet.Grading
import Spreadsheet.Resolution.Resolver
import Spreadsheet.Proofs.Address.Codec
import Spreadsheet.Proofs.Cell.Number
import Spreadsheet.Proofs.Decimal.Plain
import Spreadsheet.Proofs.Fill.Composition
import Spreadsheet.Proofs.Fill.Structure
import Spreadsheet.Proofs.Fill.Succession
import Spreadsheet.Proofs.Formula.Cursor
import Spreadsheet.Proofs.Formula.EqualSign
import Spreadsheet.Proofs.Formula.Mention
import Spreadsheet.Proofs.Formula.Printing
import Spreadsheet.Proofs.Formula.Safety
import Spreadsheet.Proofs.Grading.Acceptance
import Spreadsheet.Proofs.Grading.Completion
import Spreadsheet.Proofs.Grading.Naming
import Spreadsheet.Proofs.Resolution.Closure
import Spreadsheet.Proofs.Resolution.Finite
import Spreadsheet.Proofs.Resolution.Invariant
import Spreadsheet.Proofs.Resolution.Limit
import Spreadsheet.Proofs.Resolution.Locality
import Spreadsheet.Proofs.Resolution.Progress
import Spreadsheet.Proofs.Resolution.Relocation
import Spreadsheet.Proofs.Resolution.Separate
import Spreadsheet.Proofs.Token.Slice
