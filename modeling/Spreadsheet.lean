import Spreadsheet.Text.Blank
import Spreadsheet.Text.Case
import Spreadsheet.Text.Word
import Spreadsheet.Address
import Spreadsheet.Address.Range
import Spreadsheet.Number.Literal
import Spreadsheet.Number.Show
import Spreadsheet.Cell
import Spreadsheet.Formula.Fault
import Spreadsheet.Formula.Value
import Spreadsheet.Formula.Shape
import Spreadsheet.Formula.Evaluator
import Spreadsheet.Formula.Volatile
import Spreadsheet.Sheet.Lines
import Spreadsheet.Sheet.Search
import Spreadsheet.Sheet.Table
import Spreadsheet.Sheet.Recalculation
import Spreadsheet.Sheet.Operation
import Spreadsheet.CommandLine
import Spreadsheet.Main
import Spreadsheet.Proofs.Text
import Spreadsheet.Proofs.Address.Notation
import Spreadsheet.Proofs.Address.Range
import Spreadsheet.Proofs.Address.Name
import Spreadsheet.Proofs.Address.Order
import Spreadsheet.Proofs.Address.Enumeration
import Spreadsheet.Proofs.Text.Padding
import Spreadsheet.Proofs.Text.SmallLetters
import Spreadsheet.Proofs.Text.Digits
import Spreadsheet.Proofs.Number.Nearest
import Spreadsheet.Proofs.Number.Double
import Spreadsheet.Proofs.Number.Literal
import Spreadsheet.Proofs.Number.RoundTrip
import Spreadsheet.Proofs.Calendar
import Spreadsheet.Proofs.Formula.Scan
import Spreadsheet.Proofs.Formula.Parts
import Spreadsheet.Proofs.Formula.Cell
import Spreadsheet.Proofs.Formula.Mentions
import Spreadsheet.Proofs.Formula.SharedCache
import Spreadsheet.Proofs.Formula.Demand
import Spreadsheet.Proofs.Sheet.Steps
import Spreadsheet.Proofs.Sheet.Display
import Spreadsheet.Proofs.Sheet.Index
import Spreadsheet.Proofs.Sheet.Bounds
import Spreadsheet.Proofs.Sheet.Refusal
import Spreadsheet.Proofs.Sheet.Typing
import Spreadsheet.Proofs.Sheet.NormalForm
import Spreadsheet.Proofs.Sheet.Table
import Spreadsheet.Proofs.CommandLine
import Spreadsheet.Proofs.Sheet.Results
import Spreadsheet.Proofs.Sheet.Frame
import Spreadsheet.Proofs.Sheet.Listeners
import Spreadsheet.Proofs.Sheet.Context
import Spreadsheet.Proofs.Sheet.Idempotence
import Spreadsheet.Proofs.Sheet.TextCell
import Spreadsheet.Proofs.Sheet.SharedRecalculation
import Spreadsheet.Proofs.Sheet.Cycle
import Spreadsheet.Proofs.Formula.Quiet
import Spreadsheet.Proofs.Formula.Clock
import Spreadsheet.Proofs.Sheet.OneCell
import Spreadsheet.Proofs.Formula.Balanced
import Spreadsheet.Proofs.Formula.Shapes
import Spreadsheet.Proofs.Formula.Tree
import Spreadsheet.Proofs.Formula.Reference
import Spreadsheet.Proofs.Formula.Expansion
import Spreadsheet.Proofs.Formula.Limits
import Spreadsheet.Proofs.Formula.Precedence
import Spreadsheet.Proofs.Formula.Nesting
import Spreadsheet.Proofs.Formula.Plan
import Spreadsheet.Proofs.Formula.Bookkeeping
import Spreadsheet.Proofs.Sheet.Ladder
import Spreadsheet.Proofs.Sheet.Skipping
import Spreadsheet.Proofs.Sheet.Undo
import Spreadsheet.Proofs.Sheet.LineEdits
import Spreadsheet.Proofs.Sheet.Search
import Spreadsheet.Proofs.Number.Negation
import Spreadsheet.Proofs.Formula.Signs
import Spreadsheet.Proofs.Formula.SignRuns
import Spreadsheet.Proofs.Formula.Scientific
import Spreadsheet.Proofs.Formula.Literals
import Spreadsheet.Proofs.Formula.Pieces
import Spreadsheet.Proofs.Sheet.FindNext
import Spreadsheet.Proofs.Sheet.Block
import Spreadsheet.Proofs.Number.Whole
import Spreadsheet.Proofs.Formula.Dates
import Spreadsheet.Proofs.Formula.Aggregates
import Spreadsheet.Proofs.Sheet.Labels
