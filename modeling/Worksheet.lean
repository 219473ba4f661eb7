import Worksheet.Entry
import Worksheet.Formula.Basic
import Worksheet.Formula.Evaluation
import Worksheet.Formula.Structure
import Worksheet.Formula.SyntaxError
import Worksheet.Graph.Basic
import Worksheet.Graph.Change
import Worksheet.Graph.Index
import Worksheet.Graph.Order
import Worksheet.Ledger
import Worksheet.Name
import Worksheet.Number.Double
import Worksheet.Number.Numeral
import Worksheet.Number.Shortest
import Worksheet.Proofs.Entry.RoundTrip
import Worksheet.Proofs.Formula.Balance
import Worksheet.Proofs.Formula.Faults
import Worksheet.Proofs.Formula.Grammar
import Worksheet.Proofs.Formula.Inlining
import Worksheet.Proofs.Formula.Meaning
import Worksheet.Proofs.Formula.Parsing
import Worksheet.Proofs.Formula.Phrase
import Worksheet.Proofs.Formula.RoundTrip
import Worksheet.Proofs.Formula.Sameness
import Worksheet.Proofs.Graph.Coherence
import Worksheet.Proofs.Graph.Ordering
import Worksheet.Proofs.Graph.Recursion
import Worksheet.Proofs.Graph.Refinement
import Worksheet.Proofs.Graph.Revision
import Worksheet.Proofs.Graph.Sameness
import Worksheet.Proofs.Graph.Walk
import Worksheet.Proofs.Number.Magnitude
import Worksheet.Proofs.Number.Overflow
import Worksheet.Proofs.Number.Positional
import Worksheet.Proofs.Number.Reading
import Worksheet.Proofs.Number.Scanning
import Worksheet.Proofs.Sheet.Affected
import Worksheet.Proofs.Sheet.Cascade
import Worksheet.Proofs.Sheet.Consistency
import Worksheet.Proofs.Sheet.Edits
import Worksheet.Proofs.Sheet.FirstEntry
import Worksheet.Proofs.Sheet.History
import Worksheet.Proofs.Sheet.Loading
import Worksheet.Proofs.Sheet.Reachable
import Worksheet.Proofs.Sheet.Recalculation
import Worksheet.Proofs.Sheet.References
import Worksheet.Proofs.Sheet.Reload
import Worksheet.Proofs.Sheet.Soundness
import Worksheet.Proofs.Sheet.Undo
import Worksheet.Proofs.Sheet.Untouched
import Worksheet.Proofs.Token.LongestMatch
import Worksheet.Proofs.Token.Separation
import Worksheet.Proofs.Token.Spelling
import Worksheet.Sheet.Basic
import Worksheet.Sheet.Error
import Worksheet.Sheet.Request
import Worksheet.Text.Characters
import Worksheet.Text.Unprintable
import Worksheet.Token.Basic
import Worksheet.Token.Lexer
import Worksheet.Value
