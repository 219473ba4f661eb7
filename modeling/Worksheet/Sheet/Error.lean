import Worksheet.Formula.SyntaxError
import Worksheet.Text.Characters

/-! # Why a sheet refuses a request -/

namespace Worksheet

inductive SheetError where
  /-- The name as typed means no cell. -/
  | noSuchName (typed : String)
  /-- The entry begins as a formula and is none. -/
  | badFormula (error : SyntaxError)
  /-- The cell would come to depend on itself. -/
  | cycle (cell : String)
  deriving DecidableEq, Repr

namespace SheetError

/-- The message shown for an error. A name is quoted as typed. -/
def message : SheetError → String
  | noSuchName typed => "Invalid cell name: " ++ Text.quoted typed
  | badFormula error => "Formula syntax error: " ++ error.message
  | cycle cell => "Circular dependency detected involving cell " ++ cell

def isCycle : SheetError → Bool
  | cycle _ => true
  | _ => false

end SheetError

end Worksheet
