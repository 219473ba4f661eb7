import Worksheet.Sheet.Basic

/-! # Requests

    A caller holds one sheet and sends requests to it. A request may change the sheet in place,
    and it may be refused, in which case the sheet is as far changed as the request has come.

    `Request.enter` sets a cell as `Sheet.enter` does, in the steps in which the parts of the sheet
    are written: the graph, the entry, the mark of an edit, and the value of each affected cell.
-/

namespace Worksheet

/-- A request with an answer of type `α`. -/
abbrev Request (α : Type) := ExceptT SheetError (StateM Sheet) α

namespace Request

/-- Sends a request to a sheet. This gives the answer and the sheet afterwards. -/
def send {α : Type} (request : Request α) (s : Sheet) : Except SheetError α × Sheet :=
  Id.run (request.run.run s)

/-- Changes the cells of the sheet. -/
def modifyCells (change : Ledger Cell → Ledger Cell) : Request Unit :=
  modify fun s => { s with cells := change s.cells }

/-- Sets the cell typed as `typed` to what `raw` is, or clears it if `raw` is empty. The answer is
    the edited cell followed by the cells that were computed again. -/
def enter (typed raw : String) : Request (List String) := do
  let s ← get
  let key ← s.cellKey typed
  let entry ← (Entry.ofRaw? s.settings.naming raw).mapError SheetError.badFormula
  let precedents := entry.elim ∅ Entry.mentions
  let order ← ((Wiring.revised s.graph key precedents).order [key]).mapError fun _ =>
    SheetError.cycle key
  modify fun s => { s with graph := s.graph.setPrecedents key precedents.toList }
  modifyCells (Ledger.setEntry · key entry)
  modify fun s => { s with edited := true }
  order.forM fun name => modifyCells (Ledger.recalculateCell · name)
  return order

/-- Marks the sheet as saved. -/
def save : Request Unit := modify Sheet.saved

end Request

end Worksheet
