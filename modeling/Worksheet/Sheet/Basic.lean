import Worksheet.Entry
import Worksheet.Graph.Order
import Worksheet.Ledger
import Worksheet.Sheet.Error

/-! # Sheets

    A sheet holds an entry and a value for each cell that was set. `Sheet.enter` sets a cell: the
    new entry is refused if it would close a cycle, and otherwise every cell that reads the edited
    one, directly or through others, is computed again, each after all that it reads.

    The graph of a sheet has an edge from each name that a stored formula mentions to the cell
    that holds the formula.
-/

namespace Worksheet

/-! ## Section 1: State -/

/-- What a sheet is created with. -/
structure Settings where
  naming : Naming := .plain
  version : String := "default"

/-- A stored cell. -/
structure Cell where
  entry : Entry
  value : Value

structure Sheet where
  settings : Settings
  cells : Ledger Cell
  graph : Graph
  /-- Whether an edit has succeeded since the sheet was created or last saved. -/
  edited : Bool

namespace Sheet

/-- A sheet without cells. -/
def empty (settings : Settings) : Sheet := ⟨settings, .empty, .empty, false⟩

/-- The sheet once it was saved. -/
def saved (s : Sheet) : Sheet := { s with edited := false }

/-- How many cells have an entry. -/
def size (s : Sheet) : Nat := s.cells.size

def isEmpty (s : Sheet) : Bool := s.cells.isEmpty

/-- The cells with an entry, in the order in which they were first set. -/
def names (s : Sheet) : List String := s.cells.names

/-- The cells with their entries, in the order in which they were first set. -/
def listing (s : Sheet) : List (String × Entry) :=
  s.cells.toList.map fun item => (item.1, item.2.entry)

/-- The cells with their entries as raw text, in the order in which they were first set. -/
def rawEntries (s : Sheet) : List (String × String) :=
  s.cells.toList.map fun (name, cell) => (name, cell.entry.raw)

/-- All names that are set or mentioned by a formula. -/
def knownNames (s : Sheet) : Std.TreeSet String :=
  s.cells.toList.foldl (fun known (name, cell) =>
    (known.insert name).insertMany cell.entry.mentions.toList) ∅

/-! ## Section 2: Questions about a cell -/

/-- The key of the cell that is meant by a typed name. -/
def cellKey (s : Sheet) (typed : String) : Except SheetError String :=
  match s.settings.naming.cell? typed with
  | some key => .ok key
  | none => .error (.noSuchName typed)

/-- The entry of a cell; the empty text if it has none. -/
def entry (s : Sheet) (typed : String) : Except SheetError Entry :=
  (s.cellKey typed).map fun key => ((s.cells.get? key).map Cell.entry).getD .empty

/-- The value of a cell; the empty text if it has no entry. -/
def value (s : Sheet) (typed : String) : Except SheetError Value :=
  (s.cellKey typed).map fun key => ((s.cells.get? key).map Cell.value).getD .empty

/-- The cells whose formulas mention a cell. -/
def dependents (s : Sheet) (typed : String) : Except SheetError (Std.TreeSet String) :=
  (s.cellKey typed).map s.graph.dependents

/-- The given cells and all that must be computed again when these change, in a safe order. -/
def affectedBy (s : Sheet) (typed : List String) : Except SheetError (List String) := do
  let keys ← typed.mapM s.cellKey
  ((Wiring.current s.graph).order keys).mapError .cycle

end Sheet

/-! ## Section 3: Recalculation -/

namespace Ledger

/-- The number that a formula finds under a name. -/
def lookup (cells : Ledger Cell) (name : String) : Option Float :=
  (cells.get? name).bind fun cell => cell.value.number?

/-- Computes the value of one cell again, if it holds a formula. -/
def recalculateCell (cells : Ledger Cell) (name : String) : Ledger Cell :=
  match cells.get? name with
  | some ⟨.formula f, _⟩ => cells.put name ⟨.formula f, f.value cells.lookup⟩
  | _ => cells

/-- Computes the values of some cells again, in the given order. -/
def recalculate (cells : Ledger Cell) (order : List String) : Ledger Cell :=
  order.foldl recalculateCell cells

/-- Sets a cell or clears it. The value of a formula is still to be computed. -/
def setEntry (cells : Ledger Cell) (name : String) : Option Entry → Ledger Cell
  | some entry => cells.put name ⟨entry, entry.literal?.getD .empty⟩
  | none => cells.erase name

end Ledger

/-! ## Section 4: Edits -/

namespace Sheet

/-- The sheet after an edit that was found to close no cycle. -/
def commit (s : Sheet) (key : String) (entry : Option Entry) (precedents : Std.TreeSet String)
    (order : List String) : Sheet :=
  { s with
    cells := (s.cells.setEntry key entry).recalculate order
    graph := s.graph.setPrecedents key precedents.toList
    edited := true }

/-- Sets the cell typed as `typed` to what `raw` is, or clears it if `raw` is empty. With the new
    sheet comes the edited cell followed by the cells that were computed again. -/
def enter (s : Sheet) (typed raw : String) : Except SheetError (Sheet × List String) := do
  let key ← s.cellKey typed
  let entry ← (Entry.ofRaw? s.settings.naming raw).mapError .badFormula
  let precedents := entry.elim ∅ Entry.mentions
  match (Wiring.revised s.graph key precedents).order [key] with
  | .error _ => .error (.cycle key)
  | .ok order => .ok (s.commit key entry precedents order, order)

/-- A sheet with the given entries, set in order. The first that is refused ends it. -/
def load (settings : Settings) (entries : List (String × String)) : Except SheetError Sheet := do
  let s ← entries.foldlM (fun s (typed, raw) => (s.enter typed raw).map Prod.fst) (empty settings)
  return s.saved

end Sheet

end Worksheet
