import Worksheet.Formula.Evaluation

/-! # Entries

    An entry is what a user put into a cell: a number, a text or a formula. `Entry.ofRaw?` decides
    which of them a raw text is, and `Entry.raw` is a raw text for an entry.
-/

namespace Worksheet

inductive Entry where
  | number (value : Float)
  | text (value : String)
  | formula (f : Formula)

namespace Entry

/-- The entry of a cell that was never set. -/
def empty : Entry := text ""

instance : Inhabited Entry := ⟨empty⟩

/-! ## Section 1: Parts of an entry -/

def isEmpty : Entry → Bool
  | text value => value == ""
  | _ => false

def formula? : Entry → Option Formula
  | formula f => some f
  | _ => none

def isFormula (entry : Entry) : Bool := entry.formula?.isSome

/-- The names that the entry mentions: those of its formula, if it is one. -/
def mentions : Entry → Std.TreeSet String
  | formula f => f.mentions
  | _ => ∅

/-- What sort of entry it is, in a word. -/
def sort : Entry → String
  | number _ => "number"
  | text _ => "text"
  | formula _ => "formula"

/-- The value of an entry that needs no computation. -/
def literal? : Entry → Option Value
  | number value => some (.number value)
  | text value => some (.text value)
  | formula _ => none

/-- The value of an entry under a lookup for the names that it mentions. -/
def value (lookup : String → Option Float) : Entry → Value
  | number value => .number value
  | text value => .text value
  | formula f => f.value lookup

/-- Whether two entries are equal, numbers by arithmetic equality. -/
def agrees : Entry → Entry → Bool
  | number a, number b => a == b
  | text a, text b => a == b
  | formula f, formula g => f == g
  | _, _ => false

/-! ## Section 2: Raw text -/

/-- The entry as a user would type it. -/
def raw : Entry → String
  | number value => Number.text value
  | text value => value
  | formula f => "=" ++ f.text

/-- The finite number that a text is when trimmed, if it is one. -/
def finiteNumber? (raw : List Char) : Option Float :=
  (Number.read? (Text.trim raw)).filter Number.isFinite

/-- Decides what a raw text is. The empty text is no entry and clears a cell; any other is a
    finite number, or a formula if it begins with `=`, or a text. -/
def ofRaw? (naming : Naming) (raw : String) : Except SyntaxError (Option Entry) :=
  match raw.toList with
  | [] => .ok none
  | first :: rest =>
    match finiteNumber? (first :: rest) with
    | some value => .ok (some (number value))
    | none =>
      if first = '=' then (Formula.parse naming (String.ofList rest)).map fun f => some (formula f)
      else .ok (some (text raw))

end Entry

end Worksheet
