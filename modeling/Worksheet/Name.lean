/-! # Names of cells

    A formula mentions names, which are identifiers: a letter or underscore followed by letters,
    digits and underscores. A cell name is letters followed by digits. Letters and digits are
    those of ASCII. Every cell name is an identifier, so a formula can mention every cell.

    A sheet may tell names apart more coarsely than by their spelling, or refuse some of them:
    `Naming` holds its two decisions, and `Naming.cell?` applies both to a name as typed.
-/

namespace Worksheet

/-! ## Section 1: The two grammars -/

namespace Name

/-- Characters that may begin an identifier. -/
def startsIdentifier (c : Char) : Bool :=
  c.isAlpha || c == '_'

/-- Characters that may follow in an identifier. -/
def continuesIdentifier (c : Char) : Bool :=
  c.isAlphanum || c == '_'

/-- Whether `name` is an identifier. -/
def isIdentifier (name : String) : Bool :=
  match name.toList with
  | [] => false
  | first :: rest => startsIdentifier first && rest.all continuesIdentifier

/-- Whether `name` has the form of a cell name. -/
def isCell (name : String) : Bool :=
  match name.toList.dropWhile Char.isAlpha with
  | [] => false
  | digits => name.toList.takeWhile Char.isAlpha ≠ [] && digits.all Char.isDigit

end Name

/-! ## Section 2: Naming rules -/

/-- The naming rules of a sheet. -/
structure Naming where
  /-- The key under which a typed name is filed. Names with one key are the same name. -/
  key : String → String
  /-- Whether a key may be used. -/
  accepts : String → Bool

namespace Naming

/-- Every name is its own key, and all keys are accepted. -/
def plain : Naming := ⟨id, fun _ => true⟩

/-- The key of a name is its upper case, of ASCII letters only, and all keys are accepted. -/
def uppercase : Naming := ⟨String.map Char.toUpper, fun _ => true⟩

/-- The key of a cell. The name must be a cell name both as typed and as a key, and the key must
    be accepted. -/
def cell? (naming : Naming) (typed : String) : Option String :=
  if Name.isCell typed && Name.isCell (naming.key typed) && naming.accepts (naming.key typed) then
    some (naming.key typed)
  else none

theorem cell?_eq_some_iff (naming : Naming) (typed key : String) :
    naming.cell? typed = some key ↔
      Name.isCell typed = true ∧ key = naming.key typed ∧ Name.isCell key = true
        ∧ naming.accepts key = true := by
  unfold cell?
  constructor
  · intro h
    split at h
    · next hc =>
      simp only [Bool.and_eq_true] at hc
      cases h
      exact ⟨hc.1.1, rfl, hc.1.2, hc.2⟩
    · simp at h
  · rintro ⟨htyped, rfl, hkey, haccepts⟩
    simp [htyped, hkey, haccepts]

end Naming

end Worksheet
