import Std.Data.TreeSet
import Worksheet.Formula.Structure
import Worksheet.Text.Characters
import Worksheet.Token.Lexer

/-! # Formulas

    A formula is a sequence of tokens whose structure is sound and whose names are keys.
    `Formula.parse` reads one from text under the naming rules of a sheet.

    Two formulas are the same when their tokens are, numbers being compared by their text.
-/

namespace Worksheet

/-- A sequence of tokens in whose structure nothing is wrong. -/
structure Formula where
  tokens : List Token
  sound : structureError? tokens = none

/-! ## Section 1: Reading -/

namespace Naming

/-- What the naming rules have against a name. -/
def nameError? (naming : Naming) (name : String) : Option SyntaxError :=
  if !Name.isIdentifier (naming.key name) then some (.unusableKey name (naming.key name))
  else if !naming.accepts (naming.key name) then some (.refusedKey name (naming.key name))
  else none

/-- What the naming rules have against the first name that they refuse. -/
def tokensError? (naming : Naming) (tokens : List Token) : Option SyntaxError :=
  tokens.findSome? fun token => token.name?.bind naming.nameError?

end Naming

namespace Formula

theorem sound_map_mapName {tokens : List Token} (h : structureError? tokens = none)
    (rename : String → String) : structureError? (tokens.map (Token.mapName rename)) = none := by
  have hkinds : (tokens.map (Token.mapName rename)).map Token.kind = tokens.map Token.kind := by
    simp [Function.comp_def, Token.kind_mapName]
  have := structureError?_isNone_congr hkinds
  rw [h] at this
  exact Option.isNone_iff_eq_none.mp this

/-- Reads a formula. The structure is checked first, and then the names in order; each is replaced
    by its key. -/
def parse (naming : Naming) (text : String) : Except SyntaxError Formula :=
  let tokens := Token.ofText text
  match h : structureError? tokens with
  | some error => .error error
  | none =>
    match naming.tokensError? tokens with
    | some error => .error error
    | none => .ok ⟨tokens.map (Token.mapName naming.key), sound_map_mapName h _⟩

/-! ## Section 2: Writing -/

/-- The formula as text, without blanks. -/
def text (f : Formula) : String :=
  String.ofList (f.tokens.flatMap fun token => token.text.toList)

/-- The formula as shown to a programmer. -/
def inspect (f : Formula) : String :=
  "Formula(" ++ Text.quoted f.text ++ ")"

/-! ## Section 3: Names -/

/-- The names that the formula mentions, ascending and each once. -/
def mentions (f : Formula) : Std.TreeSet String :=
  Std.TreeSet.ofList (f.tokens.filterMap Token.name?)

theorem mem_mentions_iff (f : Formula) (name : String) :
    name ∈ f.mentions ↔ Token.name name ∈ f.tokens := by
  simp [mentions, Std.TreeSet.mem_ofList, Token.name?_eq_some_iff]

end Formula

/-! ## Section 4: Sameness -/

/-- Numbers are the same when their texts are, other tokens when they are equal. -/
def Token.same : Token → Token → Bool
  | .number a, .number b => Number.text a == Number.text b
  | s, t => s == t

namespace Formula

instance : BEq Formula := ⟨fun f g => f.tokens.isEqv g.tokens Token.same⟩

/-- What of a formula enters its hash: the number of its tokens, and the kind and text of each. -/
def fingerprint (f : Formula) : Nat × List (Token.Kind × String) :=
  (f.tokens.length, f.tokens.map fun token => (token.kind, token.text))

instance : Hashable Formula := ⟨fun f => hash f.fingerprint⟩

end Formula

end Worksheet
