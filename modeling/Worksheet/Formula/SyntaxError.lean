/-! # Why a text is not a formula -/

namespace Worksheet

/-- Tokens are shown by their text. -/
inductive SyntaxError where
  | noTokens
  | badStart (first : String)
  | badEnd (last : String)
  | operandExpected (after found : String)
  | operatorExpected (after found : String)
  /-- A parenthesis closes that was not opened; tokens are counted from zero. -/
  | unopenedParen (position : Nat)
  /-- This many parentheses were not closed. -/
  | unclosedParens (count : Nat)
  | strayText (text : String)
  /-- The key of a name is not an identifier. -/
  | unusableKey (name key : String)
  /-- The key of a name is not accepted. -/
  | refusedKey (name key : String)
  deriving DecidableEq, Repr

namespace SyntaxError

/-- The message shown for an error. -/
def message : SyntaxError → String
  | noTokens => "formula must contain at least one token"
  | badStart first =>
    "formula must start with a number, variable, or '(' but starts with '" ++ first ++ "'"
  | badEnd last =>
    "formula must end with a number, variable, or ')' but ends with '" ++ last ++ "'"
  | operandExpected after found =>
    "'" ++ after ++ "' must be followed by a number, variable, or '(' but found '" ++ found ++ "'"
  | operatorExpected after found =>
    "'" ++ after ++ "' must be followed by an operator or ')' but found '" ++ found ++ "'"
  | unopenedParen position => "unmatched ')' at token " ++ toString position
  | unclosedParens count => toString count ++ " unclosed '('"
  | strayText text => "unexpected token '" ++ text ++ "'"
  | unusableKey name key =>
    "variable '" ++ name ++ "' normalizes to '" ++ key ++ "', which is not a legal variable"
  | refusedKey name key =>
    "variable '" ++ name ++ "' (normalized '" ++ key ++ "') was rejected by the validator"

end SyntaxError

end Worksheet
