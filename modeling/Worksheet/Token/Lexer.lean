import Worksheet.Name
import Worksheet.Text.Characters
import Worksheet.Token.Basic

/-! # Splitting a text into tokens

    Blanks separate tokens and are dropped. At any other character the next token is, in this
    order of choice: a parenthesis or an operator; the longest identifier; the longest numeral;
    or, where none of these begins, a stray token that lasts until one of them, or a blank, does.

    A numeral that is too large to be a finite number is a stray token.
-/

namespace Worksheet.Token

/-! ## Section 1: Where tokens begin -/

/-- Tokens of a single character. -/
def ofChar? (c : Char) : Option Token :=
  match c with
  | '(' => some opening
  | ')' => some closing
  | c => (Operator.ofChar? c).map operator

/-- Whether a numeral begins here: with a digit, or with a point before a digit. -/
def startsNumeral : List Char → Bool
  | '.' :: c :: _ => c.isDigit
  | c :: _ => c.isDigit
  | [] => false

/-- Whether a stray token ends here, before a blank or the beginning of another token. -/
def endsStray : List Char → Bool
  | [] => true
  | c :: rest =>
    Text.isBlank c || (ofChar? c).isSome || Name.startsIdentifier c || startsNumeral (c :: rest)

/-- Splits a text where a stray token ends. -/
def splitStray : List Char → List Char × List Char
  | [] => ([], [])
  | c :: rest =>
    if endsStray (c :: rest) then ([], c :: rest)
    else
      let (text, rest) := splitStray rest
      (c :: text, rest)

theorem splitStray_append (text : List Char) :
    (splitStray text).1 ++ (splitStray text).2 = text := by
  induction text with
  | nil => rfl
  | cons c rest ih =>
    rw [splitStray]
    split
    · rfl
    · simp [ih]

/-! ## Section 2: One token -/

/-- The token of a numeral. -/
def ofNumeral (numeral : Number.Numeral) : Token :=
  if Number.isFinite numeral.toFloat then number numeral.toFloat
  else stray (String.ofList numeral.text)

/-- A token and the characters that it was read from. -/
structure Lexeme where
  token : Token
  text : List Char

/-- The token that begins with `c`, which is not blank, and what follows it. -/
def lexeme (c : Char) (rest : List Char) : Lexeme × List Char :=
  match ofChar? c with
  | some token => (⟨token, [c]⟩, rest)
  | none =>
    if Name.startsIdentifier c then
      let text := c :: rest.takeWhile Name.continuesIdentifier
      (⟨name (String.ofList text), text⟩, rest.dropWhile Name.continuesIdentifier)
    else
      match Number.Numeral.scan? (c :: rest) with
      | some (numeral, rest) => (⟨ofNumeral numeral, numeral.text⟩, rest)
      | none =>
        let (text, rest) := splitStray rest
        (⟨stray (String.ofList (c :: text)), c :: text⟩, rest)

/-- Nothing is lost: the characters of the token and what follows it are the text. -/
theorem lexeme_append (c : Char) (rest : List Char) :
    (lexeme c rest).1.text ++ (lexeme c rest).2 = c :: rest := by
  rw [lexeme]
  split
  · rfl
  · split
    · simp [List.takeWhile_append_dropWhile]
    · split
      · next h => exact Number.Numeral.text_append_of_scan? h
      · simp [splitStray_append]

theorem length_lexeme_le (c : Char) (rest : List Char) :
    (lexeme c rest).2.length ≤ rest.length := by
  rw [lexeme]
  split
  · exact Nat.le_refl _
  · split
    · exact (List.dropWhile_suffix _).length_le
    · split
      · next h => exact Nat.lt_succ_iff.mp (Number.Numeral.length_lt_of_scan? h)
      · have := congrArg List.length (splitStray_append rest)
        rw [List.length_append] at this
        simp only
        omega

/-! ## Section 3: All tokens -/

/-- The tokens of a text with the characters that they were read from. -/
def lexemes : List Char → List Lexeme
  | [] => []
  | c :: rest =>
    if Text.isBlank c then lexemes rest
    else
      let next := lexeme c rest
      next.1 :: lexemes next.2
termination_by text => text.length
decreasing_by
  · exact Nat.lt_succ_self _
  · exact Nat.lt_succ_of_le (length_lexeme_le c rest)

/-- The tokens of a text. -/
def ofText (text : String) : List Token :=
  (lexemes text.toList).map Lexeme.token

end Worksheet.Token
