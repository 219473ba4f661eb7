import Worksheet.Proofs.Number.Positional
import Worksheet.Token.Lexer

/-! # Reading back the text of a token

    A token is legible when it can be read back from its text: a name must be an identifier, and a
    number finite and not negative. Names and numbers are read as far as they go on, so one of them
    is only read back before the end of the text or a token of a single character.

    - `number_legible_of_mem_ofText`: the numbers that are read from a text are legible.
    - `lexemes_text_append`: a legible token is read back, and then what follows it.
-/

namespace Worksheet.Token

open Number

/-! ## Section 1: Kinds of characters -/

section Characters

variable {c : Char}

theorem toNat_of_isDigit (h : c.isDigit = true) : 48 ≤ c.toNat ∧ c.toNat ≤ 57 := by
  simpa [Char.isDigit, UInt32.le_iff_toNat_le] using h

theorem toNat_of_startsIdentifier (h : Name.startsIdentifier c = true) :
    65 ≤ c.toNat ∧ c.toNat ≤ 122 := by
  have hcases : (65 ≤ c.toNat ∧ c.toNat ≤ 90 ∨ 97 ≤ c.toNat ∧ c.toNat ≤ 122) ∨ c = '_' := by
    simpa [Name.startsIdentifier, Char.isAlpha, Char.isUpper, Char.isLower,
      UInt32.le_iff_toNat_le] using h
  rcases hcases with hletter | rfl
  · omega
  · decide

theorem continuesIdentifier_iff :
    Name.continuesIdentifier c = true ↔ Name.startsIdentifier c = true ∨ c.isDigit = true := by
  unfold Name.continuesIdentifier Name.startsIdentifier Char.isAlphanum
  cases c.isAlpha <;> cases c.isDigit <;> simp

theorem startsIdentifier_of_isDigit (h : c.isDigit = true) : Name.startsIdentifier c = false := by
  have hdigit := toNat_of_isDigit h
  rw [← Bool.not_eq_true]
  intro hstarts
  have := toNat_of_startsIdentifier hstarts
  omega

theorem isBlank_of_continuesIdentifier (h : Name.continuesIdentifier c = true) :
    Text.isBlank c = false := by
  have hrange : 48 ≤ c.toNat ∧ c.toNat ≤ 122 := by
    rcases continuesIdentifier_iff.mp h with hstarts | hdigit
    · have := toNat_of_startsIdentifier hstarts
      omega
    · have := toNat_of_isDigit hdigit
      omega
  rw [← Bool.not_eq_true, Text.isBlank, Text.inRanges_iff]
  rintro ⟨range, hmem, hle⟩
  simp only [Text.blankRanges, List.mem_cons, List.not_mem_nil, or_false] at hmem
  rcases hmem with rfl | rfl | rfl | rfl | rfl | rfl | rfl | rfl | rfl | rfl <;>
    (dsimp only at hle; omega)

/-- A token of a single character is no blank, and nothing that was begun goes on with it. -/
theorem not_continues_of_ofChar? (h : (ofChar? c).isSome = true) :
    Text.isBlank c = false ∧ Name.continuesIdentifier c = false
      ∧ Numeral.continues c = false := by
  unfold ofChar? at h
  split at h
  · decide
  · decide
  · rw [Option.isSome_map, Option.isSome_iff_exists] at h
    obtain ⟨op, hop⟩ := h
    obtain rfl := (Operator.ofChar?_eq_some_iff c op).mp hop
    cases op <;> decide

theorem ofChar?_of_continuesIdentifier (h : Name.continuesIdentifier c = true) :
    ofChar? c = none := by
  rw [← Option.not_isSome_iff_eq_none]
  intro hsome
  have := (not_continues_of_ofChar? hsome).2.1
  rw [h] at this
  cases this

end Characters

/-! ## Section 2: Legible tokens -/

/-- Tokens that can be read back from their text. -/
inductive Legible : Token → Prop where
  | number {magnitude : Nat} (finite : magnitude < infiniteMagnitude) :
      Legible (.number (ofMagnitude false magnitude))
  | name {spelling : String} (identifier : Name.isIdentifier spelling = true) :
      Legible (.name spelling)
  | operator (op : Operator) : Legible (.operator op)
  | opening : Legible .opening
  | closing : Legible .closing

/-- The text ends, or goes on with a token of a single character. -/
def Boundary (rest : List Char) : Prop :=
  ∀ c ∈ rest.head?, (ofChar? c).isSome = true

/-! ## Section 3: Numbers -/

theorem ofNumeral_eq_number {n : Numeral} (h : n.magnitude < infiniteMagnitude) :
    ofNumeral n = .number (ofMagnitude false n.magnitude) := by
  have hfinite : isFinite n.toFloat = true := by
    rw [isFinite, Numeral.toFloat, magnitude_ofMagnitude false h.le]
    exact decide_eq_true h
  rw [ofNumeral, if_pos hfinite]
  rfl

/-- A numeral that makes a number makes a legible one. -/
theorem legible_of_ofNumeral {n : Numeral} {x : Float} (h : ofNumeral n = .number x) :
    (Token.number x).Legible := by
  unfold ofNumeral at h
  split at h
  · next hfinite =>
    have hle : n.magnitude ≤ infiniteMagnitude := nearestDecimal_le _ _
    rw [isFinite, Numeral.toFloat, magnitude_ofMagnitude false hle, decide_eq_true_eq] at hfinite
    cases h
    exact .number hfinite
  · cases h

theorem legible_of_lexeme {c : Char} {rest : List Char} {x : Float}
    (h : (lexeme c rest).1.token = .number x) : (Token.number x).Legible := by
  rw [lexeme] at h
  split at h
  · next token htoken =>
    dsimp only at h
    subst h
    unfold ofChar? at htoken
    split at htoken
    · cases htoken
    · cases htoken
    · rw [Option.map_eq_some_iff] at htoken
      obtain ⟨op, -, hop⟩ := htoken
      cases hop
  · split at h
    · cases h
    · split at h
      · exact legible_of_ofNumeral h
      · cases h

/-- The numbers that are read from a text are legible. -/
theorem number_legible_of_mem_lexemes {text : List Char} {item : Lexeme} {x : Float}
    (hmem : item ∈ lexemes text) (hnumber : item.token = .number x) :
    (Token.number x).Legible := by
  fun_induction lexemes text with
  | case1 => cases hmem
  | case2 c rest _ ih => exact ih hmem
  | case3 c rest _ next ih =>
    rcases List.mem_cons.mp hmem with rfl | hmem
    · exact legible_of_lexeme hnumber
    · exact ih hmem

theorem number_legible_of_mem_ofText {text : String} {x : Float}
    (h : .number x ∈ ofText text) : (Token.number x).Legible := by
  obtain ⟨item, hmem, hnumber⟩ := List.mem_map.mp h
  exact number_legible_of_mem_lexemes hmem hnumber

/-! ## Section 4: Reading one token back -/

theorem lexeme_of_ofChar? {c : Char} {token : Token} (h : ofChar? c = some token)
    (rest : List Char) : lexeme c rest = (⟨token, [c]⟩, rest) := by
  rw [lexeme, h]

theorem lexeme_of_startsIdentifier {c : Char} (h : Name.startsIdentifier c = true)
    (rest : List Char) :
    lexeme c rest
      = (⟨name (String.ofList (c :: rest.takeWhile Name.continuesIdentifier)),
          c :: rest.takeWhile Name.continuesIdentifier⟩,
        rest.dropWhile Name.continuesIdentifier) := by
  rw [lexeme, ofChar?_of_continuesIdentifier (continuesIdentifier_iff.mpr (Or.inl h))]
  dsimp only
  rw [if_pos h]

theorem lexeme_of_scan? {c : Char} (hsingle : ofChar? c = none)
    (hname : Name.startsIdentifier c = false) {rest tail : List Char} {n : Numeral}
    (hscan : Numeral.scan? (c :: rest) = some (n, tail)) :
    lexeme c rest = (⟨ofNumeral n, n.text⟩, tail) := by
  rw [lexeme, hsingle]
  dsimp only
  rw [if_neg (by simp [hname]), hscan]

/-- A token of a single character is read back whatever follows it. -/
theorem lexemes_cons_of_ofChar? {c : Char} {token : Token} (h : ofChar? c = some token)
    (rest : List Char) : lexemes (c :: rest) = ⟨token, [c]⟩ :: lexemes rest := by
  have hblank := (not_continues_of_ofChar? (Option.isSome_of_eq_some h)).1
  rw [lexemes, if_neg (by simp [hblank]), lexeme_of_ofChar? h]

/-- An identifier is read back. -/
theorem lexemes_identifier_append {spelling : String} (h : Name.isIdentifier spelling = true)
    {rest : List Char} (hrest : Boundary rest) :
    lexemes (spelling.toList ++ rest)
      = ⟨.name spelling, spelling.toList⟩ :: lexemes rest := by
  have hend : ∀ c ∈ rest.head?, Name.continuesIdentifier c = false :=
    fun c hc => (not_continues_of_ofChar? (hrest c hc)).2.1
  unfold Name.isIdentifier at h
  split at h
  · cases h
  · next first tail hspelling =>
    rw [Bool.and_eq_true, List.all_eq_true] at h
    obtain ⟨hfirst, htail⟩ := h
    have hblank := isBlank_of_continuesIdentifier (continuesIdentifier_iff.mpr (Or.inl hfirst))
    rw [hspelling, List.cons_append, lexemes, if_neg (by simp [hblank]),
      lexeme_of_startsIdentifier hfirst, takeWhile_run htail hend, dropWhile_run htail hend,
      ← hspelling, String.ofList_toList]

/-- A plain numeral is read back, as the number nearest to it. -/
theorem lexemes_numeral_append {n : Numeral} (h : n.Plain)
    (hfinite : n.magnitude < infiniteMagnitude) {rest : List Char} (hrest : Boundary rest) :
    lexemes (n.text ++ rest)
      = ⟨.number (ofMagnitude false n.magnitude), n.text⟩ :: lexemes rest := by
  have hscan : Numeral.scan? (n.text ++ rest) = some (n, rest) :=
    h.wellFormed.scan?_text_append_of_end fun c hc => (not_continues_of_ofChar? (hrest c hc)).2.2
  -- the first digit tells that a numeral begins
  obtain ⟨digit, tail, htext, hdigit⟩ := h.exists_digit_cons
  have hcontinues := continuesIdentifier_iff.mpr (Or.inr hdigit)
  have hblank := isBlank_of_continuesIdentifier hcontinues
  have hlexeme : lexeme digit (tail ++ rest)
      = (⟨.number (ofMagnitude false n.magnitude), n.text⟩, rest) := by
    rw [htext, List.cons_append] at hscan
    rw [lexeme_of_scan? (ofChar?_of_continuesIdentifier hcontinues)
      (startsIdentifier_of_isDigit hdigit) hscan, ofNumeral_eq_number hfinite]
  rw [htext, List.cons_append, lexemes, if_neg (by simp [hblank]), hlexeme, ← htext]

/-- A legible token is read back, and then what follows it. An operand needs an end. -/
theorem lexemes_text_append {token : Token} (h : token.Legible) {rest : List Char}
    (hrest : token.kind.isOperand = true → Boundary rest) :
    lexemes (token.text.toList ++ rest) = ⟨token, token.text.toList⟩ :: lexemes rest := by
  cases h with
  | @number m finite =>
    obtain ⟨n, hplain, htext, rfl⟩ := exists_plain_magnitudeText finite
    have hread := lexemes_numeral_append hplain finite (hrest rfl)
    rw [htext] at hread
    rw [Token.text, text_ofMagnitude finite.le, hread]
  | name identifier => exact lexemes_identifier_append identifier (hrest rfl)
  | operator op =>
    have hchar : ofChar? op.toChar = some (.operator op) := by cases op <;> rfl
    rw [Token.text, String.toList_singleton]
    exact lexemes_cons_of_ofChar? hchar rest
  | opening => exact lexemes_cons_of_ofChar? (c := '(') rfl rest
  | closing => exact lexemes_cons_of_ofChar? (c := ')') rfl rest

end Worksheet.Token
