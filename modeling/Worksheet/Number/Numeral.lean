import Worksheet.Number.Double

/-! # Numerals

    A numeral is written as digits with an optional point and an optional power of ten, and holds
    at least one digit before or after the point. `Numeral.scan?` takes the longest numeral off
    the front of a text, and `Numeral.toFloat` is the number nearest to its exact value.

    `read?` reads a whole text as a number: a numeral with an optional sign, or a word for
    infinity or for the undefined number.
-/

namespace Worksheet.Number

/-! ## Section 1: Digits and signs -/

/-- The value of a run of ASCII digits in base ten. -/
def digitsValue (digits : List Char) : Nat :=
  digits.foldl (fun value digit => 10 * value + (digit.toNat - '0'.toNat)) 0

/-- Splits an optional sign off the front: nothing, or one of `+` and `-`. -/
def splitSign : List Char → List Char × List Char
  | '+' :: rest => (['+'], rest)
  | '-' :: rest => (['-'], rest)
  | rest => ([], rest)

theorem splitSign_append (text : List Char) :
    (splitSign text).1 ++ (splitSign text).2 = text := by
  unfold splitSign
  split <;> rfl

/-! ## Section 2: The power of ten -/

/-- A power of ten as written: the letter `e` or `E`, an optional sign and digits. -/
structure Exponent where
  mark : Char
  sign : List Char
  digits : List Char
  deriving DecidableEq, Repr

namespace Exponent

/-- The power as written. -/
def text (e : Exponent) : List Char :=
  e.mark :: e.sign ++ e.digits

/-- The power as a number. -/
def value (e : Exponent) : Int :=
  if e.sign = ['-'] then -(digitsValue e.digits : Int) else digitsValue e.digits

/-- Takes a power of ten off the front. A mark without digits behind it is none. -/
def scan? : List Char → Option (Exponent × List Char)
  | [] => none
  | mark :: rest =>
    if mark = 'e' ∨ mark = 'E' then
      let (sign, body) := splitSign rest
      match body.takeWhile Char.isDigit with
      | [] => none
      | digit :: digits => some (⟨mark, sign, digit :: digits⟩, body.dropWhile Char.isDigit)
    else none

theorem text_append_of_scan? {text rest : List Char} {e : Exponent}
    (h : scan? text = some (e, rest)) : e.text ++ rest = text := by
  cases text with
  | nil => simp [scan?] at h
  | cons mark body =>
    rw [scan?] at h
    split at h
    · have hsign := splitSign_append body
      rcases hs : splitSign body with ⟨sign, tail⟩
      rw [hs] at h hsign
      simp only at h hsign
      have hdigits := List.takeWhile_append_dropWhile (p := Char.isDigit) (l := tail)
      split at h
      · simp at h
      · next digit digits htake =>
        simp only [Option.some.injEq, Prod.mk.injEq] at h
        obtain ⟨rfl, rfl⟩ := h
        rw [htake] at hdigits
        rw [Exponent.text, List.cons_append, List.cons_append, List.append_assoc, hdigits, hsign]
    · simp at h

end Exponent

/-! ## Section 3: Numerals -/

/-- A numeral as written. `fraction` holds what follows the point, if there is a point. -/
structure Numeral where
  whole : List Char
  fraction : Option (List Char)
  exponent : Option Exponent
  deriving DecidableEq, Repr

namespace Numeral

/-- The point and the digits behind it, or nothing. -/
def fractionText (n : Numeral) : List Char :=
  match n.fraction with
  | none => []
  | some digits => '.' :: digits

/-- The power of ten as written, or nothing. -/
def exponentText (n : Numeral) : List Char :=
  match n.exponent with
  | none => []
  | some e => e.text

/-- The numeral as written. -/
def text (n : Numeral) : List Char :=
  n.whole ++ n.fractionText ++ n.exponentText

/-- The power of ten by which the digits, read without the point, are multiplied. -/
def power (n : Numeral) : Int :=
  (match n.exponent with
    | none => 0
    | some e => e.value) - (n.fraction.getD []).length

/-- The magnitude nearest to the exact value. -/
def magnitude (n : Numeral) : Nat :=
  nearestDecimal (digitsValue (n.whole ++ n.fraction.getD [])) n.power

/-- The number nearest to the exact value; infinite when that is too large. -/
def toFloat (n : Numeral) : Float :=
  ofMagnitude false n.magnitude

/-- Ends a numeral whose digits have been taken with the power of ten that follows, if one does. -/
def withExponent (whole : List Char) (fraction : Option (List Char)) (rest : List Char) :
    Numeral × List Char :=
  match Exponent.scan? rest with
  | some (e, rest) => (⟨whole, fraction, some e⟩, rest)
  | none => (⟨whole, fraction, none⟩, rest)

/-- Takes the longest numeral off the front. -/
def scan? (text : List Char) : Option (Numeral × List Char) :=
  let whole := text.takeWhile Char.isDigit
  match text.dropWhile Char.isDigit with
  | '.' :: tail =>
    let fraction := tail.takeWhile Char.isDigit
    if whole = [] ∧ fraction = [] then none
    else some (withExponent whole (some fraction) (tail.dropWhile Char.isDigit))
  | rest => if whole = [] then none else some (withExponent whole none rest)

theorem text_append_withExponent (whole : List Char) (fraction : Option (List Char))
    (rest : List Char) :
    (withExponent whole fraction rest).1.text ++ (withExponent whole fraction rest).2
      = whole ++ (Numeral.mk whole fraction none).fractionText ++ rest := by
  unfold withExponent
  split
  · next e tail h =>
    have := Exponent.text_append_of_scan? h
    simp [text, exponentText, fractionText, ← this]
  · simp [text, exponentText, fractionText]

/-- Nothing is lost: the numeral and what follows it are the text. -/
theorem text_append_of_scan? {text rest : List Char} {n : Numeral}
    (h : scan? text = some (n, rest)) : n.text ++ rest = text := by
  have hwhole := List.takeWhile_append_dropWhile (p := Char.isDigit) (l := text)
  rw [scan?] at h
  simp only at h
  split at h
  · next tail hdrop =>
    have hfraction := List.takeWhile_append_dropWhile (p := Char.isDigit) (l := tail)
    split at h
    · simp at h
    · simp only [Option.some.injEq] at h
      have hend := text_append_withExponent (text.takeWhile Char.isDigit)
        (some (tail.takeWhile Char.isDigit)) (tail.dropWhile Char.isDigit)
      rw [h] at hend
      rw [hend]
      simp only [fractionText, List.cons_append, List.append_assoc]
      rw [hfraction, ← hdrop, hwhole]
  · split at h
    · simp at h
    · simp only [Option.some.injEq] at h
      have hend := text_append_withExponent (text.takeWhile Char.isDigit) none
        (text.dropWhile Char.isDigit)
      rw [h] at hend
      rw [hend]
      simp [fractionText]

/-- A numeral holds at least one character. -/
theorem length_lt_of_scan? {text rest : List Char} {n : Numeral}
    (h : scan? text = some (n, rest)) : rest.length < text.length := by
  have happend := congrArg List.length (text_append_of_scan? h)
  have hpos : 0 < n.text.length := by
    rw [scan?] at h
    simp only at h
    split at h
    · split at h
      · simp at h
      · simp only [Option.some.injEq, withExponent] at h
        split at h <;>
        · cases h
          simp only [Numeral.text, fractionText, List.length_append, List.length_cons]
          omega
    · split at h
      · simp at h
      · next hne =>
        have hlen := List.length_pos_iff.mpr hne
        simp only [Option.some.injEq, withExponent] at h
        split at h <;> (cases h; simp only [Numeral.text, List.length_append]; omega)
  rw [List.length_append] at happend
  omega

end Numeral

/-! ## Section 4: Reading a whole text -/

/-- The words for the numbers that no numeral denotes; upper and lower case are the same. -/
def specialMagnitude? (text : List Char) : Option Nat :=
  let word := text.map Char.toLower
  if word = "inf".toList ∨ word = "infinity".toList then some infiniteMagnitude
  else if word = "nan".toList then some (magnitude undefined)
  else none

/-- Reads the whole of `text` as a number. -/
def read? (text : List Char) : Option Float :=
  let (sign, body) := splitSign text
  let negative := sign == ['-']
  match specialMagnitude? body with
  | some magnitude => some (ofMagnitude negative magnitude)
  | none =>
    match Numeral.scan? body with
    | some (n, []) => some (ofMagnitude negative n.magnitude)
    | _ => none

end Worksheet.Number
