import Worksheet.Proofs.Number.Magnitude
import Worksheet.Proofs.Number.Scanning

/-! # Reading back the text of a number

    A number is written as a plain numeral: digits, perhaps with a point between two of them, and
    never a power of ten. So it is scanned back as every numeral is.

    - `Decimal.plain_numeral`: positional notation writes a plain numeral.
    - `exists_plain_magnitudeText`: the text of a finite magnitude is a plain numeral that is
      rounded to this magnitude.
-/

namespace Worksheet.Number

/-! ## Section 1: Plain numerals -/

namespace Numeral

/-- A numeral with a digit before the point, if there is one, and without a power of ten. -/
structure Plain (n : Numeral) : Prop where
  whole_ne_nil : n.whole ≠ []
  whole_digits : ∀ c ∈ n.whole, c.isDigit = true
  fraction_digits : ∀ c ∈ n.fraction.getD [], c.isDigit = true
  exponent_eq : n.exponent = none

/-- A plain numeral begins with a digit. -/
theorem Plain.exists_digit_cons {n : Numeral} (h : n.Plain) :
    ∃ digit rest, n.text = digit :: rest ∧ digit.isDigit = true := by
  obtain ⟨digit, digits, hwhole⟩ := List.exists_cons_of_ne_nil h.whole_ne_nil
  refine ⟨digit, digits ++ n.fractionText ++ n.exponentText, ?_, ?_⟩
  · simp [text, hwhole]
  · exact h.whole_digits digit (by simp [hwhole])

/-- A plain numeral is made of digits and a point. -/
theorem Plain.isDigit_or_point {n : Numeral} (h : n.Plain) {c : Char} (hc : c ∈ n.text) :
    c.isDigit = true ∨ c = '.' := by
  obtain ⟨whole, fraction, exponent⟩ := n
  obtain ⟨-, hwhole, hfraction, rfl⟩ := h
  simp only [text, exponentText, List.append_nil, List.mem_append] at hc
  rcases hc with hc | hc
  · exact Or.inl (hwhole c hc)
  · cases fraction with
    | none => cases hc
    | some digits =>
      rcases List.mem_cons.mp hc with hpoint | hdigit
      · exact Or.inr hpoint
      · exact Or.inl (hfraction c hdigit)

/-- A plain numeral is a numeral. -/
theorem Plain.wellFormed {n : Numeral} (h : n.Plain) : n.WellFormed where
  whole_digits := h.whole_digits
  fraction_digits := h.fraction_digits
  digits_ne_nil := Or.inl h.whole_ne_nil
  exponent := by simp [h.exponent_eq]

end Numeral

/-! ## Section 2: Positional notation -/

theorem digitsValue_eq_ofDigitChars (digits : List Char) :
    digitsValue digits = Nat.ofDigitChars 10 digits 0 := rfl

theorem digitsValue_append_zeros (n p : Nat) :
    digitsValue (Nat.toDigits 10 n ++ List.replicate p '0') = n * powerOfTen p := by
  rw [digitsValue_eq_ofDigitChars, Nat.ofDigitChars_append, Nat.ofDigitChars_ten_toDigits,
    Nat.ofDigitChars_replicate_zero, Nat.mul_comm]
  rfl

theorem digitsValue_leftpad (n width : Nat) :
    digitsValue ((Nat.toDigits 10 n).leftpad width '0') = n := by
  rw [digitsValue_eq_ofDigitChars, List.leftpad, Nat.ofDigitChars_append,
    Nat.ofDigitChars_replicate_zero, Nat.mul_zero, Nat.ofDigitChars_ten_toDigits]

theorem isDigit_of_mem_leftpad {n width : Nat} {c : Char}
    (h : c ∈ (Nat.toDigits 10 n).leftpad width '0') : c.isDigit = true := by
  rw [List.leftpad, List.mem_append] at h
  rcases h with h | h
  · rw [List.eq_of_mem_replicate h]
    rfl
  · exact Nat.isDigit_of_mem_toDigits (by decide) (by decide) h

namespace Decimal

/-- The numeral that positional notation writes. -/
def numeral (d : Decimal) : Numeral :=
  let digits := Nat.toDigits 10 d.digits
  match d.power with
  | .ofNat p => ⟨digits ++ List.replicate p '0', none, none⟩
  | .negSucc p =>
    let padded := digits.leftpad (p + 2) '0'
    let whole := padded.length - (p + 1)
    ⟨padded.take whole, some (padded.drop whole), none⟩

theorem text_numeral (d : Decimal) : d.numeral.text = d.positional := by
  obtain ⟨digits, power⟩ := d
  cases power <;>
    simp [numeral, positional, Numeral.text, Numeral.fractionText, Numeral.exponentText]

theorem plain_numeral (d : Decimal) : d.numeral.Plain := by
  obtain ⟨digits, power⟩ := d
  cases power with
  | ofNat p =>
    constructor
    case whole_ne_nil => simp [numeral, Nat.toDigits_ne_nil]
    case whole_digits =>
      intro c hc
      simp only [numeral, List.mem_append] at hc
      rcases hc with hc | hc
      · exact Nat.isDigit_of_mem_toDigits (by decide) (by decide) hc
      · rw [List.eq_of_mem_replicate hc]
        rfl
    case fraction_digits => simp [numeral]
    case exponent_eq => rfl
  | negSucc p =>
    constructor
    case whole_ne_nil =>
      -- the padding leaves a digit before the point
      have hlength : p + 2 ≤ ((Nat.toDigits 10 digits).leftpad (p + 2) '0').length := by
        rw [List.length_leftpad]
        omega
      intro hnil
      have hwhole := congrArg List.length hnil
      simp only [numeral, List.length_take, List.length_nil] at hwhole
      omega
    case whole_digits => exact fun c hc => isDigit_of_mem_leftpad (List.mem_of_mem_take hc)
    case fraction_digits => exact fun c hc => isDigit_of_mem_leftpad (List.mem_of_mem_drop hc)
    case exponent_eq => rfl

/-- A decimal in positional notation has the magnitude that the decimal is rounded to. -/
theorem magnitude_numeral {d : Decimal} {m : Nat} (hpos : 0 < m) (hfinite : m < infiniteMagnitude)
    (h : nearestDecimal d.digits d.power = m) : d.numeral.magnitude = m := by
  obtain ⟨digits, power⟩ := d
  cases power with
  | ofNat p =>
    have hvalue := digitsValue_append_zeros digits p
    have hread := nearestDecimal_mul_powerOfTen hpos hfinite h
    simp only [Numeral.magnitude, Numeral.power, numeral, Option.getD_none, List.append_nil]
    rw [hvalue]
    exact hread
  | negSucc p =>
    have hlength : ((Nat.toDigits 10 digits).leftpad (p + 2) '0').length
        - (((Nat.toDigits 10 digits).leftpad (p + 2) '0').length - (p + 1)) = p + 1 := by
      rw [List.length_leftpad]
      omega
    have hpower : (0 : Int) - ((p + 1 : Nat) : Int) = .negSucc p := by omega
    simp only [Numeral.magnitude, Numeral.power, numeral, Option.getD_some,
      List.take_append_drop, digitsValue_leftpad, List.length_drop]
    rw [hlength, hpower]
    exact h

end Decimal

/-- The text of a finite magnitude is a plain numeral that is rounded to this magnitude. -/
theorem exists_plain_magnitudeText {m : Nat} (hfinite : m < infiniteMagnitude) :
    ∃ n : Numeral, n.Plain ∧ n.text = magnitudeText m ∧ n.magnitude = m := by
  rcases Nat.eq_zero_or_pos m with rfl | hpos
  · refine ⟨⟨['0'], none, none⟩, ⟨by simp, by simp, by simp, rfl⟩, ?_, rfl⟩
    rw [magnitudeText, if_neg hfinite.not_gt, if_neg hfinite.ne, if_pos rfl]
    rfl
  · refine ⟨(shortest m).numeral, Decimal.plain_numeral _, ?_,
      Decimal.magnitude_numeral hpos hfinite (nearestDecimal_shortest hpos hfinite)⟩
    rw [Decimal.text_numeral, magnitudeText, if_neg hfinite.not_gt, if_neg hfinite.ne,
      if_neg hpos.ne']

/-- A number that is neither negative nor undefined is written as its magnitude. -/
theorem text_ofMagnitude {m : Nat} (h : m ≤ infiniteMagnitude) :
    (text (ofMagnitude false m)).toList = magnitudeText m := by
  rw [text, isNegative_ofMagnitude false h, magnitude_ofMagnitude false h, if_neg (by simp),
    String.toList_ofList]

end Worksheet.Number
