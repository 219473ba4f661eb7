import Worksheet.Proofs.Number.Positional

/-! # Reading a number back

    The text of a finite number is its sign, if it is negative, and then a plain numeral. Read as a
    whole it is neither infinity nor the undefined number, whose words begin with a letter, and the
    numeral is rounded to the magnitude that was written. So the same number is read, bit for bit,
    negative zero included.

    - `text_eq_sign_append`: the text of a finite number.
    - `read?_text`: the number that is read.
-/

namespace Worksheet.Number

/-! ## Section 1: Signs and words -/

/-- The words for infinity and for the undefined number begin with a letter. -/
theorem specialMagnitude?_eq_none {digit : Char} {rest : List Char}
    (h : digit.isDigit = true) : specialMagnitude? (digit :: rest) = none := by
  have hupper : ¬digit.isUpper = true := by
    simp only [Char.isDigit, Char.isUpper, Bool.and_eq_true, decide_eq_true_eq,
      UInt32.le_iff_toNat_le] at h ⊢
    intro hupper
    have hle := h.2
    have hge := hupper.1
    simp at hle hge
    omega
  have hlower : digit.toLower = digit := Char.toLower_eq_of_not_isUpper hupper
  have hi : digit ≠ 'i' := by
    intro heq
    subst heq
    cases h
  have hn : digit ≠ 'n' := by
    intro heq
    subst heq
    cases h
  simp [specialMagnitude?, hlower, hi, hn]

/-- The sign is split off a numeral. -/
theorem splitSign_sign_append {digit : Char} {rest : List Char} (h : digit.isDigit = true)
    (negative : Bool) :
    splitSign ((if negative then ['-'] else []) ++ digit :: rest)
      = (if negative then ['-'] else [], digit :: rest) := by
  cases negative with
  | true => rfl
  | false =>
    show splitSign (digit :: rest) = ([], digit :: rest)
    unfold splitSign
    split
    · next heq =>
      cases heq
      cases h
    · next heq =>
      cases heq
      cases h
    · rfl

/-! ## Section 2: Reading -/

/-- A plain numeral is read as the number of its magnitude, negative behind a minus sign. -/
theorem read?_sign_append {n : Numeral} (h : n.Plain) (negative : Bool) :
    read? ((if negative then ['-'] else []) ++ n.text)
      = some (ofMagnitude negative n.magnitude) := by
  obtain ⟨digit, rest, htext, hdigit⟩ := h.exists_digit_cons
  have hscan : Numeral.scan? n.text = some (n, []) := by
    have happend : Numeral.scan? (n.text ++ []) = some (n, []) :=
      h.wellFormed.scan?_text_append_of_end nofun
    rwa [List.append_nil] at happend
  have hnegative : ((if negative then ['-'] else []) == ['-']) = negative := by
    cases negative <;> rfl
  rw [htext] at hscan ⊢
  unfold read?
  rw [splitSign_sign_append hdigit]
  simp only [specialMagnitude?_eq_none hdigit, hscan, hnegative]

/-- The text of a finite number is its sign and the plain numeral of its magnitude. -/
theorem text_eq_sign_append {x : Float} (h : isFinite x = true) :
    ∃ n : Numeral, n.Plain ∧ n.magnitude = magnitude x
      ∧ (text x).toList = (if isNegative x then ['-'] else []) ++ n.text := by
  have hfinite : magnitude x < infiniteMagnitude := of_decide_eq_true h
  obtain ⟨n, hplain, htext, hmagnitude⟩ := exists_plain_magnitudeText hfinite
  refine ⟨n, hplain, hmagnitude, ?_⟩
  unfold text
  rw [htext]
  by_cases hnegative : isNegative x = true
  · rw [if_pos ⟨hnegative, hfinite.le⟩, if_pos hnegative, String.toList_ofList]
    rfl
  · rw [if_neg (fun hboth => hnegative hboth.1), if_neg hnegative, String.toList_ofList]
    rfl

/-- A finite number is read back from its text. -/
theorem read?_text {x : Float} (h : isFinite x = true) : read? (text x).toList = some x := by
  obtain ⟨n, hplain, hmagnitude, htext⟩ := text_eq_sign_append h
  rw [htext, read?_sign_append hplain, hmagnitude, ofMagnitude_magnitude]

end Worksheet.Number
