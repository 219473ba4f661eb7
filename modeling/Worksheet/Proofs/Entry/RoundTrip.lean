import Worksheet.Entry
import Worksheet.Proofs.Formula.RoundTrip
import Worksheet.Proofs.Number.Reading

/-! # Reading back the raw text of an entry

    A raw text is tried as a number first, so that it must be shown of each sort of entry that its
    raw text is not taken for another: the text of a number has no blanks that would be trimmed,
    and no number begins with `=`. A text is kept as it was typed, and stays what it was.

    - `Text.trim_eq_self`: a text without blanks is not trimmed.
    - `Entry.finiteNumber?_text`, `Entry.finiteNumber?_equals`: what is taken for a number.
    - `Entry.ofRaw?_raw`: what was read is read back.
-/

namespace Worksheet

/-! ## Section 1: Trimming -/

namespace Text

/-- What does not begin with a blank is trimmed at its end only. -/
theorem trim_cons {c : Char} (h : isBlank c = false) (rest : List Char) :
    trim (c :: rest) = c :: (rest.reverse.dropWhile isBlank).reverse := by
  have hfirst : ¬isBlank c = true := by simp [h]
  unfold trim
  rw [List.dropWhile_cons_of_neg hfirst, List.reverse_cons, List.dropWhile_append]
  split
  · next hempty =>
    rw [List.isEmpty_iff.mp hempty, List.dropWhile_cons_of_neg hfirst]
    rfl
  · rw [List.reverse_append]
    rfl

/-- A text without blanks is not trimmed. -/
theorem trim_eq_self {text : List Char} (h : ∀ c ∈ text, isBlank c = false) : trim text = text := by
  have hdrop {run : List Char} (hrun : ∀ c ∈ run, isBlank c = false) :
      ([] ++ run).dropWhile isBlank = run :=
    Number.dropWhile_run nofun fun c hc => hrun c (List.mem_of_mem_head? hc)
  have hreverse : ∀ c ∈ text.reverse, isBlank c = false :=
    fun c hc => h c (List.mem_reverse.mp hc)
  have hfront := hdrop h
  have hback := hdrop hreverse
  rw [List.nil_append] at hfront hback
  rw [trim, hfront, hback, List.reverse_reverse]

end Text

/-! ## Section 2: What is taken for a number -/

namespace Number

/-- No number begins with `=`. -/
theorem read?_equals (rest : List Char) : read? ('=' :: rest) = none := by
  have hspecial : specialMagnitude? ('=' :: rest) = none := by
    simp [specialMagnitude?]
  have hscan : Numeral.scan? ('=' :: rest) = none := by
    simp [Numeral.scan?, Char.isDigit]
  have hsplit : splitSign ('=' :: rest) = ([], '=' :: rest) := rfl
  unfold read?
  rw [hsplit]
  simp only [hspecial, hscan]

/-- The text of a finite number has no blanks. -/
theorem isBlank_of_mem_text {x : Float} (h : isFinite x = true) {c : Char}
    (hc : c ∈ (text x).toList) : Text.isBlank c = false := by
  obtain ⟨n, hplain, -, htext⟩ := text_eq_sign_append h
  rw [htext, List.mem_append] at hc
  rcases hc with hsign | hnumeral
  · have hminus : c = '-' := by
      split at hsign
      · exact List.mem_singleton.mp hsign
      · cases hsign
    subst hminus
    decide
  · rcases hplain.isDigit_or_point hnumeral with hdigit | rfl
    · exact Token.isBlank_of_continuesIdentifier (Token.continuesIdentifier_iff.mpr (Or.inr hdigit))
    · decide

end Number

namespace Entry

/-- The text of a finite number is taken for this number. -/
theorem finiteNumber?_text {x : Float} (h : Number.isFinite x = true) :
    finiteNumber? (Number.text x).toList = some x := by
  rw [finiteNumber?, Text.trim_eq_self fun c hc => Number.isBlank_of_mem_text h hc,
    Number.read?_text h, Option.filter_some, if_pos h]

/-- Nothing that begins with `=` is taken for a number. -/
theorem finiteNumber?_equals (rest : List Char) : finiteNumber? ('=' :: rest) = none := by
  rw [finiteNumber?, Text.trim_cons (by decide), Number.read?_equals, Option.filter_none]

/-! ## Section 3: Reading back -/

variable {naming : Naming} {raw : String} {entry : Entry}

/-- The three sorts of entries, each with what was found out about the raw text. -/
theorem ofRaw?_eq_some_iff :
    ofRaw? naming raw = .ok (some entry) ↔
      ∃ first rest, raw.toList = first :: rest
        ∧ match entry with
          | number value => finiteNumber? (first :: rest) = some value
          | text value => finiteNumber? (first :: rest) = none ∧ first ≠ '=' ∧ value = raw
          | formula f => finiteNumber? (first :: rest) = none ∧ first = '='
              ∧ Formula.parse naming (String.ofList rest) = .ok f := by
  unfold ofRaw?
  cases raw.toList with
  | nil => simp
  | cons first rest =>
    cases hnumber : finiteNumber? (first :: rest) with
    | some value => cases entry <;> simp [hnumber]
    | none =>
      by_cases hequals : first = '='
      · subst hequals
        cases hparse : Formula.parse naming (String.ofList rest) <;>
          cases entry <;> simp [hnumber, hparse, Except.map]
      · cases entry <;> simp [hnumber, hequals, eq_comm]

/-- The entry that was read from a raw text is read from its own raw text, if every key is its own
    key. -/
theorem ofRaw?_raw (hidempotent : ∀ name, naming.key (naming.key name) = naming.key name)
    (h : ofRaw? naming raw = .ok (some entry)) : ofRaw? naming entry.raw = .ok (some entry) := by
  obtain ⟨first, rest, hraw, hentry⟩ := ofRaw?_eq_some_iff.mp h
  cases entry with
  | number value =>
    have hfinite : Number.isFinite value = true := (Option.filter_eq_some_iff.mp hentry).2
    have hread := finiteNumber?_text hfinite
    cases htext : (Number.text value).toList with
    | nil =>
      rw [htext] at hread
      cases hread
    | cons first rest =>
      rw [htext] at hread
      exact ofRaw?_eq_some_iff.mpr ⟨first, rest, htext, hread⟩
  | text value =>
    obtain ⟨-, -, rfl⟩ := hentry
    exact h
  | formula f =>
    obtain ⟨-, -, hparse⟩ := hentry
    refine ofRaw?_eq_some_iff.mpr ⟨'=', f.text.toList, ?_, finiteNumber?_equals _, rfl, ?_⟩
    · exact String.toList_append
    · rw [String.ofList_toList]
      exact Formula.parse_text hparse hidempotent

end Entry

end Worksheet
