import Worksheet.Number.Numeral

/-! # The longest numeral

    A numeral is well formed when it is digits, digits with a point behind, between or before them,
    and then perhaps `e` or `E`, a sign and digits. The scanner never looks back: it takes digits, a
    point and digits as far as they go, and a power of ten only once it has seen a digit of it. What
    it takes this way is well formed, and no beginning of the text that is well formed is longer.

    - `Exponent.WellFormed`, `Numeral.WellFormed`: how numerals are written.
    - `WellFormed.scan?_text_append_of_end`: a well-formed numeral is scanned back.
    - `Numeral.scan?_eq_some_iff`: the scanner takes the longest numeral.
-/

namespace Worksheet.Number

/-! ## Section 1: Runs of characters -/

section Runs

variable {p : Char → Bool} {run rest : List Char}

theorem takeWhile_run (hrun : ∀ c ∈ run, p c = true) (hrest : ∀ c ∈ rest.head?, p c = false) :
    (run ++ rest).takeWhile p = run := by
  rw [List.takeWhile_append_of_pos hrun]
  cases rest with
  | nil => rw [List.takeWhile_nil, List.append_nil]
  | cons c rest => rw [List.takeWhile_cons_of_neg (by simp [hrest c rfl]), List.append_nil]

theorem dropWhile_run (hrun : ∀ c ∈ run, p c = true) (hrest : ∀ c ∈ rest.head?, p c = false) :
    (run ++ rest).dropWhile p = rest := by
  rw [List.dropWhile_append_of_pos hrun]
  cases rest with
  | nil => rfl
  | cons c rest => exact List.dropWhile_cons_of_neg (by simp [hrest c rfl])

theorem forall_mem_takeWhile (p : Char → Bool) (text : List Char) :
    ∀ c ∈ text.takeWhile p, p c = true :=
  fun _ hc => List.all_eq_true.mp List.all_takeWhile _ hc

theorem forall_head?_dropWhile (p : Char → Bool) (text : List Char) :
    ∀ c ∈ (text.dropWhile p).head?, p c = false := by
  intro c hc
  have hnot := List.head?_dropWhile_not p text
  rw [Option.mem_def.mp hc] at hnot
  simpa using hnot

end Runs

/-! ## Section 2: Powers of ten -/

namespace Exponent

structure WellFormed (e : Exponent) : Prop where
  mark_eq : e.mark = 'e' ∨ e.mark = 'E'
  sign_eq : e.sign = [] ∨ e.sign = ['+'] ∨ e.sign = ['-']
  digits_ne_nil : e.digits ≠ []
  isDigit : ∀ c ∈ e.digits, c.isDigit = true

/-- The same power of ten with more digits. -/
def extend (e : Exponent) (digits : List Char) : Exponent :=
  ⟨e.mark, e.sign, e.digits ++ digits⟩

variable {e : Exponent}

theorem WellFormed.splitSign (h : e.WellFormed) (rest : List Char) :
    Number.splitSign (e.sign ++ (e.digits ++ rest)) = (e.sign, e.digits ++ rest) := by
  obtain ⟨mark, sign, digits⟩ := e
  obtain ⟨-, hsign, hne, hdigits⟩ := h
  dsimp only at hsign hne hdigits ⊢
  rcases hsign with rfl | rfl | rfl
  · -- without a sign a digit comes next, which is none
    obtain ⟨digit, digits, rfl⟩ := List.exists_cons_of_ne_nil hne
    have hdigit := hdigits digit List.mem_cons_self
    rw [List.nil_append, List.cons_append]
    unfold Number.splitSign
    split
    · next hcons =>
      cases hcons
      cases hdigit
    · next hcons =>
      cases hcons
      cases hdigit
    · rfl
  · rfl
  · rfl

/-- A power of ten is taken off the front with all digits that follow it. -/
theorem WellFormed.scan?_text_append (h : e.WellFormed) (rest : List Char) :
    scan? (e.text ++ rest)
      = some (e.extend (rest.takeWhile Char.isDigit), rest.dropWhile Char.isDigit) := by
  have htext : e.text ++ rest = e.mark :: (e.sign ++ (e.digits ++ rest)) := by
    simp [text]
  have htake : (e.digits ++ rest).takeWhile Char.isDigit
      = e.digits ++ rest.takeWhile Char.isDigit := List.takeWhile_append_of_pos h.isDigit
  rw [htext, scan?, if_pos h.mark_eq, h.splitSign]
  dsimp only
  rw [List.dropWhile_append_of_pos h.isDigit]
  split
  · next hnil =>
    rw [htake, List.append_eq_nil_iff] at hnil
    exact absurd hnil.1 h.digits_ne_nil
  · next digit digits hcons => rw [extend, ← htake, hcons]

/-- What is taken for a power of ten is one. -/
theorem wellFormed_of_scan? {text rest : List Char} (h : scan? text = some (e, rest)) :
    e.WellFormed := by
  unfold scan? at h
  split at h
  · cases h
  · next mark body =>
    split at h
    · next hmark =>
      have hsign : (Number.splitSign body).1 = [] ∨ (Number.splitSign body).1 = ['+']
          ∨ (Number.splitSign body).1 = ['-'] := by
        unfold Number.splitSign
        split <;> simp
      dsimp only at h
      split at h
      · cases h
      · next digit digits hdigits =>
        cases h
        refine ⟨hmark, hsign, List.cons_ne_nil _ _, ?_⟩
        rw [← hdigits]
        exact forall_mem_takeWhile _ _
    · cases h

end Exponent

/-! ## Section 3: Well-formed numerals -/

namespace Numeral

structure WellFormed (n : Numeral) : Prop where
  whole_digits : ∀ c ∈ n.whole, c.isDigit = true
  fraction_digits : ∀ c ∈ n.fraction.getD [], c.isDigit = true
  /-- There is a digit before the point or behind it. -/
  digits_ne_nil : n.whole ≠ [] ∨ n.fraction.getD [] ≠ []
  exponent : ∀ e ∈ n.exponent, e.WellFormed

/-- Characters with which a numeral that ends in a digit may go on. -/
def continues (c : Char) : Bool :=
  c.isDigit || c == '.' || c == 'e' || c == 'E'

variable {n m : Numeral} {rest text : List Char}

theorem continues_eq_false_iff (c : Char) :
    continues c = false ↔ (c.isDigit = false ∧ c ≠ '.') ∧ c ≠ 'e' ∧ c ≠ 'E' := by
  simp [continues, and_assoc]

/-- A numeral is made of digits, a point, a mark and a sign. -/
theorem WellFormed.mem_text (h : n.WellFormed) {c : Char} (hc : c ∈ n.text) :
    c.isDigit = true ∨ c ∈ ['.', 'e', 'E', '+', '-'] := by
  obtain ⟨whole, fraction, exponent⟩ := n
  simp only [text, List.mem_append] at hc
  rcases hc with (hwhole | hfraction) | hexponent
  · exact Or.inl (h.whole_digits c hwhole)
  · cases fraction with
    | none => cases hfraction
    | some digits =>
      rcases List.mem_cons.mp hfraction with rfl | hdigit
      · simp
      · exact Or.inl (h.fraction_digits c hdigit)
  · cases exponent with
    | none => cases hexponent
    | some e =>
      obtain ⟨hmark, hsign, -, hdigits⟩ := h.exponent e rfl
      simp only [exponentText, Exponent.text, List.mem_append, List.mem_cons] at hexponent
      rcases hexponent with (rfl | hc) | hdigit
      · rcases hmark with hmark | hmark <;> simp [hmark]
      · rcases hsign with hsign | hsign | hsign <;> rw [hsign] at hc
        · cases hc
        · simp [List.mem_singleton.mp hc]
        · simp [List.mem_singleton.mp hc]
      · exact Or.inl (hdigits c hdigit)

/-- A power of ten ends the digits before it. -/
theorem WellFormed.head?_exponentText (h : n.WellFormed)
    (hrest : n.exponent = none → ∀ c ∈ rest.head?, c.isDigit = false ∧ c ≠ '.') :
    ∀ c ∈ (n.exponentText ++ rest).head?, c.isDigit = false ∧ c ≠ '.' := by
  obtain ⟨whole, fraction, exponent⟩ := n
  cases exponent with
  | none => exact hrest rfl
  | some e =>
    rintro c ⟨⟩
    rcases (h.exponent e rfl).mark_eq with hmark | hmark <;> rw [hmark] <;> decide

/-! ## Section 4: Digits, then a power of ten -/

/-- A point behind digits begins a fraction. -/
theorem scan?_point {whole : List Char} (hwhole : ∀ c ∈ whole, c.isDigit = true)
    (tail : List Char) :
    scan? (whole ++ '.' :: tail)
      = if whole = [] ∧ tail.takeWhile Char.isDigit = [] then none
        else some (withExponent whole (some (tail.takeWhile Char.isDigit))
          (tail.dropWhile Char.isDigit)) := by
  have hpoint : ∀ c ∈ ('.' :: tail).head?, c.isDigit = false := by
    rintro c ⟨⟩
    rfl
  rw [scan?, takeWhile_run hwhole hpoint, dropWhile_run hwhole hpoint]
  rfl

/-- The scanner takes the digits and the point of a numeral, and then looks for a power of ten. -/
theorem WellFormed.scan?_text_append (h : n.WellFormed)
    (hrest : n.exponent = none → ∀ c ∈ rest.head?, c.isDigit = false ∧ c ≠ '.') :
    scan? (n.text ++ rest)
      = some (withExponent n.whole n.fraction (n.exponentText ++ rest)) := by
  have hend := h.head?_exponentText hrest
  have hdigit : ∀ c ∈ (n.exponentText ++ rest).head?, c.isDigit = false :=
    fun c hc => (hend c hc).1
  have hwhole := h.whole_digits
  have hfraction := h.fraction_digits
  have hdigits := h.digits_ne_nil
  have htext : n.text ++ rest = n.whole ++ (n.fractionText ++ (n.exponentText ++ rest)) := by
    simp [text]
  rw [htext]
  unfold fractionText
  cases hn : n.fraction with
  | none =>
    -- what follows the digits is not a point, so that the scanner sees none either
    rw [hn] at hdigits
    have hne : n.whole ≠ [] := hdigits.resolve_right (fun hne => hne rfl)
    rw [scan?, List.nil_append, takeWhile_run hwhole hdigit, dropWhile_run hwhole hdigit]
    dsimp only
    split
    · next tail hpoint =>
      rw [hpoint] at hend
      exact absurd rfl (hend '.' rfl).2
    · rw [if_neg hne]
  | some digits =>
    rw [hn, Option.getD_some] at hdigits hfraction
    have hne : ¬(n.whole = [] ∧ digits = []) := fun hnil => hdigits.elim (· hnil.1) (· hnil.2)
    dsimp only
    rw [List.cons_append, scan?_point hwhole, takeWhile_run hfraction hdigit,
      dropWhile_run hfraction hdigit, if_neg hne]

theorem scan?_exponent_eq_none (hrest : ∀ c ∈ rest.head?, continues c = false) :
    Exponent.scan? rest = none := by
  cases rest with
  | nil => rfl
  | cons c rest =>
    have hc := ((continues_eq_false_iff c).mp (hrest c rfl)).2
    rw [Exponent.scan?, if_neg (by simp [hc])]

/-- A well-formed numeral is scanned back when the text behind it does not go on as one would. -/
theorem WellFormed.scan?_text_append_of_end (h : n.WellFormed)
    (hrest : ∀ c ∈ rest.head?, continues c = false) :
    scan? (n.text ++ rest) = some (n, rest) := by
  have hend : ∀ c ∈ rest.head?, c.isDigit = false ∧ c ≠ '.' :=
    fun c hc => ((continues_eq_false_iff c).mp (hrest c hc)).1
  rw [h.scan?_text_append fun _ => hend]
  obtain ⟨whole, fraction, exponent⟩ := n
  cases exponent with
  | none =>
    show some (withExponent whole fraction rest) = _
    rw [withExponent, scan?_exponent_eq_none hrest]
  | some e =>
    have hdigit : ∀ c ∈ rest.head?, c.isDigit = false := fun c hc => (hend c hc).1
    have htake : rest.takeWhile Char.isDigit = [] := @takeWhile_run _ [] rest (by simp) hdigit
    have hdrop : rest.dropWhile Char.isDigit = rest := @dropWhile_run _ [] rest (by simp) hdigit
    show some (withExponent whole fraction (e.text ++ rest)) = _
    rw [withExponent, (h.exponent e rfl).scan?_text_append, htake, hdrop, Exponent.extend,
      List.append_nil]

/-! ## Section 5: The longest numeral -/

/-- What is taken off the front is a well-formed numeral. -/
theorem wellFormed_of_scan? (h : scan? text = some (n, rest)) : n.WellFormed := by
  have hend {whole tail : List Char} (fraction : Option (List Char))
      (hwhole : ∀ c ∈ whole, c.isDigit = true)
      (hfraction : ∀ c ∈ fraction.getD [], c.isDigit = true)
      (hdigits : whole ≠ [] ∨ fraction.getD [] ≠ [])
      (hn : withExponent whole fraction tail = (n, rest)) : n.WellFormed := by
    unfold withExponent at hn
    split at hn
    · next e tail hscan =>
      cases hn
      refine ⟨hwhole, hfraction, hdigits, ?_⟩
      rintro _ ⟨⟩
      exact Exponent.wellFormed_of_scan? hscan
    · cases hn
      exact ⟨hwhole, hfraction, hdigits, by simp⟩
  unfold scan? at h
  dsimp only at h
  split at h
  · next tail _ =>
    split at h
    · cases h
    · next hne =>
      exact hend (some (tail.takeWhile Char.isDigit)) (forall_mem_takeWhile _ _)
        (forall_mem_takeWhile _ tail) (Decidable.not_and_iff_or_not.mp hne) (Option.some.inj h)
  · split at h
    · cases h
    · next hne =>
      exact hend none (forall_mem_takeWhile _ _) (by simp) (Or.inl hne) (Option.some.inj h)

theorem length_le_withExponent (whole : List Char) (fraction : Option (List Char))
    (rest : List Char) :
    (whole ++ (Numeral.mk whole fraction none).fractionText).length
      ≤ (withExponent whole fraction rest).1.text.length := by
  unfold withExponent
  split <;> simp [text, fractionText]

/-- Digits are taken as far as they go. -/
theorem exists_scan?_of_digits {digits : List Char} (hne : digits ≠ [])
    (hdigits : ∀ c ∈ digits, c.isDigit = true) (tail : List Char) :
    ∃ n rest, scan? (digits ++ tail) = some (n, rest) ∧ digits.length ≤ n.text.length := by
  have hne' : (digits ++ tail).takeWhile Char.isDigit ≠ [] := by
    rw [List.takeWhile_append_of_pos hdigits]
    exact List.append_ne_nil_of_left_ne_nil hne _
  have hlength : digits.length ≤ ((digits ++ tail).takeWhile Char.isDigit).length := by
    rw [List.takeWhile_append_of_pos hdigits, List.length_append]
    exact Nat.le_add_right _ _
  unfold scan?
  dsimp only
  generalize (digits ++ tail).takeWhile Char.isDigit = whole at hne' hlength
  have hend (fraction : Option (List Char)) (rest : List Char) :
      digits.length ≤ (withExponent whole fraction rest).1.text.length := by
    have hle := length_le_withExponent whole fraction rest
    rw [List.length_append] at hle
    omega
  split
  · rw [if_neg (fun hnil => hne' hnil.1)]
    exact ⟨_, _, rfl, hend _ _⟩
  · rw [if_neg hne']
    exact ⟨_, _, rfl, hend _ _⟩

/-- Every well-formed numeral at the front is at most as long as what is taken. -/
theorem WellFormed.exists_scan? (h : m.WellFormed) (tail : List Char) :
    ∃ n rest, scan? (m.text ++ tail) = some (n, rest) ∧ m.text.length ≤ n.text.length := by
  obtain ⟨whole, fraction, exponent⟩ := m
  -- what comes last in the numeral may go on with further digits
  cases exponent with
  | some e =>
    rw [h.scan?_text_append (by simp)]
    refine ⟨_, _, rfl, ?_⟩
    show _ ≤ (withExponent whole fraction (e.text ++ tail)).1.text.length
    rw [withExponent, (h.exponent e rfl).scan?_text_append]
    simp [text, fractionText, exponentText, Exponent.text, Exponent.extend]
  | none =>
    cases fraction with
    | some digits =>
      have htext : text ⟨whole, some digits, none⟩ ++ tail = whole ++ '.' :: (digits ++ tail) := by
        simp [text, fractionText, exponentText]
      have hdigits : ∀ c ∈ digits, c.isDigit = true := h.fraction_digits
      have hne : ¬(whole = [] ∧ digits ++ tail.takeWhile Char.isDigit = []) := by
        rintro ⟨hwhole, hnil⟩
        exact (h.digits_ne_nil.resolve_left (· hwhole)) (List.append_eq_nil_iff.mp hnil).1
      have hle := length_le_withExponent whole (some (digits ++ tail.takeWhile Char.isDigit))
        (tail.dropWhile Char.isDigit)
      rw [htext, scan?_point h.whole_digits, List.takeWhile_append_of_pos hdigits,
        List.dropWhile_append_of_pos hdigits, if_neg hne]
      refine ⟨_, _, rfl, Nat.le_trans ?_ hle⟩
      simp [text, fractionText, exponentText]
    | none =>
      have htext : text ⟨whole, none, none⟩ = whole := by
        simp [text, fractionText, exponentText]
      have hne := h.digits_ne_nil.resolve_right (fun hne => hne rfl)
      rw [htext]
      exact exists_scan?_of_digits hne h.whole_digits tail

/-- The numeral at the front of a text that is as long as any. -/
structure Longest (n : Numeral) (text rest : List Char) : Prop where
  wellFormed : n.WellFormed
  text_append : n.text ++ rest = text
  length_le : ∀ (m : Numeral) (tail : List Char),
    m.WellFormed → m.text ++ tail = text → m.text.length ≤ n.text.length

/-- The longest numeral is taken off the front. -/
theorem scan?_eq_some_iff : scan? text = some (n, rest) ↔ n.Longest text rest := by
  constructor
  · intro h
    refine ⟨wellFormed_of_scan? h, text_append_of_scan? h, ?_⟩
    rintro m tail hm rfl
    obtain ⟨n', rest', hscan, hle⟩ := hm.exists_scan? tail
    rw [h] at hscan
    cases hscan
    exact hle
  · rintro ⟨hn, rfl, hlongest⟩
    obtain ⟨n', rest', hscan, hle⟩ := hn.exists_scan? rest
    have happend := text_append_of_scan? hscan
    have hle' := hlongest n' rest' (wellFormed_of_scan? hscan) happend
    -- both are beginnings of the same length, so that they are the same text
    obtain ⟨htext, rfl⟩ := List.append_inj happend (Nat.le_antisymm hle' hle)
    have hread : scan? (n.text ++ []) = some (n, []) := hn.scan?_text_append_of_end (by simp)
    have hread' : scan? (n'.text ++ []) = some (n', []) :=
      (wellFormed_of_scan? hscan).scan?_text_append_of_end (by simp)
    rw [htext, hread] at hread'
    cases hread'
    exact hscan

end Numeral

end Worksheet.Number
