import Worksheet.Proofs.Number.Overflow
import Worksheet.Proofs.Number.Scanning
import Worksheet.Proofs.Token.Spelling

/-! # Tokens are longest matches

    What the tokens of a text are is told here without the scanner: which characters begin a token
    of each kind, how far it goes, and that blanks between tokens are dropped. Everything else is
    stray. The description leaves no choice, and the scanner follows it.

    - `Begins`, `StrayAt`: where tokens begin.
    - `Takes`, `Splits`: the first token of a text, and all of them.
    - `takes_lexeme`, `Takes.lexeme_eq`: the scanner takes the one token there is.
    - `splits_iff`: it splits a text the one way there is.
    - `ofText_longest_match`: what is read from a text.
-/

namespace Worksheet.Token

open Number

/-! ## Section 1: Where tokens begin -/

/-- A token of the kind begins at the front of the text. -/
inductive Begins : Kind → List Char → Prop where
  | opening (rest : List Char) : Begins .opening ('(' :: rest)
  | closing (rest : List Char) : Begins .closing (')' :: rest)
  | operator (op : Operator) (rest : List Char) : Begins .operator (op.toChar :: rest)
  | name {c : Char} (starts : Name.startsIdentifier c = true) (rest : List Char) :
      Begins .name (c :: rest)
  | digit {c : Char} (isDigit : c.isDigit = true) (rest : List Char) : Begins .number (c :: rest)
  | point {c : Char} (isDigit : c.isDigit = true) (rest : List Char) :
      Begins .number ('.' :: c :: rest)

/-- The text goes on with a character that is not blank and begins no token. -/
inductive StrayAt : List Char → Prop where
  | intro {c : Char} {rest : List Char} (notBlank : Text.isBlank c = false)
      (notBegins : ∀ kind, ¬Begins kind (c :: rest)) : StrayAt (c :: rest)

/-- Each character of the run is stray, with `rest` behind the run. -/
def StrayRun : List Char → List Char → Prop
  | [], _ => True
  | c :: run, rest => StrayAt (c :: run ++ rest) ∧ StrayRun run rest

section Beginnings

variable {c : Char} {text rest run tail : List Char}

theorem begins_of_ofChar? (h : (ofChar? c).isSome = true) (rest : List Char) :
    ∃ kind, Begins kind (c :: rest) := by
  unfold ofChar? at h
  split at h
  · exact ⟨_, .opening rest⟩
  · exact ⟨_, .closing rest⟩
  · obtain ⟨op, hop⟩ := Option.isSome_iff_exists.mp (Option.isSome_map.symm.trans h)
    rw [(Operator.ofChar?_eq_some_iff c op).mp hop]
    exact ⟨_, .operator op rest⟩

theorem begins_number_iff : Begins .number text ↔ startsNumeral text = true := by
  constructor
  · intro h
    cases h with
    | @digit c isDigit rest =>
      unfold startsNumeral
      split
      · next hcons =>
        -- a point is no digit
        cases hcons
        cases isDigit
      · next hcons =>
        cases hcons
        exact isDigit
      · next hcons => cases hcons
    | point isDigit rest => exact isDigit
  · intro h
    unfold startsNumeral at h
    split at h
    · exact .point h _
    · exact .digit h _
    · cases h

/-- A character is stray when the scanner sees nothing else in it. -/
theorem strayAt_cons_iff :
    StrayAt (c :: rest) ↔ Text.isBlank c = false ∧ (ofChar? c).isSome = false
      ∧ Name.startsIdentifier c = false ∧ startsNumeral (c :: rest) = false := by
  constructor
  · intro h
    cases h with
    | intro notBlank notBegins =>
      refine ⟨notBlank, ?_, ?_, ?_⟩ <;> rw [← Bool.not_eq_true]
      · intro hsingle
        obtain ⟨kind, hkind⟩ := begins_of_ofChar? hsingle rest
        exact notBegins kind hkind
      · exact fun hname => notBegins _ (.name hname rest)
      · exact fun hnumber => notBegins _ (begins_number_iff.mpr hnumber)
  · rintro ⟨hblank, hsingle, hname, hnumber⟩
    refine .intro hblank ?_
    intro kind hkind
    cases hkind with
    | opening => cases hsingle
    | closing => cases hsingle
    | operator op => cases op <;> cases hsingle
    | name starts =>
      rw [hname] at starts
      cases starts
    | digit isDigit =>
      rw [begins_number_iff.mp (.digit isDigit rest)] at hnumber
      cases hnumber
    | point isDigit =>
      rw [begins_number_iff.mp (.point isDigit _)] at hnumber
      cases hnumber

/-- A stray token ends where the next character is not stray. -/
theorem endsStray_eq_false_iff : endsStray text = false ↔ StrayAt text := by
  cases text with
  | nil => exact iff_of_false (by simp [endsStray]) nofun
  | cons c rest => simp [strayAt_cons_iff, endsStray, and_assoc]

theorem splitStray_of_strayAt (h : StrayAt (c :: rest)) :
    splitStray (c :: rest) = (c :: (splitStray rest).1, (splitStray rest).2) := by
  rw [splitStray, if_neg (by simp [endsStray_eq_false_iff.mpr h])]

theorem splitStray_of_not_strayAt (h : ¬StrayAt text) : splitStray text = ([], text) := by
  cases text with
  | nil => rfl
  | cons c rest =>
    have hends := mt endsStray_eq_false_iff.mp h
    rw [Bool.not_eq_false] at hends
    rw [splitStray, if_pos hends]

/-- The characters that are split off are stray, and the next one is not. -/
theorem strayRun_splitStray (text : List Char) :
    StrayRun (splitStray text).1 (splitStray text).2 ∧ ¬StrayAt (splitStray text).2 := by
  induction text with
  | nil => exact ⟨trivial, nofun⟩
  | cons c rest ih =>
    by_cases h : StrayAt (c :: rest)
    · rw [splitStray_of_strayAt h]
      refine ⟨⟨?_, ih.1⟩, ih.2⟩
      show StrayAt (c :: ((splitStray rest).1 ++ (splitStray rest).2))
      rwa [splitStray_append]
    · rw [splitStray_of_not_strayAt h]
      exact ⟨trivial, h⟩

/-- There is only one way to split off stray characters as far as they go. -/
theorem StrayRun.splitStray_append_eq (h : StrayRun run tail) (hend : ¬StrayAt tail) :
    splitStray (run ++ tail) = (run, tail) := by
  induction run with
  | nil => exact splitStray_of_not_strayAt hend
  | cons c run ih =>
    have hfirst : StrayAt (c :: (run ++ tail)) := h.1
    rw [List.cons_append, splitStray_of_strayAt hfirst, ih h.2]

theorem StrayRun.not_blank (h : StrayRun run tail) : ∀ c ∈ run, Text.isBlank c = false := by
  induction run with
  | nil => simp
  | cons c run ih =>
    intro other hother
    rcases List.mem_cons.mp hother with rfl | hrun
    · exact (strayAt_cons_iff.mp h.1).1
    · exact ih h.2 other hrun

end Beginnings

/-! ## Section 2: The first token -/

/-- The first token of a text that does not begin with a blank, and what follows it. -/
inductive Takes : List Char → Lexeme → List Char → Prop where
  | opening (rest : List Char) : Takes ('(' :: rest) ⟨.opening, ['(']⟩ rest
  | closing (rest : List Char) : Takes (')' :: rest) ⟨.closing, [')']⟩ rest
  | operator (op : Operator) (rest : List Char) :
      Takes (op.toChar :: rest) ⟨.operator op, [op.toChar]⟩ rest
  /-- A name goes as far as an identifier can go. -/
  | name {first : Char} {run rest : List Char} (starts : Name.startsIdentifier first = true)
      (continues : ∀ c ∈ run, Name.continuesIdentifier c = true)
      (ends : ∀ c ∈ rest.head?, Name.continuesIdentifier c = false) :
      Takes (first :: run ++ rest) ⟨.name (String.ofList (first :: run)), first :: run⟩ rest
  /-- A numeral that does not overflow is the number nearest to it. -/
  | number {text rest : List Char} {n : Numeral} (longest : n.Longest text rest)
      (finite : n.value < overflow) : Takes text ⟨.number n.toFloat, n.text⟩ rest
  /-- A numeral that overflows is stray. -/
  | overflowing {text rest : List Char} {n : Numeral} (longest : n.Longest text rest)
      (infinite : overflow ≤ n.value) :
      Takes text ⟨.stray (String.ofList n.text), n.text⟩ rest
  /-- Stray characters go together as far as they are stray. -/
  | stray {run rest : List Char} (nonempty : run ≠ []) (stray : StrayRun run rest)
      (ends : ¬StrayAt rest) : Takes (run ++ rest) ⟨.stray (String.ofList run), run⟩ rest

section First

variable {c : Char} {text rest tail : List Char} {item : Lexeme}

/-- A well-formed numeral begins with a digit, or with a point and a digit. -/
theorem begins_of_wellFormed {n : Numeral} (h : n.WellFormed) (rest : List Char) :
    Begins .number (n.text ++ rest) := by
  obtain ⟨whole, fraction, exponent⟩ := n
  by_cases hwhole : whole = []
  · subst hwhole
    have hfraction := h.digits_ne_nil.resolve_left (fun hne => hne rfl)
    cases fraction with
    | none => exact absurd rfl hfraction
    | some digits =>
      obtain ⟨digit, digits, rfl⟩ := List.exists_cons_of_ne_nil hfraction
      exact .point (h.fraction_digits digit List.mem_cons_self) _
  · obtain ⟨digit, digits, rfl⟩ := List.exists_cons_of_ne_nil hwhole
    exact .digit (h.whole_digits digit List.mem_cons_self) _

/-- The scanner finds a numeral where one begins. -/
theorem isSome_scan? (text : List Char) : (Numeral.scan? text).isSome = startsNumeral text := by
  rw [Bool.eq_iff_iff, ← begins_number_iff]
  constructor
  · intro h
    obtain ⟨⟨n, rest⟩, hscan⟩ := Option.isSome_iff_exists.mp h
    rw [← Numeral.text_append_of_scan? hscan]
    exact begins_of_wellFormed (Numeral.wellFormed_of_scan? hscan) rest
  · intro h
    cases h with
    | @digit c isDigit rest =>
      have hn : Numeral.WellFormed ⟨[c], none, none⟩ := ⟨by simpa, by simp, by simp, by simp⟩
      obtain ⟨n, rest', hscan, -⟩ := hn.exists_scan? rest
      exact Option.isSome_of_eq_some hscan
    | @point c isDigit rest =>
      have hn : Numeral.WellFormed ⟨[], some [c], none⟩ := ⟨by simp, by simpa, by simp, by simp⟩
      obtain ⟨n, rest', hscan, -⟩ := hn.exists_scan? rest
      exact Option.isSome_of_eq_some hscan

/-- What a numeral begins with begins nothing else. -/
theorem Begins.number_head (h : Begins .number (c :: rest)) :
    Text.isBlank c = false ∧ ofChar? c = none ∧ Name.startsIdentifier c = false := by
  cases h with
  | digit isDigit =>
    have hcontinues := continuesIdentifier_iff.mpr (Or.inr isDigit)
    exact ⟨isBlank_of_continuesIdentifier hcontinues, ofChar?_of_continuesIdentifier hcontinues,
      startsIdentifier_of_isDigit isDigit⟩
  | point => decide

/-- Where a numeral is found, nothing else was tried with success. -/
theorem begins_of_scan? {n : Numeral} (h : Numeral.scan? text = some (n, tail)) :
    Begins .number text := by
  rw [begins_number_iff, ← isSome_scan?, h]
  rfl

theorem lexeme_of_longest {n : Numeral} (h : n.Longest (c :: rest) tail) :
    Text.isBlank c = false ∧ lexeme c rest = (⟨ofNumeral n, n.text⟩, tail) := by
  have hscan := Numeral.scan?_eq_some_iff.mpr h
  obtain ⟨hblank, hsingle, hname⟩ := (begins_of_scan? hscan).number_head
  exact ⟨hblank, lexeme_of_scan? hsingle hname hscan⟩

theorem lexeme_of_strayAt (h : StrayAt (c :: rest)) :
    lexeme c rest
      = (⟨stray (String.ofList (c :: (splitStray rest).1)), c :: (splitStray rest).1⟩,
        (splitStray rest).2) := by
  obtain ⟨-, hsingle, hname, hnumber⟩ := strayAt_cons_iff.mp h
  rw [← isSome_scan?] at hnumber
  rw [Option.isSome_eq_false_iff, Option.isNone_iff_eq_none] at hsingle hnumber
  rw [lexeme, hsingle]
  dsimp only
  rw [if_neg (by simp [hname]), hnumber]

/-- The token of a numeral is a number if the numeral does not overflow. -/
theorem ofNumeral_of_lt {n : Numeral} (h : n.value < overflow) :
    ofNumeral n = .number n.toFloat := by
  rw [ofNumeral, if_pos (n.isFinite_toFloat_iff.mpr h)]

theorem ofNumeral_of_le {n : Numeral} (h : overflow ≤ n.value) :
    ofNumeral n = .stray (String.ofList n.text) := by
  rw [ofNumeral, if_neg (mt n.isFinite_toFloat_iff.mp (not_lt.mpr h))]

/-- What the scanner takes is a first token. -/
theorem takes_lexeme (hblank : Text.isBlank c = false) :
    Takes (c :: rest) (lexeme c rest).1 (lexeme c rest).2 := by
  -- in the order in which the scanner tries the kinds of tokens
  by_cases hsingle : (ofChar? c).isSome = true
  · obtain ⟨token, htoken⟩ := Option.isSome_iff_exists.mp hsingle
    rw [lexeme_of_ofChar? htoken]
    unfold ofChar? at htoken
    split at htoken
    · cases htoken
      exact .opening rest
    · cases htoken
      exact .closing rest
    · obtain ⟨op, hop, rfl⟩ := Option.map_eq_some_iff.mp htoken
      obtain rfl := (Operator.ofChar?_eq_some_iff c op).mp hop
      exact .operator op rest
  by_cases hname : Name.startsIdentifier c = true
  · rw [lexeme_of_startsIdentifier hname]
    have htakes : Takes (c :: rest.takeWhile Name.continuesIdentifier
        ++ rest.dropWhile Name.continuesIdentifier) _ _ :=
      .name hname (forall_mem_takeWhile _ rest) (forall_head?_dropWhile _ rest)
    rwa [List.cons_append, List.takeWhile_append_dropWhile] at htakes
  by_cases hnumber : startsNumeral (c :: rest) = true
  · obtain ⟨⟨n, tail⟩, hscan⟩ := Option.isSome_iff_exists.mp ((isSome_scan? _).trans hnumber)
    have hlongest := Numeral.scan?_eq_some_iff.mp hscan
    rw [(lexeme_of_longest hlongest).2]
    by_cases hfinite : n.value < overflow
    · rw [ofNumeral_of_lt hfinite]
      exact .number hlongest hfinite
    · rw [ofNumeral_of_le (not_lt.mp hfinite)]
      exact .overflowing hlongest (not_lt.mp hfinite)
  -- nothing begins here, so that the character is stray
  rw [Bool.not_eq_true] at hsingle hname hnumber
  have hstray := strayAt_cons_iff.mpr ⟨hblank, hsingle, hname, hnumber⟩
  have hrun := strayRun_splitStray (c :: rest)
  have htext := splitStray_append (c :: rest)
  rw [splitStray_of_strayAt hstray] at hrun htext
  rw [lexeme_of_strayAt hstray, ← htext]
  exact .stray (List.cons_ne_nil _ _) hrun.1 hrun.2

/-- There is only one first token. -/
theorem Takes.lexeme_eq (h : Takes (c :: rest) item tail) :
    Text.isBlank c = false ∧ lexeme c rest = (item, tail) := by
  generalize htext : c :: rest = text at h
  cases h with
  | opening =>
    cases htext
    exact ⟨by decide, lexeme_of_ofChar? rfl rest⟩
  | closing =>
    cases htext
    exact ⟨by decide, lexeme_of_ofChar? rfl rest⟩
  | operator op =>
    cases htext
    have hsingle : ofChar? op.toChar = some (.operator op) := by cases op <;> rfl
    exact ⟨(not_continues_of_ofChar? (Option.isSome_of_eq_some hsingle)).1,
      lexeme_of_ofChar? hsingle rest⟩
  | name starts continues ends =>
    rw [List.cons_append] at htext
    obtain ⟨rfl, rfl⟩ := List.cons.inj htext
    refine ⟨isBlank_of_continuesIdentifier (continuesIdentifier_iff.mpr (Or.inl starts)), ?_⟩
    rw [lexeme_of_startsIdentifier starts, takeWhile_run continues ends,
      dropWhile_run continues ends]
  | number longest finite =>
    subst htext
    obtain ⟨hblank, hlexeme⟩ := lexeme_of_longest longest
    rw [hlexeme, ofNumeral_of_lt finite]
    exact ⟨hblank, rfl⟩
  | overflowing longest infinite =>
    subst htext
    obtain ⟨hblank, hlexeme⟩ := lexeme_of_longest longest
    rw [hlexeme, ofNumeral_of_le infinite]
    exact ⟨hblank, rfl⟩
  | stray nonempty stray ends =>
    obtain ⟨first, run, rfl⟩ := List.exists_cons_of_ne_nil nonempty
    have hfirst : StrayAt (first :: (run ++ tail)) := stray.1
    have hsplit := stray.splitStray_append_eq ends
    rw [List.cons_append] at htext hsplit
    obtain ⟨rfl, rfl⟩ := List.cons.inj htext
    rw [splitStray_of_strayAt hfirst, Prod.mk.injEq, List.cons.injEq] at hsplit
    obtain ⟨⟨-, hrun⟩, htail⟩ := hsplit
    refine ⟨(strayAt_cons_iff.mp hfirst).1, ?_⟩
    rw [lexeme_of_strayAt hfirst, hrun, htail]

/-- A token holds no blank. -/
theorem Takes.not_blank (h : Takes text item tail) : ∀ c ∈ item.text, Text.isBlank c = false := by
  have hnumeral {n : Numeral} {rest : List Char} (hn : n.Longest text rest) :
      ∀ c ∈ n.text, Text.isBlank c = false := by
    intro c hc
    rcases hn.wellFormed.mem_text hc with hdigit | hmark
    · exact isBlank_of_continuesIdentifier (continuesIdentifier_iff.mpr (Or.inr hdigit))
    · simp only [List.mem_cons, List.not_mem_nil, or_false] at hmark
      rcases hmark with rfl | rfl | rfl | rfl | rfl <;> decide
  have hsingle {c : Char} (hc : (ofChar? c).isSome = true) :
      ∀ other ∈ [c], Text.isBlank other = false := by
    rw [List.forall_mem_singleton]
    exact (not_continues_of_ofChar? hc).1
  cases h with
  | opening => exact hsingle rfl
  | closing => exact hsingle rfl
  | operator op => exact hsingle (by cases op <;> rfl)
  | name starts continues ends =>
    intro c hc
    refine isBlank_of_continuesIdentifier ?_
    rcases List.mem_cons.mp hc with rfl | hrun
    · exact continuesIdentifier_iff.mpr (Or.inl starts)
    · exact continues c hrun
  | number longest finite => exact hnumeral longest
  | overflowing longest infinite => exact hnumeral longest
  | stray nonempty stray ends => exact stray.not_blank

end First

/-! ## Section 3: All tokens -/

/-- The tokens of a text, with blanks dropped that stand before, between and behind them. -/
inductive Splits : List Char → List Lexeme → Prop where
  | finish : Splits [] []
  | blank {c : Char} {text : List Char} {items : List Lexeme} (isBlank : Text.isBlank c = true)
      (splits : Splits text items) : Splits (c :: text) items
  | token {c : Char} {text rest : List Char} {item : Lexeme} {items : List Lexeme}
      (takes : Takes (c :: text) item rest) (splits : Splits rest items) :
      Splits (c :: text) (item :: items)

theorem splits_lexemes (text : List Char) : Splits text (lexemes text) := by
  fun_induction lexemes text with
  | case1 => exact .finish
  | case2 c rest hblank ih => exact .blank hblank ih
  | case3 c rest hblank next ih =>
    rw [Bool.not_eq_true] at hblank
    exact .token (takes_lexeme hblank) ih

theorem Splits.eq_lexemes {text : List Char} {items : List Lexeme} (h : Splits text items) :
    items = lexemes text := by
  induction h with
  | finish => rw [lexemes]
  | blank isBlank splits ih => rw [lexemes, if_pos isBlank, ih]
  | token takes splits ih =>
    obtain ⟨hblank, hlexeme⟩ := takes.lexeme_eq
    rw [lexemes, if_neg (by simp [hblank]), hlexeme, ih]

/-- A text is split the one way there is. -/
theorem splits_iff {text : List Char} {items : List Lexeme} :
    Splits text items ↔ items = lexemes text := by
  constructor
  · exact Splits.eq_lexemes
  · rintro rfl
    exact splits_lexemes text

/-- The tokens cover all that is not blank. -/
theorem flatMap_text_lexemes (text : List Char) :
    (lexemes text).flatMap Lexeme.text = text.filter fun c => !Text.isBlank c := by
  fun_induction lexemes text with
  | case1 => rfl
  | case2 c rest hblank ih => rw [List.filter_cons_of_neg (by simp [hblank]), ih]
  | case3 c rest hblank next ih =>
    rw [Bool.not_eq_true] at hblank
    have hitem : next.1.text.filter (fun c => !Text.isBlank c) = next.1.text := by
      rw [List.filter_eq_self]
      intro other hother
      simp [(takes_lexeme hblank).not_blank other hother]
    rw [← lexeme_append c rest, List.filter_append, hitem, List.flatMap_cons, ih]

/-- The tokens of a text are its longest matches, in order: the text splits in one way only into
    blanks and tokens, of which each is as long as its kind allows, and the tokens cover all
    characters that are not blank. The numbers among them are finite and not negative. -/
theorem ofText_longest_match (text : String) :
    ∃ items : List Lexeme, ofText text = items.map Lexeme.token
      ∧ (∀ other, Splits text.toList other ↔ other = items)
      ∧ items.flatMap Lexeme.text = text.toList.filter (fun c => !Text.isBlank c)
      ∧ ∀ x, .number x ∈ ofText text → isFinite x = true ∧ isNegative x = false := by
  refine ⟨lexemes text.toList, rfl, fun other => splits_iff, flatMap_text_lexemes _, ?_⟩
  intro x hx
  cases number_legible_of_mem_ofText hx with
  | number finite =>
    refine ⟨?_, isNegative_ofMagnitude false finite.le⟩
    rw [isFinite, magnitude_ofMagnitude false finite.le]
    exact decide_eq_true finite

/-- A power of ten without digits is none, and a point without digits is stray. -/
example : (lexemes "2e+ .7..".toList).map Lexeme.text
    = [['2'], ['e'], ['+'], ['.', '7'], ['.', '.']] := by
  decide +kernel

end Worksheet.Token
