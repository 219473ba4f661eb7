import Worksheet.Proofs.Token.LongestMatch

/-! # Where a text can be cut

    A blank ends every token, and so does a token of a single character. The tokens before it are
    read as if the text ended there, and those behind it as if the text began there. The scanner
    looks over such an end in one place only, where a numeral is followed by the mark of a power of
    ten and then by a sign: whether the mark is a name depends on the character behind the sign.

    - `SignedDigit`, `EndsOpen`: the exception.
    - `Numeral.Longest.append`: the longest numeral is the longest in a longer text too.
    - `Takes.append`: the first token of a text is the first of a longer one.
    - `lexemes_append_eq_iff`: a cut text has the tokens of its parts, but for the exception.
    - `ofText_parted`: what is read from two texts with a blank or a token between them.
-/

namespace Worksheet.Number

/-! ## Section 1: Numerals before a cut -/

/-- The mark of a power of ten. -/
def IsMark (c : Char) : Prop := c = 'e' ∨ c = 'E'

/-- The text goes on with a sign and a digit. -/
inductive SignedDigit : List Char → Prop where
  | intro {sign digit : Char} {rest : List Char} (isSign : sign = '+' ∨ sign = '-')
      (isDigit : digit.isDigit = true) : SignedDigit (sign :: digit :: rest)

/-- What does not stand in the front part stands behind it. -/
theorem exists_between {front back text rest : List Char} {c : Char} (hc : c ∉ front)
    (h : front ++ back = text ++ c :: rest) :
    ∃ between, text = front ++ between ∧ back = between ++ c :: rest := by
  rcases List.append_eq_append_iff.mp h with ⟨between, htext, hback⟩ | ⟨other, hfront, hrest⟩
  · exact ⟨between, htext, hback⟩
  · cases other with
    | nil => exact ⟨[], by rw [hfront, List.append_nil, List.append_nil], hrest.symm⟩
    | cons first other =>
      obtain ⟨rfl, -⟩ := List.cons.inj hrest
      exact absurd (by rw [hfront]; simp) hc

/-- Behind at most one character come the digits, and it is none of these. -/
theorem eq_sign_of_append_eq {first digits between rest : List Char} {sign : Char}
    (hdigits : sign ∉ digits) (hfirst : first.length ≤ 1)
    (h : first ++ digits = between ++ sign :: rest) :
    between = [] ∧ first = [sign] ∧ digits = rest := by
  match first, hfirst with
  | [], _ =>
    rw [List.nil_append] at h
    exact absurd (by simp [h]) hdigits
  | [other], _ =>
    cases between with
    | nil =>
      obtain ⟨rfl, rfl⟩ := List.cons.inj h
      exact ⟨rfl, rfl, rfl⟩
    | cons _ between =>
      have htail : digits = between ++ sign :: rest := (List.cons.inj h).2
      exact absurd (by simp [htail]) hdigits

namespace Numeral

variable {n m : Numeral} {sign mark : Char} {text rest tail : List Char}

/-- The numeral without its power of ten. -/
def mantissa (n : Numeral) : Numeral := ⟨n.whole, n.fraction, none⟩

theorem mantissa_of_none (h : n.exponent = none) : n.mantissa = n := by
  obtain ⟨whole, fraction, exponent⟩ := n
  cases h
  rfl

theorem text_eq_of_some {e : Exponent} (h : n.exponent = some e) :
    n.text = n.mantissa.text ++ [e.mark] ++ (e.sign ++ e.digits) := by
  simp [text, mantissa, fractionText, exponentText, h, Exponent.text]

theorem WellFormed.mantissa (h : n.WellFormed) : n.mantissa.WellFormed :=
  ⟨h.whole_digits, h.fraction_digits, h.digits_ne_nil, nofun⟩

theorem WellFormed.continues_of_mem (h : n.WellFormed) :
    ∀ c ∈ n.mantissa.text, continues c = true := by
  have hdigit {c : Char} (hc : c.isDigit = true) : continues c = true := by
    simp [continues, hc]
  obtain ⟨whole, fraction, exponent⟩ := n
  intro c hc
  have hc' : c ∈ whole ++ fractionText ⟨whole, fraction, none⟩ := by
    simpa [Numeral.mantissa, text, exponentText] using hc
  rcases List.mem_append.mp hc' with hwhole | hfraction
  · exact hdigit (h.whole_digits c hwhole)
  · cases fraction with
    | none => cases hfraction
    | some digits =>
      rcases List.mem_cons.mp hfraction with rfl | hdigits
      · rfl
      · exact hdigit (h.fraction_digits c hdigits)

/-- A character that no numeral goes on with is found in one only as the sign of its power. -/
theorem WellFormed.of_text_eq_append (h : m.WellFormed) (hsign : continues sign = false)
    (htext : m.text = text ++ sign :: rest) :
    ∃ mark, IsMark mark ∧ text = m.mantissa.text ++ [mark] ∧ SignedDigit (sign :: rest) := by
  have hnot {part : List Char} (hall : ∀ c ∈ part, continues c = true) : sign ∉ part := by
    intro hmem
    rw [hall sign hmem] at hsign
    cases hsign
  have hfront := h.continues_of_mem
  cases hexponent : m.exponent with
  | none =>
    refine absurd ?_ (hnot hfront)
    rw [mantissa_of_none hexponent, htext]
    simp
  | some e =>
    obtain ⟨hmark, hsigns, hne, hdigits⟩ := h.exponent e hexponent
    have hmarked : ∀ c ∈ m.mantissa.text ++ [e.mark], continues c = true := by
      intro c hc
      rcases List.mem_append.mp hc with hc | hc
      · exact hfront c hc
      · rw [List.mem_singleton.mp hc]
        rcases hmark with hmark | hmark <;> rw [hmark] <;> rfl
    have hdigit : sign ∉ e.digits := hnot fun c hc => by simp [continues, hdigits c hc]
    have hlength : e.sign.length ≤ 1 := by
      rcases hsigns with hsigns | hsigns | hsigns <;> simp [hsigns]
    rw [text_eq_of_some hexponent] at htext
    -- it stands behind the mark, and there it is none of the digits
    obtain ⟨between, rfl, hbetween⟩ := exists_between (hnot hmarked) htext
    obtain ⟨rfl, hsingle, rfl⟩ := eq_sign_of_append_eq hdigit hlength hbetween
    rw [hsingle] at hsigns
    obtain ⟨digit, digits, hcons⟩ := List.exists_cons_of_ne_nil hne
    refine ⟨e.mark, hmark, List.append_nil _, ?_⟩
    rw [hcons]
    exact .intro (by simpa using hsigns) (hdigits digit (by simp [hcons]))

theorem scan?_mark (mark : Char) : Exponent.scan? [mark] = none := by
  rw [Exponent.scan?]
  split <;> rfl

/-- A mark with nothing behind it ends a numeral. -/
theorem Longest.eq_of_mark (h : n.Longest (m.text ++ [mark]) rest) (hm : m.WellFormed)
    (hnone : m.exponent = none) (hmark : IsMark mark) : n = m ∧ rest = [mark] := by
  have hscan : scan? (m.text ++ [mark]) = some (m, [mark]) := by
    have hend : ∀ c ∈ [mark].head?, c.isDigit = false ∧ c ≠ '.' := by
      rintro c ⟨⟩
      rcases hmark with rfl | rfl <;> decide
    rw [hm.scan?_text_append fun _ => hend, exponentText, hnone, List.nil_append, withExponent,
      scan?_mark]
    dsimp only
    rw [← mantissa_of_none hnone]
    rfl
  rw [scan?_eq_some_iff.mpr h] at hscan
  cases hscan
  exact ⟨rfl, rfl⟩

/-- The longest numeral is the longest in a longer text too, unless it could have a power of ten
    there. -/
theorem Longest.append (h : n.Longest text rest)
    (hends : ∀ c ∈ tail.head?, continues c = false)
    (hopen : ∀ mark, IsMark mark → rest = [mark] → n.exponent = none → ¬SignedDigit tail) :
    n.Longest (text ++ tail) (rest ++ tail) := by
  refine ⟨h.wellFormed, by rw [← List.append_assoc, h.text_append], ?_⟩
  intro m other hm hother
  rcases List.append_eq_append_iff.mp hother with ⟨back, htext, -⟩ | ⟨more, hmore, htail⟩
  · exact h.length_le m back hm htext.symm
  · cases more with
    | nil => exact h.length_le m [] hm (by rw [hmore]; simp)
    | cons sign more =>
      -- a numeral that is longer than the text leaves its mantissa and its mark in the text
      have hsign := hends sign (by rw [htail]; rfl)
      obtain ⟨mark, hmark, rfl, hsigned⟩ := hm.of_text_eq_append hsign hmore
      obtain ⟨rfl, rfl⟩ := h.eq_of_mark hm.mantissa rfl hmark
      refine absurd ?_ (hopen mark hmark rfl rfl)
      rw [htail]
      cases hsigned with
      | intro isSign isDigit => exact .intro isSign isDigit

/-- Where the mark has a sign and a digit behind it, there is a longer numeral. -/
theorem WellFormed.exists_longest_of_signedDigit (h : n.WellFormed) (hnone : n.exponent = none)
    (hmark : IsMark mark) (hsigned : SignedDigit tail) :
    ∃ (m : Numeral) (rest : List Char),
      m.Longest (n.text ++ mark :: tail) rest ∧ n.text.length < m.text.length := by
  cases hsigned with
  | @intro sign digit rest isSign isDigit =>
    have hm : WellFormed ⟨n.whole, n.fraction, some ⟨mark, [sign], [digit]⟩⟩ := by
      refine ⟨h.whole_digits, h.fraction_digits, h.digits_ne_nil, ?_⟩
      rintro e ⟨⟩
      refine ⟨hmark, .inr ?_, by simp, by simpa using isDigit⟩
      rcases isSign with rfl | rfl
      · exact .inl rfl
      · exact .inr rfl
    have htext : text ⟨n.whole, n.fraction, some ⟨mark, [sign], [digit]⟩⟩
        = n.text ++ [mark, sign, digit] := by
      rw [text_eq_of_some rfl]
      show n.mantissa.text ++ [mark] ++ ([sign] ++ [digit]) = _
      rw [mantissa_of_none hnone, List.append_assoc]
      rfl
    obtain ⟨m, rest', hscan, hle⟩ := hm.exists_scan? rest
    rw [htext, List.append_assoc] at hscan
    rw [htext, List.length_append] at hle
    exact ⟨m, rest', scan?_eq_some_iff.mp hscan, by simp at hle; omega⟩

end Numeral

end Worksheet.Number

namespace Worksheet.Token

open Number

/-! ## Section 2: Cuts -/

/-- The text ends, or goes on with a blank or a token of a single character. -/
def Parts (rest : List Char) : Prop :=
  ∀ c ∈ rest.head?, Text.isBlank c = true ∨ (ofChar? c).isSome = true

/-- The last of the tokens that a text has are a numeral without a power of ten and the name that
    is the mark of one, with nothing between or behind them. -/
inductive EndsOpen (text : List Char) : Prop where
  | intro {before : List Lexeme} {n : Numeral} {mark : Char}
      (last : lexemes text
        = before ++ [⟨ofNumeral n, n.text⟩, ⟨.name (String.singleton mark), [mark]⟩])
      (wellFormed : n.WellFormed) (noPower : n.exponent = none) (isMark : IsMark mark)
      (adjacent : n.text ++ [mark] <:+ text) : EndsOpen text

section Cuts

variable {c : Char} {text rest tail : List Char}

theorem Parts.not_continues (h : Parts tail) :
    ∀ c ∈ tail.head?, Name.continuesIdentifier c = false ∧ Numeral.continues c = false := by
  intro c hc
  rcases h c hc with hblank | hsingle
  · have hname : Name.continuesIdentifier c = false := by
      rw [← Bool.not_eq_true]
      intro hcontinues
      rw [isBlank_of_continuesIdentifier hcontinues] at hblank
      cases hblank
    refine ⟨hname, (Numeral.continues_eq_false_iff c).mpr ⟨⟨?_, ?_⟩, ?_, ?_⟩⟩
    · rw [← Bool.not_eq_true]
      intro hdigit
      rw [continuesIdentifier_iff.mpr (.inr hdigit)] at hname
      cases hname
    -- the others are no blanks
    all_goals
      rintro rfl
      revert hblank
      decide
  · exact (not_continues_of_ofChar? hsingle).2

theorem Parts.not_isDigit (h : Parts tail) : ∀ c ∈ tail.head?, c.isDigit = false :=
  fun c hc => ((Numeral.continues_eq_false_iff c).mp (h.not_continues c hc).2).1.1

theorem Parts.not_strayAt (h : Parts tail) : ¬StrayAt tail := by
  intro hstray
  cases hstray with
  | @intro c rest notBlank notBegins =>
    rcases h c rfl with hblank | hsingle
    · rw [notBlank] at hblank
      cases hblank
    · obtain ⟨kind, hkind⟩ := begins_of_ofChar? hsingle rest
      exact notBegins kind hkind

theorem Begins.append {kind : Kind} (h : Begins kind text) (tail : List Char) :
    Begins kind (text ++ tail) := by
  cases h with
  | opening rest => exact .opening _
  | closing rest => exact .closing _
  | operator op rest => exact .operator op _
  | name starts rest => exact .name starts _
  | digit isDigit rest => exact .digit isDigit _
  | point isDigit rest => exact .point isDigit _

/-- A point has its digit before the cut. -/
theorem Parts.begins_append_iff (h : Parts tail) {kind : Kind} :
    Begins kind (c :: rest ++ tail) ↔ Begins kind (c :: rest) := by
  refine ⟨?_, fun hbegins => hbegins.append tail⟩
  intro hbegins
  generalize htext : c :: rest ++ tail = text at hbegins
  cases hbegins with
  | opening =>
    cases htext
    exact .opening rest
  | closing =>
    cases htext
    exact .closing rest
  | operator op =>
    cases htext
    exact .operator op rest
  | name starts =>
    cases htext
    exact .name starts rest
  | digit isDigit =>
    cases htext
    exact .digit isDigit rest
  | point isDigit =>
    obtain ⟨rfl, hrest⟩ := List.cons.inj htext
    cases rest with
    | nil =>
      have htail : tail = _ :: _ := hrest
      rw [h.not_isDigit _ (by rw [htail]; rfl)] at isDigit
      cases isDigit
    | cons _ rest =>
      cases hrest
      exact .point isDigit rest

theorem Parts.strayAt_append_iff (h : Parts tail) :
    StrayAt (c :: rest ++ tail) ↔ StrayAt (c :: rest) := by
  constructor
  · intro hstray
    cases hstray with
    | intro notBlank notBegins =>
      exact .intro notBlank fun kind hkind => notBegins kind (h.begins_append_iff.mpr hkind)
  · intro hstray
    cases hstray with
    | intro notBlank notBegins =>
      exact .intro notBlank fun kind hkind => notBegins kind (h.begins_append_iff.mp hkind)

theorem Parts.not_strayAt_append (h : Parts tail) (hrest : ¬StrayAt rest) :
    ¬StrayAt (rest ++ tail) := by
  cases rest with
  | nil => exact h.not_strayAt
  | cons c rest => rwa [h.strayAt_append_iff]

theorem StrayRun.append {run : List Char} (h : StrayRun run rest) (hparts : Parts tail) :
    StrayRun run (rest ++ tail) := by
  induction run with
  | nil => trivial
  | cons c run ih =>
    refine ⟨?_, ih h.2⟩
    rw [← List.append_assoc]
    exact hparts.strayAt_append_iff.mpr h.1

end Cuts

/-! ## Section 3: The first token -/

section First

variable {c : Char} {text rest tail : List Char} {item : Lexeme}

theorem head?_append {p : Char → Bool} (hrest : ∀ c ∈ rest.head?, p c = false)
    (htail : ∀ c ∈ tail.head?, p c = false) : ∀ c ∈ (rest ++ tail).head?, p c = false := by
  cases rest with
  | nil => exact htail
  | cons c rest => exact hrest

/-- The first token is a numeral without a power of ten, and the mark of one is all that follows. -/
def OpenAt (item : Lexeme) (rest : List Char) : Prop :=
  ∃ (n : Numeral) (mark : Char), n.WellFormed ∧ n.exponent = none ∧ IsMark mark
    ∧ item = ⟨ofNumeral n, n.text⟩ ∧ rest = [mark]

/-- The first token of a text is the first of a longer one, but for the exception. -/
theorem Takes.append (h : Takes text item rest) (hparts : Parts tail)
    (hopen : OpenAt item rest → ¬SignedDigit tail) :
    Takes (text ++ tail) item (rest ++ tail) := by
  have hlongest {n : Numeral} (hn : n.Longest text rest) (hitem : item = ⟨ofNumeral n, n.text⟩) :
      n.Longest (text ++ tail) (rest ++ tail) := by
    refine hn.append (fun c hc => (hparts.not_continues c hc).2) ?_
    intro mark hmark hrest hnone
    exact hopen ⟨n, mark, hn.wellFormed, hnone, hmark, hitem, hrest⟩
  cases h with
  | opening => exact .opening _
  | closing => exact .closing _
  | operator op => exact .operator op _
  | name starts continues ends =>
    rw [List.append_assoc]
    exact .name starts continues
      (head?_append ends fun c hc => (hparts.not_continues c hc).1)
  | number longest finite =>
    exact .number (hlongest longest (by rw [ofNumeral_of_lt finite])) finite
  | overflowing longest infinite =>
    exact .overflowing (hlongest longest (by rw [ofNumeral_of_le infinite])) infinite
  | stray nonempty stray ends =>
    rw [List.append_assoc]
    exact .stray nonempty (stray.append hparts) (hparts.not_strayAt_append ends)

end First

/-! ## Section 4: All tokens -/

section All

variable {c mark : Char} {text rest tail : List Char} {item : Lexeme} {items : List Lexeme}
  {n : Numeral}

theorem lexemes_mark (h : IsMark mark) :
    lexemes [mark] = [⟨.name (String.singleton mark), [mark]⟩] := by
  have hname : Name.isIdentifier (String.singleton mark) = true := by
    rcases h with rfl | rfl <;> decide
  have hread := @lexemes_identifier_append _ hname [] nofun
  rwa [String.toList_singleton, List.append_nil, lexemes] at hread

theorem Takes.text_append (h : Takes (c :: text) item rest) : item.text ++ rest = c :: text := by
  rw [← lexeme_append c text, h.lexeme_eq.2]

theorem lexemes_of_isBlank (h : Text.isBlank c = true) (text : List Char) :
    lexemes (c :: text) = lexemes text := by
  rw [lexemes, if_pos h]

theorem Takes.lexemes_eq (h : Takes (c :: text) item rest) :
    lexemes (c :: text) = item :: lexemes rest := by
  obtain ⟨hblank, hlexeme⟩ := h.lexeme_eq
  rw [lexemes, if_neg (by simp [hblank]), hlexeme]

theorem not_endsOpen_nil : ¬EndsOpen [] := by
  rintro ⟨last, -, -, -, -⟩
  rw [lexemes] at last
  simp at last

/-- What ends open does so behind other tokens too. -/
theorem EndsOpen.of_suffix (h : EndsOpen rest) (hsuffix : rest <:+ text) (before : List Lexeme)
    (htext : lexemes text = before ++ lexemes rest) : EndsOpen text := by
  cases h with
  | intro last wellFormed noPower isMark adjacent =>
    rw [last, ← List.append_assoc] at htext
    exact .intro htext wellFormed noPower isMark (adjacent.trans hsuffix)

/-- What ends open still does so when tokens before the last two are left away. -/
theorem endsOpen_of_suffix (hsuffix : rest <:+ text)
    (last : lexemes rest
      = items ++ [⟨ofNumeral n, n.text⟩, ⟨.name (String.singleton mark), [mark]⟩])
    (hn : n.WellFormed) (hnone : n.exponent = none) (hmark : IsMark mark)
    (adjacent : n.text ++ [mark] <:+ text) : EndsOpen rest := by
  -- the two tokens are characters of the rest, so that it is long enough to hold both
  refine .intro last hn hnone hmark (List.suffix_of_suffix_length_le adjacent hsuffix ?_)
  have hcover := congrArg List.length (flatMap_text_lexemes rest)
  have hle := List.length_filter_le (fun c => !Text.isBlank c) rest
  rw [last] at hcover
  simp only [List.flatMap_append, List.flatMap_cons, List.flatMap_nil, List.append_nil,
    List.length_append] at hcover ⊢
  omega

theorem endsOpen_blank_iff (h : Text.isBlank c = true) : EndsOpen (c :: text) ↔ EndsOpen text := by
  have hsuffix := List.suffix_cons c text
  have hlexemes := lexemes_of_isBlank h text
  constructor
  · rintro ⟨last, wellFormed, noPower, isMark, adjacent⟩
    exact endsOpen_of_suffix hsuffix (hlexemes.symm.trans last) wellFormed noPower isMark adjacent
  · exact fun hends => hends.of_suffix hsuffix [] hlexemes

/-- What remains of a text that begins with no blank when blanks are left away is not its end. -/
theorem eq_of_suffix_of_filter {part : List Char} (hblank : Text.isBlank c = false)
    (hsuffix : part <:+ c :: text)
    (hfilter : (c :: text).filter (fun c => !Text.isBlank c) = part) : c :: text = part := by
  obtain ⟨before, hbefore⟩ := hsuffix
  cases before with
  | nil => exact hbefore.symm
  | cons first before =>
    obtain ⟨rfl, htext⟩ := List.cons.inj hbefore
    have hpart : part.filter (fun c => !Text.isBlank c) = part := by
      rw [← hfilter, List.filter_filter]
      simp
    have hlength := congrArg List.length hfilter
    rw [List.filter_cons_of_pos (by simp [hblank]), ← htext] at hlength
    simp only [List.append_eq, List.filter_append, hpart, List.length_cons,
      List.length_append] at hlength
    omega

theorem endsOpen_token_iff (h : Takes (c :: text) item rest) :
    EndsOpen (c :: text) ↔ OpenAt item rest ∨ EndsOpen rest := by
  have hsuffix : rest <:+ c :: text := ⟨_, h.text_append⟩
  constructor
  · intro hends
    cases hends with
    | @intro before n mark last wellFormed noPower isMark adjacent =>
      have hcover := flatMap_text_lexemes (c :: text)
      have hfirst := h.lexemes_eq.symm.trans last
      cases before with
      | nil =>
        -- the two tokens are all there are
        obtain ⟨rfl, -⟩ := List.cons.inj hfirst
        rw [last] at hcover
        have htext : n.text ++ rest = n.text ++ [mark] :=
          h.text_append.trans (eq_of_suffix_of_filter h.lexeme_eq.1 adjacent hcover.symm)
        exact .inl ⟨n, mark, wellFormed, noPower, isMark, rfl, List.append_cancel_left htext⟩
      | cons first before =>
        obtain ⟨-, hrest⟩ := List.cons.inj hfirst
        exact .inr (endsOpen_of_suffix hsuffix hrest wellFormed noPower isMark adjacent)
  · rintro (⟨n, mark, hn, hnone, hmark, hitem, hrest⟩ | hends)
    · have hlast := h.lexemes_eq
      have htext := h.text_append
      rw [hitem, hrest] at htext hlast
      rw [lexemes_mark hmark] at hlast
      exact @EndsOpen.intro _ [] _ _ hlast hn hnone hmark ⟨[], htext⟩
    · exact hends.of_suffix hsuffix [item] h.lexemes_eq

/-- In the exception the first token is a longer numeral. -/
theorem OpenAt.lexemes_append_ne (h : OpenAt item rest) (htakes : Takes (c :: text) item rest)
    (hsigned : SignedDigit tail) :
    lexemes (c :: text ++ tail) ≠ item :: items := by
  obtain ⟨n, mark, hn, hnone, hmark, rfl, rfl⟩ := h
  obtain ⟨m, rest, hlongest, hlength⟩ :=
    hn.exists_longest_of_signedDigit hnone hmark hsigned
  have htext : n.text ++ mark :: tail = c :: (text ++ tail) := by
    have happend := congrArg (· ++ tail) htakes.text_append
    simpa using happend
  rw [htext] at hlongest
  obtain ⟨hblank, hlexeme⟩ := lexeme_of_longest hlongest
  rw [List.cons_append, lexemes, if_neg (by simp [hblank]), hlexeme]
  intro heq
  have hitem := congrArg Lexeme.text (List.cons.inj heq).1
  exact absurd (congrArg List.length hitem) (by dsimp only; omega)

/-- A text that is cut has the tokens of its beginning and then those behind the cut, but for the
    exception. -/
theorem lexemes_append_eq_iff (hparts : Parts tail) :
    lexemes (text ++ tail) = lexemes text ++ lexemes tail ↔
      ¬(EndsOpen text ∧ SignedDigit tail) := by
  fun_induction lexemes text with
  | case1 => exact iff_of_true rfl fun h => not_endsOpen_nil h.1
  | case2 c text hblank ih =>
    rw [List.cons_append, lexemes_of_isBlank hblank, endsOpen_blank_iff hblank]
    exact ih
  | case3 c text hblank next ih =>
    rw [Bool.not_eq_true] at hblank
    have htakes : Takes (c :: text) next.1 next.2 := takes_lexeme hblank
    rw [endsOpen_token_iff htakes]
    -- either the exception is here, or the first token stays and the question is about the rest
    by_cases hopen : OpenAt next.1 next.2 ∧ SignedDigit tail
    · exact iff_of_false (hopen.1.lexemes_append_ne htakes hopen.2)
        fun h => h ⟨.inl hopen.1, hopen.2⟩
    · have hlonger : Takes (c :: (text ++ tail)) next.1 (next.2 ++ tail) :=
        htakes.append hparts fun hat hsigned => hopen ⟨hat, hsigned⟩
      rw [List.cons_append, hlonger.lexemes_eq, List.cons_append, List.cons.injEq, ih]
      tauto

end All

/-! ## Section 5: Texts -/

section Texts

variable {a b : String} {c : Char} {token : Token}

theorem signedDigit_cons_iff {rest : List Char} :
    SignedDigit (c :: rest) ↔ (c = '+' ∨ c = '-') ∧ ∃ digit ∈ rest.head?, digit.isDigit = true := by
  constructor
  · rintro ⟨isSign, isDigit⟩
    exact ⟨isSign, _, rfl, isDigit⟩
  · rintro ⟨isSign, digit, hdigit, isDigit⟩
    obtain ⟨rest, rfl⟩ := List.head?_eq_some_iff.mp (Option.mem_def.mp hdigit)
    exact .intro isSign isDigit

theorem toList_append_singleton (a : String) (c : Char) (b : String) :
    (a ++ String.singleton c ++ b).toList = a.toList ++ c :: b.toList := by
  rw [String.toList_append, String.toList_append, String.toList_singleton, List.append_assoc]
  rfl

theorem ofText_append_blank (h : Text.isBlank c = true) (a b : String) :
    ofText (a ++ String.singleton c ++ b) = ofText a ++ ofText b := by
  have hparts : Parts (c :: b.toList) := by
    rintro _ ⟨⟩
    exact .inl h
  have hsigned : ¬SignedDigit (c :: b.toList) := by
    rw [signedDigit_cons_iff]
    rintro ⟨rfl | rfl, -⟩ <;> revert h <;> decide
  unfold ofText
  rw [toList_append_singleton, (lexemes_append_eq_iff hparts).mpr fun hopen => hsigned hopen.2,
    lexemes_of_isBlank h, List.map_append]

theorem ofText_append_token (h : ofChar? c = some token)
    (hopen : ¬(EndsOpen a.toList ∧ SignedDigit (c :: b.toList))) :
    ofText (a ++ String.singleton c ++ b) = ofText a ++ [token] ++ ofText b := by
  have hparts : Parts (c :: b.toList) := by
    rintro _ ⟨⟩
    exact .inr (Option.isSome_of_eq_some h)
  unfold ofText
  rw [toList_append_singleton, (lexemes_append_eq_iff hparts).mpr hopen, lexemes_cons_of_ofChar? h,
    List.map_append, List.map_cons, List.append_assoc, List.singleton_append]

end Texts

/-- Two texts with a blank between them have the tokens of each. So they do with a parenthesis or an
    operator between them, which is one more token, unless the operator is a sign that makes a power
    of ten of the mark before it and the digit behind it. -/
theorem ofText_parted (a b : String) :
    (∀ blank, Text.isBlank blank = true →
      ofText (a ++ String.singleton blank ++ b) = ofText a ++ ofText b)
    ∧ (∀ token ∈ [opening, closing, operator .times, operator .dividedBy],
        ofText (a ++ token.text ++ b) = ofText a ++ [token] ++ ofText b)
    ∧ ∀ sign ∈ [operator .plus, operator .minus],
        ¬(EndsOpen a.toList ∧ ∃ digit ∈ b.toList.head?, digit.isDigit = true) →
          ofText (a ++ sign.text ++ b) = ofText a ++ [sign] ++ ofText b := by
  refine ⟨fun blank hblank => ofText_append_blank hblank a b, ?_, ?_⟩
  · have hnone {c : Char} (hc : c ≠ '+' ∧ c ≠ '-') :
        ¬(EndsOpen a.toList ∧ SignedDigit (c :: b.toList)) := by
      rw [signedDigit_cons_iff]
      rintro ⟨-, hsign, -⟩
      exact hsign.elim hc.1 hc.2
    intro token htoken
    simp only [List.mem_cons, List.not_mem_nil, or_false] at htoken
    rcases htoken with rfl | rfl | rfl | rfl
    · exact ofText_append_token (c := '(') rfl (hnone (by decide))
    · exact ofText_append_token (c := ')') rfl (hnone (by decide))
    · exact ofText_append_token (c := '*') rfl (hnone (by decide))
    · exact ofText_append_token (c := '/') rfl (hnone (by decide))
  · have hopen {c : Char}
        (h : ¬(EndsOpen a.toList ∧ ∃ digit ∈ b.toList.head?, digit.isDigit = true)) :
        ¬(EndsOpen a.toList ∧ SignedDigit (c :: b.toList)) := by
      rw [signedDigit_cons_iff]
      exact fun hboth => h ⟨hboth.1, hboth.2.2⟩
    intro sign hsign hends
    simp only [List.mem_cons, List.not_mem_nil, or_false] at hsign
    rcases hsign with rfl | rfl
    · exact ofText_append_token (c := '+') rfl (hopen hends)
    · exact ofText_append_token (c := '-') rfl (hopen hends)

/-- The exception: a mark is a name, but not before a sign and a digit. -/
example : (lexemes "2e".toList).map Lexeme.text = [['2'], ['e']]
    ∧ (lexemes "2e+7".toList).map Lexeme.text = [['2', 'e', '+', '7']] := by
  decide +kernel

end Worksheet.Token
