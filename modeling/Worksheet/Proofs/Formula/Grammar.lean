import Worksheet.Proofs.Formula.Parsing

/-! # What is accepted as a formula

    A text is read as a formula when its tokens are those of an expression and the naming rules
    admit every name among them. The check of the structure refuses no expression: a parse tree
    says of every place in its tokens what may come there, and the check asks for no more.

    - `structureError?_eq_none_iff`: the check accepts expressions and nothing else.
    - `Naming.tokensError?_eq_some_iff`: the first name that is not admitted, and why.
    - `Formula.parse_accepts_grammar`: what is accepted, what it is read as, and what is refused.
-/

namespace Worksheet

/-! ## Section 1: Expressions pass the check -/

/-- A phrase takes the place of an operand. -/
theorem Phrase.completes {level : Level} (p : Phrase level) {depth : Nat} {rest : List Token}
    (h : Completes .behind depth rest) : Completes .before depth (p.tokens ++ rest) := by
  induction p generalizing depth rest with
  | number x => exact .number x h
  | name spelling => exact .name spelling h
  | parens inner ih =>
    rw [Phrase.tokens_parens_append]
    exact .opening (ih (.closing h))
  | ofFactor only ih => exact ih h
  | product left op tight right ihleft ihright =>
    rw [Phrase.tokens_product_append]
    exact ihleft (.operator op (ihright h))
  | ofTerm only ih => exact ih h
  | sum left op loose right ihleft ihright =>
    rw [Phrase.tokens_sum_append]
    exact ihleft (.operator op (ihright h))

theorem needOperand_of_fitting {token : Token} {rest : List Token} {further : Option SyntaxError}
    (h : Fitting .before rest) : needOperand token rest further = further := by
  cases rest with
  | nil => exact absurd h id
  | cons next rest => exact if_pos h

theorem needOperator_of_fitting {token : Token} {rest : List Token} {further : Option SyntaxError}
    (h : Fitting .behind rest) : needOperator token rest further = further := by
  cases rest with
  | nil => rfl
  | cons next rest => exact if_pos h

namespace Completes

variable {place : Place} {depth : Nat} {tokens : List Token}

theorem fitting (h : Completes place depth tokens) : Fitting place tokens := by
  cases h with
  | finish => trivial
  | number value _ => rfl
  | name spelling _ => rfl
  | opening _ => rfl
  | operator op _ => rfl
  | closing _ => rfl

/-- The check finds every place right, when its counters differ by the depth. -/
theorem placeError?_eq_none (h : Completes place depth tokens) {position opened closed : Nat}
    (hdepth : opened = closed + depth) : placeError? position opened closed tokens = none := by
  induction h generalizing position opened closed with
  | finish => simp [placeError?, hdepth]
  | number value hrest ih =>
    exact (needOperator_of_fitting hrest.fitting).trans (ih hdepth)
  | name spelling hrest ih =>
    exact (needOperator_of_fitting hrest.fitting).trans (ih hdepth)
  | opening hrest ih =>
    exact (needOperand_of_fitting hrest.fitting).trans (ih (by omega))
  | operator op hrest ih =>
    exact (needOperand_of_fitting hrest.fitting).trans (ih hdepth)
  | @closing depth rest hrest ih =>
    -- at a positive depth a parenthesis is open
    have hopen : ¬opened < closed + 1 := by omega
    simp only [placeError?, Token.kind, if_neg hopen]
    exact (needOperator_of_fitting hrest.fitting).trans (ih (by omega))

theorem kind_ne_stray (h : Completes place depth tokens) :
    ∀ token ∈ tokens, token.kind ≠ .stray := by
  induction h with
  | finish => simp
  | number value _ ih => simpa [Token.kind] using ih
  | name spelling _ ih => simpa [Token.kind] using ih
  | opening _ ih => simpa [Token.kind] using ih
  | operator op _ ih => simpa [Token.kind] using ih
  | closing _ ih => simpa [Token.kind] using ih

/-- The last token ends an operand. -/
theorem endsOperand_getLast (h : Completes place depth tokens) {last : Token}
    (hlast : tokens.getLast? = some last) : last.kind.endsOperand = true := by
  -- the last token is the first one only where an operand may end
  have hbehind {token : Token} {rest : List Token} (hends : token.kind.endsOperand = true)
      (ih : rest.getLast? = some last → last.kind.endsOperand = true)
      (hcons : (token :: rest).getLast? = some last) : last.kind.endsOperand = true := by
    cases hrest : rest.getLast? with
    | none =>
      rw [List.getLast?_cons, hrest] at hcons
      cases hcons
      exact hends
    | some other =>
      rw [List.getLast?_cons, hrest] at hcons
      cases hcons
      exact ih hrest
  have hbefore {token : Token} {rest : List Token} (hfits : Fitting .before rest)
      (hcons : (token :: rest).getLast? = some last) : rest.getLast? = some last := by
    cases rest with
    | nil => exact absurd hfits id
    | cons next rest => simpa using hcons
  induction h with
  | finish => cases hlast
  | number value _ ih => exact hbehind rfl ih hlast
  | name spelling _ ih => exact hbehind rfl ih hlast
  | opening hrest ih => exact ih (hbefore hrest.fitting hlast)
  | operator op hrest ih => exact ih (hbefore hrest.fitting hlast)
  | closing _ ih => exact hbehind rfl ih hlast

end Completes

/-- The structure of a token sequence is sound exactly when it is that of an expression. -/
theorem structureError?_eq_none_iff (tokens : List Token) :
    structureError? tokens = none ↔ ∃ p : Phrase .expression, p.tokens = tokens := by
  constructor
  · intro h
    exact (completes_of_structureError?_eq_none h).exists_phrase
  · rintro ⟨p, rfl⟩
    have hcompletes : Completes .before 0 p.tokens := by
      simpa using p.completes .finish
    have hfits := hcompletes.fitting
    have hstray : p.tokens.findSome? Token.stray? = none := by
      rw [List.findSome?_eq_none_iff]
      exact fun token htoken => (Token.stray?_eq_none_iff token).mpr
        (hcompletes.kind_ne_stray token htoken)
    have hplace : placeError? 0 0 0 p.tokens = none := hcompletes.placeError?_eq_none rfl
    have hends := @hcompletes.endsOperand_getLast
    revert hfits hstray hplace hends
    cases p.tokens with
    | nil => exact fun hfits => absurd hfits id
    | cons first rest =>
      intro hfits hstray hplace hends
      obtain ⟨last, hlast⟩ : ∃ last, (first :: rest).getLast? = some last :=
        ⟨_, List.getLast?_cons⟩
      have hbegins : first.kind.beginsOperand = true := hfits
      unfold structureError?
      rw [hlast]
      simp [hstray, hbegins, hends hlast, hplace]

/-! ## Section 2: Names that are not admitted -/

namespace Naming

/-- The key of the name is an identifier, and is accepted. -/
def Admits (naming : Naming) (name : String) : Prop :=
  Name.isIdentifier (naming.key name) = true ∧ naming.accepts (naming.key name) = true

/-- Why a name is not admitted. That its key is no identifier counts before all else. -/
inductive Blames (naming : Naming) (name : String) : SyntaxError → Prop where
  | unusable (h : Name.isIdentifier (naming.key name) = false) :
      Blames naming name (.unusableKey name (naming.key name))
  | refused (hidentifier : Name.isIdentifier (naming.key name) = true)
      (haccepts : naming.accepts (naming.key name) = false) :
      Blames naming name (.refusedKey name (naming.key name))

variable {naming : Naming} {name : String} {e : SyntaxError}

theorem nameError?_eq_none_iff : naming.nameError? name = none ↔ naming.Admits name := by
  unfold nameError? Admits
  cases Name.isIdentifier (naming.key name) <;> cases naming.accepts (naming.key name) <;> simp

theorem nameError?_eq_some_iff : naming.nameError? name = some e ↔ naming.Blames name e := by
  unfold nameError?
  constructor
  · intro h
    split at h
    · next hidentifier =>
      cases h
      exact .unusable (by simpa using hidentifier)
    · next hidentifier =>
      split at h
      · next haccepts =>
        cases h
        exact .refused (by simpa using hidentifier) (by simpa using haccepts)
      · cases h
  · intro h
    cases h with
    | unusable h => simp [h]
    | refused hidentifier haccepts => simp [hidentifier, haccepts]

/-- What the naming rules have against a token is what they have against the name that it
    mentions. -/
theorem bind_nameError?_eq_none_iff (token : Token) :
    token.name?.bind naming.nameError? = none ↔
      ∀ name, token = .name name → naming.Admits name := by
  cases token with
  | name spelling => simpa [Token.name?] using nameError?_eq_none_iff
  | _ => simp [Token.name?]

theorem tokensError?_eq_none_iff (tokens : List Token) :
    naming.tokensError? tokens = none ↔ ∀ name, .name name ∈ tokens → naming.Admits name := by
  unfold tokensError?
  rw [List.findSome?_eq_none_iff]
  constructor
  · intro h name hmem
    exact (bind_nameError?_eq_none_iff _).mp (h _ hmem) name rfl
  · intro h token hmem
    refine (bind_nameError?_eq_none_iff token).mpr ?_
    rintro name rfl
    exact h name hmem

/-- The first name that is not admitted is blamed. -/
theorem tokensError?_eq_some_iff (tokens : List Token) :
    naming.tokensError? tokens = some e ↔
      ∃ before name after, tokens = before ++ .name name :: after
        ∧ (∀ earlier, .name earlier ∈ before → naming.Admits earlier) ∧ naming.Blames name e := by
  have hbefore (before : List Token) :
      (∀ token ∈ before, token.name?.bind naming.nameError? = none) ↔
        ∀ earlier, .name earlier ∈ before → naming.Admits earlier := by
    rw [← List.findSome?_eq_none_iff]
    exact tokensError?_eq_none_iff before
  unfold tokensError?
  rw [List.findSome?_eq_some_iff]
  constructor
  · rintro ⟨before, token, after, rfl, herror, hnone⟩
    obtain ⟨name, hname, hblames⟩ := Option.bind_eq_some_iff.mp herror
    obtain rfl := (Token.name?_eq_some_iff token name).mp hname
    exact ⟨before, name, after, rfl, (hbefore before).mp hnone, nameError?_eq_some_iff.mp hblames⟩
  · rintro ⟨before, name, after, rfl, hadmits, hblames⟩
    exact ⟨before, .name name, after, rfl, nameError?_eq_some_iff.mpr hblames,
      (hbefore before).mpr hadmits⟩

end Naming

/-! ## Section 3: Reading a formula -/

namespace Formula

variable {naming : Naming} {text : String}

/-- A sequence that is no expression is refused. -/
theorem exists_parse_error (h : structureError? (Token.ofText text) ≠ none) :
    ∃ e, parse naming text = .error e := by
  unfold parse
  dsimp only
  split
  · next e _ => exact ⟨e, rfl⟩
  · next hnone => exact absurd hnone h

/-- What an expression is read as is decided by its names. -/
theorem parse_of_sound (h : structureError? (Token.ofText text) = none) :
    parse naming text = match naming.tokensError? (Token.ofText text) with
      | some e => .error e
      | none => .ok ⟨(Token.ofText text).map (Token.mapName naming.key),
          sound_map_mapName h naming.key⟩ := by
  unfold parse
  dsimp only
  split
  · next e hsome =>
    rw [h] at hsome
    cases hsome
  · rfl

/-- What it takes to be read, and what is then read. -/
theorem parse_eq_ok_iff {f : Formula} :
    parse naming text = .ok f ↔ structureError? (Token.ofText text) = none
      ∧ naming.tokensError? (Token.ofText text) = none
      ∧ f.tokens = (Token.ofText text).map (Token.mapName naming.key) := by
  by_cases hsound : structureError? (Token.ofText text) = none
  · rw [parse_of_sound hsound]
    obtain ⟨tokens, sound⟩ := f
    cases naming.tokensError? (Token.ofText text) with
    | none => simp [hsound, eq_comm]
    | some e => simp
  · obtain ⟨e, he⟩ : ∃ e, parse naming text = .error e := exists_parse_error hsound
    simp [he, hsound]

/-- A text is accepted when its tokens are those of an expression and all names among them are
    admitted. It is read as these tokens, with the key in place of each name. An expression that is
    refused is refused for its first name that is not admitted. -/
theorem parse_accepts_grammar (naming : Naming) (text : String) :
    ((∃ f, parse naming text = .ok f) ↔
        (∃ p : Phrase .expression, p.tokens = Token.ofText text)
        ∧ ∀ name, .name name ∈ Token.ofText text → naming.Admits name)
    ∧ (∀ f, parse naming text = .ok f →
        f.tokens = (Token.ofText text).map (Token.mapName naming.key))
    ∧ ((∃ p : Phrase .expression, p.tokens = Token.ofText text) →
        ∀ e, parse naming text = .error e ↔
          ∃ before name after, Token.ofText text = before ++ .name name :: after
            ∧ (∀ earlier, .name earlier ∈ before → naming.Admits earlier)
            ∧ naming.Blames name e) := by
  rw [← structureError?_eq_none_iff, ← Naming.tokensError?_eq_none_iff]
  simp only [← Naming.tokensError?_eq_some_iff]
  refine ⟨⟨?_, ?_⟩, fun f hread => (parse_eq_ok_iff.mp hread).2.2, ?_⟩
  · rintro ⟨f, hread⟩
    obtain ⟨hsound, hnames, -⟩ := parse_eq_ok_iff.mp hread
    exact ⟨hsound, hnames⟩
  · rintro ⟨hsound, hnames⟩
    exact ⟨⟨_, sound_map_mapName hsound naming.key⟩, parse_eq_ok_iff.mpr ⟨hsound, hnames, rfl⟩⟩
  · intro hsound e
    rw [parse_of_sound hsound]
    cases naming.tokensError? (Token.ofText text) with
    | none => simp
    | some blamed => simp

end Formula

end Worksheet
