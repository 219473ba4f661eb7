import Worksheet.Proofs.Formula.Grammar
import Worksheet.Proofs.Token.Spelling

/-! # Reading back the text of a formula

    A formula is written without blanks. Its tokens are nevertheless told apart again: in an
    expression an operand is followed by an operator, by a closing parenthesis or by nothing, and
    neither a name nor a numeral goes on with one of these.

    - `Completes.lexemes_texts`: the tokens of an expression are read back.
    - `Formula.legible_of_parse`: a formula that was read is made of legible tokens.
    - `Formula.parse_text`: its text is read as the same formula when every key is its own key.
    - `Formula.text_reads_back`: what was read is read back from its text.
-/

namespace Worksheet

/-! ## Section 1: Expressions -/

/-- Behind an operand the text goes on with a token of a single character, if at all. -/
theorem boundary_of_fitting {tokens : List Token} (h : Fitting .behind tokens) :
    Token.Boundary (tokens.flatMap fun token => token.text.toList) := by
  intro c hc
  cases tokens with
  | nil => cases hc
  | cons token rest =>
    cases token with
    | operator op =>
      obtain rfl : op.toChar = c := by
        simpa [Token.text] using hc
      cases op <;> rfl
    | closing =>
      obtain rfl : ')' = c := by
        simpa [Token.text] using hc
      rfl
    | number value => cases h
    | name spelling => cases h
    | opening => cases h
    | stray text => cases h

/-- The tokens of an expression are read back from their texts, one after another. -/
theorem Completes.lexemes_texts {place : Place} {depth : Nat} {tokens : List Token}
    (h : Completes place depth tokens) (hlegible : ∀ token ∈ tokens, token.Legible) :
    Token.lexemes (tokens.flatMap fun token => token.text.toList)
      = tokens.map fun token => ⟨token, token.text.toList⟩ := by
  -- only behind an operand does it matter what follows
  have hcons {token : Token} {rest : List Token}
      (hend : token.kind.isOperand = true → Fitting .behind rest)
      (hlegible : ∀ t ∈ token :: rest, t.Legible)
      (ih : (∀ t ∈ rest, t.Legible) → Token.lexemes (rest.flatMap fun t => t.text.toList)
        = rest.map fun t => ⟨t, t.text.toList⟩) :
      Token.lexemes ((token :: rest).flatMap fun t => t.text.toList)
        = (token :: rest).map fun t => ⟨t, t.text.toList⟩ := by
    rw [List.forall_mem_cons] at hlegible
    rw [List.flatMap_cons, List.map_cons,
      Token.lexemes_text_append hlegible.1 (fun hop => boundary_of_fitting (hend hop)),
      ih hlegible.2]
  induction h with
  | finish => rw [List.flatMap_nil, Token.lexemes, List.map_nil]
  | number value hrest ih => exact hcons (fun _ => hrest.fitting) hlegible ih
  | name spelling hrest ih => exact hcons (fun _ => hrest.fitting) hlegible ih
  | opening _ ih => exact hcons (fun hop => by cases hop) hlegible ih
  | operator op _ ih => exact hcons (fun hop => by cases hop) hlegible ih
  | closing _ ih => exact hcons (fun hop => by cases hop) hlegible ih

/-- Upper case is upper case already. -/
theorem Naming.key_uppercase_idempotent (name : String) :
    uppercase.key (uppercase.key name) = uppercase.key name := by
  have htwice : Char.toUpper ∘ Char.toUpper = Char.toUpper :=
    funext Char.toUpper_toUpper_eq_toUpper
  show (name.map Char.toUpper).map Char.toUpper = name.map Char.toUpper
  rw [String.map_map, htwice]

namespace Formula

/-- The tokens of a formula are read back when they are legible. -/
theorem ofText_text {f : Formula} (h : ∀ token ∈ f.tokens, token.Legible) :
    Token.ofText f.text = f.tokens := by
  have hlexemes := (completes_of_structureError?_eq_none f.sound).lexemes_texts h
  rw [Token.ofText, text, String.toList_ofList, hlexemes, List.map_map]
  exact List.map_id _

/-! ## Section 2: Formulas that were read -/

variable {naming : Naming} {source : String} {f : Formula}

/-- A name of a formula is the key of a name in the text that is admitted. -/
theorem exists_admitted_of_parse (h : parse naming source = .ok f) {key : String}
    (hkey : .name key ∈ f.tokens) : ∃ name, naming.Admits name ∧ naming.key name = key := by
  obtain ⟨-, hnames, htokens⟩ := parse_eq_ok_iff.mp h
  rw [htokens] at hkey
  obtain ⟨token, hmem, hmap⟩ := List.mem_map.mp hkey
  cases token with
  | name name =>
    cases hmap
    exact ⟨name, (Naming.tokensError?_eq_none_iff _).mp hnames name hmem, rfl⟩
  | _ => cases hmap

/-- A formula that was read is made of legible tokens. -/
theorem legible_of_parse (h : parse naming source = .ok f) :
    ∀ token ∈ f.tokens, token.Legible := by
  intro token hmem
  cases token with
  | number x =>
    -- renaming leaves the numbers of the text alone
    obtain ⟨-, -, htokens⟩ := parse_eq_ok_iff.mp h
    rw [htokens] at hmem
    obtain ⟨original, horiginal, hmap⟩ := List.mem_map.mp hmem
    cases original with
    | number y =>
      cases hmap
      exact Token.number_legible_of_mem_ofText horiginal
    | _ => cases hmap
  | name key =>
    obtain ⟨name, hadmits, rfl⟩ := exists_admitted_of_parse h hmem
    exact .name hadmits.1
  | operator op => exact .operator op
  | opening => exact .opening
  | closing => exact .closing
  | stray text =>
    have hcompletes := completes_of_structureError?_eq_none f.sound
    exact absurd rfl (hcompletes.kind_ne_stray _ hmem)

/-- Renaming with the keys of a formula's own names changes nothing when each is its own key. -/
theorem map_mapName_of_fixed (hfixed : ∀ name ∈ f.mentions, naming.key name = name) :
    f.tokens.map (Token.mapName naming.key) = f.tokens := by
  conv_rhs => rw [← List.map_id f.tokens]
  refine List.map_congr_left fun token hmem => ?_
  cases token with
  | name name => exact congrArg Token.name (hfixed name ((mem_mentions_iff f name).mpr hmem))
  | _ => rfl

/-- The text of a formula that was read is read as the same formula when every key is its own
    key. -/
theorem parse_text (h : parse naming source = .ok f)
    (hidempotent : ∀ name, naming.key (naming.key name) = naming.key name) :
    parse naming f.text = .ok f := by
  have hfixed : ∀ name ∈ f.mentions, naming.key name = name := by
    intro name hmem
    obtain ⟨original, -, rfl⟩ := exists_admitted_of_parse h ((mem_mentions_iff f name).mp hmem)
    exact hidempotent original
  rw [parse_eq_ok_iff, ofText_text (legible_of_parse h), Naming.tokensError?_eq_none_iff]
  refine ⟨f.sound, ?_, (map_mapName_of_fixed hfixed).symm⟩
  intro name hname
  obtain ⟨original, horiginal, rfl⟩ := exists_admitted_of_parse h hname
  unfold Naming.Admits
  rw [hidempotent]
  exact horiginal

theorem same_self (token : Token) : token.same token = true := by
  cases token <;> simp [Token.same]

theorem beq_self (f : Formula) : (f == f) = true := by
  show f.tokens.isEqv f.tokens Token.same = true
  induction f.tokens with
  | nil => rfl
  | cons token rest ih => rw [List.isEqv, same_self, ih, Bool.and_self]

/-- The text of a formula that was read has the tokens of the formula. When every name of the
    formula is its own key, as it is when every key is, the text is read as the same formula. -/
theorem text_reads_back (h : parse naming source = .ok f) :
    Token.ofText f.text = f.tokens
    ∧ ((∀ name ∈ f.mentions, naming.key name = name) →
        ∃ g, parse naming f.text = .ok g ∧ g.tokens = f.tokens ∧ (g == f) = true
          ∧ g.text = f.text)
    ∧ ((∀ name, naming.key (naming.key name) = naming.key name) →
        ∀ name ∈ f.mentions, naming.key name = name) := by
  have htokens := ofText_text (legible_of_parse h)
  refine ⟨htokens, fun hfixed => ?_, fun hidempotent name hmem => ?_⟩
  · have hadmits : naming.tokensError? f.tokens = none := by
      rw [Naming.tokensError?_eq_none_iff]
      intro name hname
      obtain ⟨original, horiginal, rfl⟩ := exists_admitted_of_parse h hname
      have hkey := hfixed _ ((mem_mentions_iff f _).mpr hname)
      unfold Naming.Admits
      rw [hkey]
      exact horiginal
    refine ⟨f, parse_eq_ok_iff.mpr ?_, rfl, beq_self f, rfl⟩
    rw [htokens]
    exact ⟨f.sound, hadmits, (map_mapName_of_fixed hfixed).symm⟩
  · obtain ⟨original, -, rfl⟩ := exists_admitted_of_parse h ((mem_mentions_iff f name).mp hmem)
    exact hidempotent original

/-- The text need not be the one that was read: blanks, idle digits and lower case are gone. -/
theorem quotient_text_reads_back :
    ∃ f, parse .uppercase "(2.50) / b_1" = .ok f ∧ f.text = "(2.5)/B_1"
      ∧ f.tokens = [.opening, .number 2.5, .closing, .operator .dividedBy, .name "B_1"]
      ∧ Token.ofText "(2.5)/B_1" = f.tokens
      ∧ ∃ g, parse .uppercase "(2.5)/B_1" = .ok g ∧ (g == f) = true := by
  have hread : (parse .uppercase "(2.50) / b_1").toOption.map (fun f => (f.text, f.tokens))
      = some ("(2.5)/B_1",
        [.opening, .number 2.5, .closing, .operator .dividedBy, .name "B_1"]) := by
    decide +kernel
  cases hparse : parse .uppercase "(2.50) / b_1" with
  | error e =>
    rw [hparse] at hread
    cases hread
  | ok f =>
    rw [hparse] at hread
    obtain ⟨htext, htokens⟩ := Prod.mk.inj (Option.some.inj hread)
    obtain ⟨hback, hagain, hidempotent⟩ := text_reads_back hparse
    obtain ⟨g, hg, -, hsame, -⟩ := hagain (hidempotent Naming.key_uppercase_idempotent)
    rw [htext] at hback hg
    exact ⟨f, rfl, htext, htokens, hback, g, hg, hsame⟩

end Formula

end Worksheet
