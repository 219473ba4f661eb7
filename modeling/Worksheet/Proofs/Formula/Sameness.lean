import Worksheet.Proofs.Formula.RoundTrip

/-! # When formulas are the same

    Two formulas are compared token by token, numbers by their texts. They could as well be compared
    by their texts as wholes, or by what enters their hashes: none of these sees less than the text,
    and the text of a formula that was read tells its tokens, numbers bit for bit.

    - `Formula.text_eq_of_beq`, `Formula.text_eq_of_fingerprint_eq`: what is the same has one text.
    - `Formula.WasRead.eq_of_text_eq`: formulas with one text are equal.
    - `Formula.WasRead.sameness_agrees`: all comparisons agree.
-/

namespace Worksheet

/-! ## Section 1: What is the same has one text -/

theorem Token.text_eq_of_same {s t : Token} (h : s.same t = true) : s.text = t.text := by
  unfold same at h
  split at h
  · exact eq_of_beq h
  · exact congrArg Token.text (eq_of_beq h)

namespace Formula

variable {f g : Formula}

/-- The text is made of the texts of the tokens. -/
theorem text_eq_of_map_text_eq (h : f.tokens.map Token.text = g.tokens.map Token.text) :
    f.text = g.text := by
  have htexts (tokens : List Token) : (tokens.flatMap fun token => token.text.toList)
      = (tokens.map Token.text).flatMap String.toList := by
    rw [List.flatMap_map]
  rw [text, text, htexts, htexts, h]

theorem text_eq_of_beq (h : (f == g) = true) : f.text = g.text := by
  have hequal {tokens others : List Token} (h : tokens.isEqv others Token.same = true) :
      tokens.map Token.text = others.map Token.text := by
    induction tokens generalizing others with
    | nil =>
      cases others with
      | nil => rfl
      | cons other others => cases h
    | cons token tokens ih =>
      cases others with
      | nil => cases h
      | cons other others =>
        obtain ⟨hfirst, hrest⟩ := Bool.and_eq_true_iff.mp h
        rw [List.map_cons, List.map_cons, Token.text_eq_of_same hfirst, ih hrest]
  exact text_eq_of_map_text_eq (hequal h)

theorem text_eq_of_fingerprint_eq (h : f.fingerprint = g.fingerprint) : f.text = g.text := by
  have htexts (f : Formula) : f.fingerprint.2.map Prod.snd = f.tokens.map Token.text := by
    rw [fingerprint, List.map_map]
    rfl
  apply text_eq_of_map_text_eq
  rw [← htexts, ← htexts, h]

theorem eq_of_tokens_eq (h : f.tokens = g.tokens) : f = g := by
  obtain ⟨tokens, sound⟩ := f
  obtain ⟨tokens', sound'⟩ := g
  cases h
  rfl

/-! ## Section 2: Formulas that were read -/

/-- The formula was read from some text, under some naming rules. -/
def WasRead (f : Formula) : Prop :=
  ∃ naming source, parse naming source = .ok f

namespace WasRead

/-- The text tells the formula, whatever the naming rules were. -/
theorem eq_of_text_eq (hf : f.WasRead) (hg : g.WasRead) (h : f.text = g.text) : f = g := by
  obtain ⟨naming, source, hread⟩ := hf
  obtain ⟨naming', source', hread'⟩ := hg
  apply eq_of_tokens_eq
  rw [← ofText_text (legible_of_parse hread), h, ofText_text (legible_of_parse hread')]

theorem beq_iff_eq (hf : f.WasRead) (hg : g.WasRead) : (f == g) = true ↔ f = g := by
  constructor
  · intro h
    exact hf.eq_of_text_eq hg (text_eq_of_beq h)
  · rintro rfl
    exact beq_self f

/-- For formulas that were read, under any naming rules, it is all one whether they are compared by
    `==`, by their texts, by their tokens or by what enters their hashes. So `==` is an equivalence,
    and formulas that are the same have the same hash, mention the same names, and are calculated
    alike under every lookup: with the same result, and asking for the same names. -/
theorem sameness_agrees (hf : f.WasRead) (hg : g.WasRead) :
    ((f == g) = true ↔ f.text = g.text)
    ∧ (f.text = g.text ↔ f.tokens = g.tokens)
    ∧ (f.tokens = g.tokens ↔ f.fingerprint = g.fingerprint)
    ∧ Equivalence (fun f g : {f : Formula // f.WasRead} => (f.val == g.val) = true)
    ∧ ((f == g) = true → hash f = hash g ∧ f.mentions = g.mentions
        ∧ ∀ lookup, calculate lookup f.tokens = calculate lookup g.tokens) := by
  have htext : f.text = g.text ↔ f = g := ⟨hf.eq_of_text_eq hg, congrArg text⟩
  have htokens : f.tokens = g.tokens ↔ f = g := ⟨eq_of_tokens_eq, congrArg tokens⟩
  have hfingerprint : f.fingerprint = g.fingerprint ↔ f = g :=
    ⟨fun h => hf.eq_of_text_eq hg (text_eq_of_fingerprint_eq h), congrArg fingerprint⟩
  rw [hf.beq_iff_eq hg, htext, htokens, hfingerprint]
  refine ⟨Iff.rfl, Iff.rfl, Iff.rfl, ?_, ?_⟩
  · constructor
    case refl => exact fun f => beq_self f.val
    case symm =>
      intro f g h
      exact (g.property.beq_iff_eq f.property).mpr ((f.property.beq_iff_eq g.property).mp h).symm
    case trans =>
      intro f g k hfg hgk
      rw [f.property.beq_iff_eq g.property] at hfg
      rw [hfg]
      exact hgk
  · rintro rfl
    exact ⟨rfl, rfl, fun _ => rfl⟩

/-- Blanks, idle digits and lower case make no difference where the naming rules see none. -/
theorem quotient_sameness_agrees :
    ∃ f g, parse .uppercase "(2.50) / b_1" = .ok f ∧ parse .plain "(2.5)/B_1" = .ok g
      ∧ f.text = "(2.5)/B_1" ∧ (f == g) = true ∧ f.fingerprint = g.fingerprint := by
  have hreadable (naming : Naming) (source : String)
      (h : (parse naming source).toOption.map text = some "(2.5)/B_1") :
      ∃ f, parse naming source = .ok f ∧ f.text = "(2.5)/B_1" := by
    cases hparse : parse naming source with
    | error e =>
      rw [hparse] at h
      cases h
    | ok f =>
      rw [hparse] at h
      exact ⟨f, rfl, Option.some.inj h⟩
  obtain ⟨f, hf, hftext⟩ := hreadable .uppercase "(2.50) / b_1" (by decide +kernel)
  obtain ⟨g, hg, hgtext⟩ := hreadable .plain "(2.5)/B_1" (by decide +kernel)
  have hreadf : f.WasRead := ⟨_, _, hf⟩
  have hreadg : g.WasRead := ⟨_, _, hg⟩
  obtain ⟨hbeq, htokens, hfingerprint, -, -⟩ := hreadf.sameness_agrees hreadg
  have hsame := hftext.trans hgtext.symm
  exact ⟨f, g, hf, hg, hftext, hbeq.mpr hsame, hfingerprint.mp (htokens.mp hsame)⟩

end WasRead

end Formula

end Worksheet
