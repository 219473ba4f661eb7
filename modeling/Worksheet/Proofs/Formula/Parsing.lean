import Worksheet.Proofs.Formula.Phrase

/-! # Sound token sequences are expressions

    The check of a formula's structure looks at neighbours and counts parentheses; it builds no
    tree. A sequence that passes is nevertheless the sequence of leaves of a parse tree.

    The proof goes through `Completes`, which says of a place in the sequence what may come: an
    operand must begin, or one has ended. A tree is then built from left to right, with a `Frame`
    for each parenthesis that is still open.

    - `completes_of_structureError?_eq_none`: a sound sequence completes a formula.
    - `Completes.exists_phrase`: what completes a formula is an expression.
-/

namespace Worksheet

/-! ## Section 1: Places in a sequence -/

/-- Where a sequence of tokens goes on. -/
inductive Place where
  /-- An operand must begin here. -/
  | before
  /-- An operand has just ended. -/
  | behind
  deriving DecidableEq, Repr

/-- From this place on the tokens complete a formula in which `depth` parentheses are open. -/
inductive Completes : Place → Nat → List Token → Prop where
  | finish : Completes .behind 0 []
  | number {depth : Nat} {rest : List Token} (value : Float) :
      Completes .behind depth rest → Completes .before depth (.number value :: rest)
  | name {depth : Nat} {rest : List Token} (spelling : String) :
      Completes .behind depth rest → Completes .before depth (.name spelling :: rest)
  | opening {depth : Nat} {rest : List Token} :
      Completes .before (depth + 1) rest → Completes .before depth (.opening :: rest)
  | operator {depth : Nat} {rest : List Token} (op : Operator) :
      Completes .before depth rest → Completes .behind depth (.operator op :: rest)
  | closing {depth : Nat} {rest : List Token} :
      Completes .behind depth rest → Completes .behind (depth + 1) (.closing :: rest)

/-- The first token may stand at the place. -/
def Fitting : Place → List Token → Prop
  | .before, [] => False
  | .before, token :: _ => token.kind.beginsOperand = true
  | .behind, [] => True
  | .behind, token :: _ => token.kind.followsOperand = true

/-! ## Section 2: The check -/

theorem fitting_of_needOperand {token : Token} {rest : List Token} {further : Option SyntaxError}
    (h : needOperand token rest further = none) : Fitting .before rest ∧ further = none := by
  unfold needOperand at h
  split at h
  · cases h
  · next next _ =>
    split at h
    · next hbegins => exact ⟨hbegins, h⟩
    · cases h

theorem fitting_of_needOperator {token : Token} {rest : List Token} {further : Option SyntaxError}
    (h : needOperator token rest further = none) : Fitting .behind rest ∧ further = none := by
  unfold needOperator at h
  split at h
  · exact ⟨trivial, h⟩
  · next next _ =>
    split at h
    · next hfollows => exact ⟨hfollows, h⟩
    · cases h

/-- A sequence in which no place is wrong completes what stands before it. -/
theorem completes_of_placeError? {tokens : List Token} {position opened closed depth : Nat}
    {place : Place} (h : placeError? position opened closed tokens = none)
    (hdepth : opened = closed + depth) (hfits : Fitting place tokens) :
    Completes place depth tokens := by
  -- the two counters of the check differ by the depth, and each token checks the place behind it
  induction tokens generalizing position opened closed depth place with
  | nil =>
    cases place with
    | before => exact absurd hfits id
    | behind =>
      rw [placeError?] at h
      split at h
      · have hzero : depth = 0 := by omega
        subst hzero
        exact .finish
      · cases h
  | cons token rest ih =>
    cases token with
    | number value =>
      obtain ⟨hrest, hfurther⟩ := fitting_of_needOperator h
      cases place with
      | before => exact .number value (ih hfurther hdepth hrest)
      | behind => cases hfits
    | name spelling =>
      obtain ⟨hrest, hfurther⟩ := fitting_of_needOperator h
      cases place with
      | before => exact .name spelling (ih hfurther hdepth hrest)
      | behind => cases hfits
    | operator op =>
      obtain ⟨hrest, hfurther⟩ := fitting_of_needOperand h
      cases place with
      | before => cases hfits
      | behind => exact .operator op (ih hfurther hdepth hrest)
    | opening =>
      obtain ⟨hrest, hfurther⟩ := fitting_of_needOperand h
      cases place with
      | before => exact .opening (ih hfurther (by omega) hrest)
      | behind => cases hfits
    | closing =>
      cases place with
      | before => cases hfits
      | behind =>
        simp only [placeError?, Token.kind] at h
        split at h
        · cases h
        · next hopen =>
          -- a parenthesis is open here, or the check would have failed
          obtain ⟨hrest, hfurther⟩ := fitting_of_needOperator h
          obtain ⟨outer, rfl⟩ : ∃ outer, depth = outer + 1 := ⟨depth - 1, by omega⟩
          exact .closing (ih hfurther (by omega) hrest)
    | stray text => cases place <;> cases hfits

theorem completes_of_structureError?_eq_none {tokens : List Token}
    (h : structureError? tokens = none) : Completes .before 0 tokens := by
  unfold structureError? at h
  split at h
  · next first last hfirst hlast =>
    split at h
    · cases h
    · split at h
      · cases h
      · next hbegins =>
        split at h
        · cases h
        · refine completes_of_placeError? h rfl ?_
          cases tokens with
          | nil => cases hfirst
          | cons token rest =>
            cases hfirst
            simpa [Fitting] using hbegins
  · cases h

/-! ## Section 3: Open parentheses -/

/-- What stands in an open parenthesis before the next factor: an expression with an addition or
    subtraction to perform, and a term with a multiplication or division to perform, if any. -/
structure Frame where
  sum : Option (Phrase .expression × {op : Operator // op = .plus ∨ op = .minus})
  product : Option (Phrase .term × {op : Operator // op = .times ∨ op = .dividedBy})

namespace Frame

def empty : Frame := ⟨none, none⟩

/-- The tokens of the expression and its operator. -/
def sumTokens (frame : Frame) : List Token :=
  match frame.sum with
  | none => []
  | some (left, op) => left.tokens ++ [.operator op.val]

/-- The tokens of the term and its operator. -/
def productTokens (frame : Frame) : List Token :=
  match frame.product with
  | none => []
  | some (left, op) => left.tokens ++ [.operator op.val]

def tokens (frame : Frame) : List Token := frame.sumTokens ++ frame.productTokens

/-- The term that ends with the given factor. -/
def term (frame : Frame) (f : Phrase .factor) : Phrase .term :=
  match frame.product with
  | none => .ofFactor f
  | some (left, op) => .product left op.val op.property f

/-- The expression that ends with the given factor. -/
def expression (frame : Frame) (f : Phrase .factor) : Phrase .expression :=
  match frame.sum with
  | none => .ofTerm (frame.term f)
  | some (left, op) => .sum left op.val op.property (frame.term f)

/-- The frame once an operator has followed the given factor. -/
def operator (frame : Frame) (f : Phrase .factor) (op : Operator) : Frame :=
  match hbinds : op.bindsLoosely with
  | true => ⟨some (frame.expression f, ⟨op, op.bindsLoosely_eq_true_iff.mp hbinds⟩), none⟩
  | false => ⟨frame.sum, some (frame.term f, ⟨op, op.bindsLoosely_eq_false_iff.mp hbinds⟩)⟩

theorem tokens_term (frame : Frame) (f : Phrase .factor) :
    (frame.term f).tokens = frame.productTokens ++ f.tokens := by
  unfold term productTokens
  split <;> simp [Phrase.tokens]

theorem tokens_expression (frame : Frame) (f : Phrase .factor) :
    (frame.expression f).tokens = frame.tokens ++ f.tokens := by
  unfold expression tokens sumTokens
  split <;> simp [Phrase.tokens, tokens_term]

theorem tokens_operator (frame : Frame) (f : Phrase .factor) (op : Operator) :
    (frame.operator f op).tokens = frame.tokens ++ f.tokens ++ [.operator op] := by
  unfold operator
  split
  · show (frame.expression f).tokens ++ [.operator op] ++ [] = _
    rw [List.append_nil, tokens_expression]
  · show frame.sumTokens ++ ((frame.term f).tokens ++ [.operator op]) = _
    rw [tokens_term]
    simp [tokens]

/-- The tokens of the parentheses that are open below, the innermost first. -/
def openTokens : List Frame → List Token
  | [] => []
  | frame :: below => openTokens below ++ frame.tokens ++ [.opening]

end Frame

/-! ## Section 4: The tree -/

/-- What the tokens read so far and those to come add up to: before an operand, frames and tokens;
    behind an operand, frames, a factor and tokens. -/
def BuildsExpression (depth : Nat) (rest : List Token) : Place → Prop
  | .before => ∀ (frame : Frame) (below : List Frame), below.length = depth →
    ∃ p : Phrase .expression, p.tokens = Frame.openTokens below ++ frame.tokens ++ rest
  | .behind => ∀ (frame : Frame) (below : List Frame) (f : Phrase .factor), below.length = depth →
    ∃ p : Phrase .expression,
      p.tokens = Frame.openTokens below ++ frame.tokens ++ f.tokens ++ rest

theorem Completes.buildsExpression {place : Place} {depth : Nat} {rest : List Token}
    (h : Completes place depth rest) : BuildsExpression depth rest place := by
  induction h with
  | finish =>
    intro frame below f hbelow
    obtain rfl := List.eq_nil_of_length_eq_zero hbelow
    exact ⟨frame.expression f, by simp [Frame.openTokens, Frame.tokens_expression]⟩
  | number value _ ih =>
    intro frame below hbelow
    obtain ⟨p, hp⟩ := ih frame below (.number value) hbelow
    exact ⟨p, by simp [hp, Phrase.tokens]⟩
  | name spelling _ ih =>
    intro frame below hbelow
    obtain ⟨p, hp⟩ := ih frame below (.name spelling) hbelow
    exact ⟨p, by simp [hp, Phrase.tokens]⟩
  | opening _ ih =>
    intro frame below hbelow
    -- what stands in the parenthesis gets a frame of its own
    obtain ⟨p, hp⟩ := ih .empty (frame :: below) (by simp [hbelow])
    refine ⟨p, ?_⟩
    rw [hp]
    simp [Frame.openTokens, Frame.empty, Frame.tokens, Frame.sumTokens, Frame.productTokens]
  | operator op _ ih =>
    intro frame below f hbelow
    -- the factor ends the left operand of the operator
    obtain ⟨p, hp⟩ := ih (frame.operator f op) below hbelow
    refine ⟨p, ?_⟩
    rw [hp, Frame.tokens_operator]
    simp
  | closing _ ih =>
    intro frame below f hbelow
    cases below with
    | nil => cases hbelow
    | cons outer below =>
      -- the parenthesis is a factor of the expression around it
      obtain ⟨p, hp⟩ := ih outer below (.parens (frame.expression f)) (by simpa using hbelow)
      refine ⟨p, ?_⟩
      rw [hp]
      simp [Frame.openTokens, Phrase.tokens, Frame.tokens_expression]

/-- What completes a formula from its beginning is an expression. -/
theorem Completes.exists_phrase {tokens : List Token} (h : Completes .before 0 tokens) :
    ∃ p : Phrase .expression, p.tokens = tokens := by
  obtain ⟨p, hp⟩ := h.buildsExpression .empty [] rfl
  refine ⟨p, ?_⟩
  rw [hp]
  rfl

/-- A formula's tokens are those of an expression. -/
theorem Formula.exists_phrase (f : Formula) : ∃ p : Phrase .expression, p.tokens = f.tokens :=
  (completes_of_structureError?_eq_none f.sound).exists_phrase

/-- A formula may fail to have a number, but never because it makes no sense. -/
theorem Formula.cause_ne_malformed {lookup : String → Option Float} (f : Formula) {e : EvalError}
    (h : (calculate lookup f.tokens).result = .error e) : e.cause ≠ .malformed := by
  obtain ⟨p, hp⟩ := f.exists_phrase
  rw [← hp, p.calculate_tokens] at h
  exact p.cause_ne_malformed h

/-- The value of a formula is a number, or says what the formula failed with. -/
theorem Formula.value_cases (lookup : String → Option Float) (f : Formula) :
    (∃ x, f.value lookup = .number x)
      ∨ ∃ e, f.value lookup = .error e ∧ e.cause ≠ .malformed := by
  unfold Formula.value
  cases hresult : (calculate lookup f.tokens).result with
  | ok x => exact Or.inl ⟨x, rfl⟩
  | error e => exact Or.inr ⟨e, rfl, f.cause_ne_malformed hresult⟩

end Worksheet
