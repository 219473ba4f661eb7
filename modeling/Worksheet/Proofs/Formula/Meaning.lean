import Worksheet.Proofs.Formula.Parsing

/-! # The meaning of a formula

    The tokens of a formula are those of one parse tree only, and the machine with two stacks
    computes the meaning of this tree: the same result, by the same operations, and the same
    names asked for in the same order.

    - `Phrase.tokens_cancel`: phrases with the same tokens are the same, also within a sequence.
    - `Phrase.asks_evaluate`: which names are asked for, and when all of them are.
    - `Formula.exists_meaning`: the tree of a formula and what the machine makes of it.
-/

namespace Worksheet

namespace Phrase

variable {lookup : String → Option Float}

/-! ## Section 1: One tree -/

/-- What stands before a phrase does not reach into it: no multiplication or division stands
    before a term, and no operator before an expression. -/
def Separates (before : List Token) : Level → Prop
  | .factor => True
  | .term => ∀ op earlier, before = earlier ++ [.operator op] → op = .plus ∨ op = .minus
  | .expression => ∀ op earlier, before ≠ earlier ++ [.operator op]

/-- An operator and what it follows may stand before its right operand. -/
theorem separates_operator (before : List Token) {op : Operator}
    (loose : op = .plus ∨ op = .minus) :
    Separates (before ++ [.operator op]) .term := by
  intro op' earlier heq
  obtain ⟨-, hop⟩ := List.append_singleton_inj.mp heq
  cases hop
  exact loose

/-- What stands behind a multiplication or division is a factor, and no term. -/
theorem not_separates_operator (before : List Token) {op : Operator}
    (tight : op = .times ∨ op = .dividedBy) : ¬Separates (before ++ [.operator op]) .term := by
  intro h
  have hloose := h op before rfl
  rcases tight with rfl | rfl <;> revert hloose <;> decide

theorem Separates.term_of_expression {before : List Token} (h : Separates before .expression) :
    Separates before .term :=
  fun op earlier heq => absurd heq (h op earlier)

theorem append_tokens_parens (before : List Token) (inner : Phrase .expression) :
    before ++ (parens inner).tokens = before ++ [.opening] ++ inner.tokens ++ [.closing] := by
  simp [tokens]

theorem append_tokens_product (before : List Token) (left : Phrase .term) (op : Operator)
    (tight : op = .times ∨ op = .dividedBy) (right : Phrase .factor) :
    before ++ (product left op tight right).tokens
      = before ++ left.tokens ++ [.operator op] ++ right.tokens := by
  simp [tokens]

theorem append_tokens_sum (before : List Token) (left : Phrase .expression) (op : Operator)
    (loose : op = .plus ∨ op = .minus) (right : Phrase .term) :
    before ++ (sum left op loose right).tokens
      = before ++ left.tokens ++ [.operator op] ++ right.tokens := by
  simp [tokens]

/-- Phrases that end two equal sequences are the same, and so is what stands before them. -/
theorem tokens_cancel {level : Level} (p q : Phrase level) {before before' : List Token}
    (h : Separates before level) (h' : Separates before' level)
    (heq : before ++ p.tokens = before' ++ q.tokens) : p = q ∧ before = before' := by
  -- on the tree, from its right end: the right operand is cancelled first, then the operator, and
  -- then the left operand, before which the same tokens stand as before the whole
  induction p generalizing before before' with
  | number x =>
    cases q with
    | number y =>
      obtain ⟨hbefore, htoken⟩ := List.append_singleton_inj.mp heq
      cases htoken
      exact ⟨rfl, hbefore⟩
    | name spelling => cases (List.append_singleton_inj.mp heq).2
    | parens inner =>
      rw [append_tokens_parens] at heq
      cases (List.append_singleton_inj.mp heq).2
  | name spelling =>
    cases q with
    | number y => cases (List.append_singleton_inj.mp heq).2
    | name spelling' =>
      obtain ⟨hbefore, htoken⟩ := List.append_singleton_inj.mp heq
      cases htoken
      exact ⟨rfl, hbefore⟩
    | parens inner =>
      rw [append_tokens_parens] at heq
      cases (List.append_singleton_inj.mp heq).2
  | parens inner ih =>
    rw [append_tokens_parens] at heq
    cases q with
    | number y => cases (List.append_singleton_inj.mp heq).2
    | name spelling => cases (List.append_singleton_inj.mp heq).2
    | parens inner' =>
      rw [append_tokens_parens] at heq
      have hopening (earlier : List Token) : Separates (earlier ++ [.opening]) .expression := by
        intro op other hop
        cases (List.append_singleton_inj.mp hop).2
      have hcut := (List.append_singleton_inj.mp heq).1
      obtain ⟨rfl, hbefore⟩ := ih inner' (hopening before) (hopening before') hcut
      exact ⟨rfl, (List.append_singleton_inj.mp hbefore).1⟩
  | ofFactor only ih =>
    cases q with
    | ofFactor only' =>
      obtain ⟨rfl, hbefore⟩ := ih only' trivial trivial heq
      exact ⟨rfl, hbefore⟩
    | product left op tight right =>
      rw [append_tokens_product] at heq
      obtain ⟨-, rfl⟩ := ih right trivial trivial heq
      exact absurd h (not_separates_operator _ tight)
  | product left op tight right ihleft ihright =>
    rw [append_tokens_product] at heq
    cases q with
    | ofFactor only =>
      obtain ⟨-, rfl⟩ := ihright only trivial trivial heq
      exact absurd h' (not_separates_operator _ tight)
    | product left' op' tight' right' =>
      rw [append_tokens_product] at heq
      obtain ⟨rfl, hop⟩ := ihright right' trivial trivial heq
      obtain ⟨hleft, hsame⟩ := List.append_singleton_inj.mp hop
      cases hsame
      obtain ⟨rfl, hbefore⟩ := ihleft left' h h' hleft
      exact ⟨rfl, hbefore⟩
  | ofTerm only ih =>
    cases q with
    | ofTerm only' =>
      obtain ⟨rfl, hbefore⟩ := ih only' h.term_of_expression h'.term_of_expression heq
      exact ⟨rfl, hbefore⟩
    | sum left op loose right =>
      rw [append_tokens_sum] at heq
      obtain ⟨-, hbefore⟩ := ih right h.term_of_expression (separates_operator _ loose) heq
      exact absurd hbefore (h op _)
  | sum left op loose right ihleft ihright =>
    rw [append_tokens_sum] at heq
    cases q with
    | ofTerm only =>
      obtain ⟨-, hbefore⟩ := ihright only (separates_operator _ loose) h'.term_of_expression heq
      exact absurd hbefore.symm (h' op _)
    | sum left' op' loose' right' =>
      rw [append_tokens_sum] at heq
      obtain ⟨rfl, hop⟩ :=
        ihright right' (separates_operator _ loose) (separates_operator _ loose') heq
      obtain ⟨hleft, hsame⟩ := List.append_singleton_inj.mp hop
      cases hsame
      obtain ⟨rfl, hbefore⟩ := ihleft left' h h' hleft
      exact ⟨rfl, hbefore⟩

/-- No two expressions have the same tokens. -/
theorem tokens_injective {p q : Phrase .expression} (h : p.tokens = q.tokens) : p = q := by
  have hseparates : Separates [] .expression := by
    intro op earlier heq
    simp at heq
  exact (tokens_cancel p q hseparates hseparates (by simpa using h)).1

end Phrase

/-! ## Section 2: Names asked for -/

/-- The run asks for a beginning of the given names, and for all of them if it has a value. -/
def Run.Asks (run : Run) (names : List String) : Prop :=
  run.asked <+: names ∧ ∀ x, run.result = .ok x → run.asked = names

namespace Run.Asks

theorem of_eq {run : Run} {names : List String} (h : run.asked = names) : run.Asks names :=
  ⟨h ▸ List.prefix_refl _, fun _ _ => h⟩

/-- A run that goes on asks for the later names last. -/
theorem andThen {first : Run} {next : Float → Run} {names later : List String}
    (hfirst : first.Asks names) (hnext : ∀ x, (next x).Asks later) :
    (first.andThen next).Asks (names ++ later) := by
  obtain ⟨result, asked⟩ := first
  cases result with
  | error e => exact ⟨hfirst.1.trans (List.prefix_append _ _), nofun⟩
  | ok x =>
    obtain rfl : asked = names := hfirst.2 x rfl
    refine ⟨(List.prefix_append_right_inj _).mpr (hnext x).1, ?_⟩
    intro y hy
    exact congrArg _ ((hnext x).2 y hy)

end Run.Asks

namespace Phrase

variable {lookup : String → Option Float}

/-- A phrase asks for the names that it mentions, from left to right. -/
theorem asks_evaluate {level : Level} (p : Phrase level) :
    (p.evaluate lookup).Asks (p.tokens.filterMap Token.name?) := by
  have hoperator {left right : Run} {op : Operator} {before behind : List Token}
      (hleft : left.Asks (before.filterMap Token.name?))
      (hright : right.Asks (behind.filterMap Token.name?)) :
      (left.andThen fun a => right.andThen fun b => ⟨op.perform a b, []⟩).Asks
        ((before ++ .operator op :: behind).filterMap Token.name?) := by
    have hperform (a b : Float) : (Run.mk (op.perform a b) []).Asks [] := .of_eq rfl
    have hasks := hleft.andThen fun a => hright.andThen (hperform a)
    simpa [List.filterMap_append, List.filterMap_cons, Token.name?] using hasks
  induction p with
  | number x => exact .of_eq rfl
  | name spelling =>
    refine .of_eq ?_
    rw [evaluate]
    split <;> rfl
  | parens inner ih => simpa [tokens, evaluate, List.filterMap_cons, Token.name?] using ih
  | ofFactor only ih => exact ih
  | product left op tight right ihleft ihright => exact hoperator ihleft ihright
  | ofTerm only ih => exact ih
  | sum left op loose right ihleft ihright => exact hoperator ihleft ihright

end Phrase

/-! ## Section 3: The meaning -/

/-- A formula has one parse tree. The machine with two stacks gives it the meaning of this tree,
    which is a number, or a division by zero, or the first name without a number, but never
    malformed. With a number, each name in the formula was asked for as often as it occurs, from
    left to right. -/
theorem Formula.exists_meaning (f : Formula) :
    ∃ p : Phrase .expression, p.tokens = f.tokens
      ∧ (∀ q : Phrase .expression, q.tokens = f.tokens → q = p)
      ∧ ∀ lookup : String → Option Float,
        calculate lookup f.tokens = p.evaluate lookup
        ∧ (∀ e, (calculate lookup f.tokens).result = .error e → e.cause ≠ .malformed
            ∧ (e = .divisionByZero
              ∨ ∃ name, .name name ∈ f.tokens ∧ lookup name = none ∧ e = .unresolved name))
        ∧ (calculate lookup f.tokens).asked <+: f.tokens.filterMap Token.name?
        ∧ ∀ x, (calculate lookup f.tokens).result = .ok x →
            (calculate lookup f.tokens).asked = f.tokens.filterMap Token.name? := by
  obtain ⟨p, hp⟩ := f.exists_phrase
  refine ⟨p, hp, fun q hq => Phrase.tokens_injective (hq.trans hp.symm), ?_⟩
  intro lookup
  rw [← hp, p.calculate_tokens]
  exact ⟨rfl, fun e he => ⟨p.cause_ne_malformed he, p.mayFail_of_error he⟩, p.asks_evaluate⟩

end Worksheet
