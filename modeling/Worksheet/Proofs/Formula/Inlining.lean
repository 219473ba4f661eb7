import Mathlib.Control.Monad.Basic
import Mathlib.Logic.Function.Basic
import Worksheet.Proofs.Formula.Grammar

/-! # A formula in place of a name

    In parentheses a formula may stand wherever a name may. If it has a number, it makes no
    difference whether the formula stands there or the name under which the number is found,
    whatever waits around it and however often it occurs: the same operations are performed, and
    where the name would be asked for the formula asks for its own names.

    - `Phrase.tokens_inline`: in the tree and in its tokens the same is replaced.
    - `Phrase.evaluate_inline`: the tree means the same.
    - `Formula.inline_keeps_result`: so the tokens give the same number or the same error.
-/

namespace Worksheet

/-! ## Section 1: Replacing a name -/

/-- The tokens with `inner` in parentheses in place of each occurrence of the name. -/
def Token.inline (name : String) (inner : List Token) (tokens : List Token) : List Token :=
  tokens.flatMap fun token =>
    if token = .name name then .opening :: inner ++ [.closing] else [token]

namespace Token

variable {name : String} {inner : List Token}

theorem inline_append (before behind : List Token) :
    inline name inner (before ++ behind) = inline name inner before ++ inline name inner behind :=
  List.flatMap_append

theorem inline_cons_of_ne {token : Token} (h : token ≠ .name name) (rest : List Token) :
    inline name inner (token :: rest) = token :: inline name inner rest := by
  rw [inline, List.flatMap_cons, if_neg h]
  rfl

end Token

namespace Phrase

variable {name : String} {inner : Phrase .expression}

/-- The phrase with an expression in parentheses in place of each occurrence of the name. -/
def inline {level : Level} (p : Phrase level) (name : String) (inner : Phrase .expression) :
    Phrase level :=
  match p with
  | .number value => .number value
  | .name spelling => if spelling = name then .parens inner else .name spelling
  | .parens body => .parens (body.inline name inner)
  | .ofFactor only => .ofFactor (only.inline name inner)
  | .product left op tight right =>
    .product (left.inline name inner) op tight (right.inline name inner)
  | .ofTerm only => .ofTerm (only.inline name inner)
  | .sum left op loose right => .sum (left.inline name inner) op loose (right.inline name inner)

/-- The tokens of the phrase are those with the tokens of the expression put in. -/
theorem tokens_inline {level : Level} (p : Phrase level) :
    (p.inline name inner).tokens = Token.inline name inner.tokens p.tokens := by
  -- operators and parentheses stay where they are
  have hoperator (op : Operator) (before behind : List Token) :
      Token.inline name inner.tokens (before ++ .operator op :: behind)
        = Token.inline name inner.tokens before
          ++ .operator op :: Token.inline name inner.tokens behind := by
    have hne : Token.operator op ≠ .name name := nofun
    rw [Token.inline_append, Token.inline_cons_of_ne hne]
  have hparens (body : List Token) :
      Token.inline name inner.tokens (.opening :: body ++ [.closing])
        = .opening :: Token.inline name inner.tokens body ++ [.closing] := by
    have hopening : Token.opening ≠ .name name := nofun
    have hclosing : Token.closing ≠ .name name := nofun
    rw [Token.inline_append, Token.inline_cons_of_ne hopening, Token.inline_cons_of_ne hclosing]
    rfl
  induction p with
  | number x => rfl
  | name spelling =>
    by_cases h : spelling = name
    · subst h
      simp [inline, tokens, Token.inline]
    · simp [inline, tokens, Token.inline, h]
  | parens body ih => rw [inline, tokens, tokens, hparens, ih]
  | ofFactor only ih => exact ih
  | product left op tight right ihleft ihright =>
    rw [inline, tokens, tokens, hoperator, ihleft, ihright]
  | ofTerm only ih => exact ih
  | sum left op loose right ihleft ihright =>
    rw [inline, tokens, tokens, hoperator, ihleft, ihright]

end Phrase

/-! ## Section 2: Asking for other names -/

namespace Run

/-- The run in which each name is asked for by asking for other names. -/
def askInstead (names : String → List String) (run : Run) : Run :=
  { run with asked := run.asked.flatMap names }

theorem askInstead_andThen (names : String → List String) (first : Run) (next : Float → Run) :
    (first.andThen next).askInstead names
      = (first.askInstead names).andThen fun x => (next x).askInstead names := by
  obtain ⟨result, asked⟩ := first
  cases result with
  | error e => rfl
  | ok x => simp [askInstead, andThen]

end Run

namespace Phrase

variable {name : String} {inner : Phrase .expression} {lookup : String → Option Float} {x : Float}

/-- With an expression in place of a name a phrase means what it meant when the number of the
    expression is found under the name, but asks for the names of the expression instead. -/
theorem evaluate_inline (hinner : (inner.evaluate lookup).result = .ok x) {level : Level}
    (p : Phrase level) :
    (p.inline name inner).evaluate lookup
      = (p.evaluate (Function.update lookup name (some x))).askInstead fun asked =>
          if asked = name then (inner.evaluate lookup).asked else [asked] := by
  -- an operator has the same operands before it and behind it
  have hoperator {left left' right right' : Run} (op : Operator) {names : String → List String}
      (hleft : left = left'.askInstead names) (hright : right = right'.askInstead names) :
      (left.andThen fun a => right.andThen fun b => ⟨op.perform a b, []⟩)
        = (left'.andThen fun a => right'.andThen fun b => ⟨op.perform a b, []⟩).askInstead
          names := by
    rw [hleft, hright, Run.askInstead_andThen]
    refine congrArg _ (funext fun a => ?_)
    rw [Run.askInstead_andThen]
    rfl
  induction p with
  | number y => rfl
  | name spelling =>
    by_cases h : spelling = name
    · -- here the expression is evaluated, and there its number is found
      subst h
      rw [inline, if_pos rfl]
      show inner.evaluate lookup = _
      generalize inner.evaluate lookup = run at hinner ⊢
      obtain ⟨result, asked⟩ := run
      obtain rfl : result = .ok x := hinner
      simp [evaluate, Run.askInstead]
    · rw [inline, if_neg h, evaluate, evaluate, Function.update_of_ne h]
      cases lookup spelling <;> simp [Run.askInstead, h]
  | parens body ih => exact ih
  | ofFactor only ih => exact ih
  | product left op tight right ihleft ihright => exact hoperator op ihleft ihright
  | ofTerm only ih => exact ih
  | sum left op loose right ihleft ihright => exact hoperator op ihleft ihright

end Phrase

/-! ## Section 3: Formulas -/

namespace Formula

variable {lookup : String → Option Float} {x : Float}

/-- Put in parentheses in place of each occurrence of a name, a formula leaves the structure sound.
    When the formula has a number, the result is the number or the error that there is when this
    number is found under the name; and the names asked for are the same, but for the name in whose
    place the formula asks for its own. -/
theorem inline_keeps_result (f g : Formula) (name : String)
    (h : (calculate lookup g.tokens).result = .ok x) :
    structureError? (Token.inline name g.tokens f.tokens) = none
    ∧ (calculate lookup (Token.inline name g.tokens f.tokens)).result
      = (calculate (Function.update lookup name (some x)) f.tokens).result
    ∧ (calculate lookup (Token.inline name g.tokens f.tokens)).asked
      = (calculate (Function.update lookup name (some x)) f.tokens).asked.flatMap fun asked =>
          if asked = name then (calculate lookup g.tokens).asked else [asked] := by
  obtain ⟨p, hp⟩ := f.exists_phrase
  obtain ⟨inner, hinner⟩ := g.exists_phrase
  rw [← hinner, inner.calculate_tokens] at h
  have hrun : (p.inline name inner).evaluate lookup = _ := Phrase.evaluate_inline h p
  rw [← hp, ← hinner, ← Phrase.tokens_inline]
  simp only [Phrase.calculate_tokens, hrun]
  exact ⟨(structureError?_eq_none_iff _).mpr ⟨_, rfl⟩, rfl, rfl⟩

/-- What waits on the stacks when the parenthesis opens: in `18/x-x*x`, with `y-1` in place of `x`,
    a division, then nothing, and then a multiplication on a subtraction. -/
theorem squares_inline_keeps_result :
    structureError? (Token.inline "x" [.name "y", .operator .minus, .number 1]
        [.number 18, .operator .dividedBy, .name "x", .operator .minus, .name "x",
          .operator .times, .name "x"]) = none
      ∧ (calculate (fun name => if name = "y" then some 3 else none)
        (Token.inline "x" [.name "y", .operator .minus, .number 1]
          [.number 18, .operator .dividedBy, .name "x", .operator .minus, .name "x",
            .operator .times, .name "x"])).result = .ok 5 := by
  have hinner : (calculate (fun name => if name = "y" then some 3 else none)
      [.name "y", .operator .minus, .number 1]).result = .ok 2 := by
    decide +kernel
  obtain ⟨hsound, hresult, -⟩ := inline_keeps_result
    ⟨[.number 18, .operator .dividedBy, .name "x", .operator .minus, .name "x", .operator .times,
      .name "x"], rfl⟩ ⟨[.name "y", .operator .minus, .number 1], rfl⟩ "x" hinner
  refine ⟨hsound, hresult.trans ?_⟩
  decide +kernel

end Formula

end Worksheet
