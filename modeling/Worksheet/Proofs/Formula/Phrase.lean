import Worksheet.Formula.Evaluation

/-! # The grammar of formulas and what a formula means

    An expression is a sequence of terms joined by additions and subtractions, a term a sequence
    of factors joined by multiplications and divisions, and a factor a number, a name or an
    expression in parentheses. Operators associate to the left. A `Phrase` is a parse tree of this
    grammar; its meaning is computed by recursion, operands from left to right. The grammar names
    the operators of each level itself, and what waits on the stacks of the machine has no part in
    it.

    The machine with two stacks computes the meaning of a phrase, also in the middle of other work:

    - `Machine.run_tokens`: running through the tokens of a phrase is taking in its value.
    - `Phrase.calculate_tokens`: the machine gives an expression its meaning.
    - `Phrase.mayFail_of_error`: what a phrase may fail with.
-/

namespace Worksheet

/-! ## Section 1: Parse trees -/

/-- How tightly a phrase holds together. -/
inductive Level where
  | factor
  | term
  | expression
  deriving DecidableEq, Repr

/-- A parse tree. -/
inductive Phrase : Level → Type where
  | number (value : Float) : Phrase .factor
  | name (spelling : String) : Phrase .factor
  | parens (inner : Phrase .expression) : Phrase .factor
  | ofFactor (only : Phrase .factor) : Phrase .term
  | product (left : Phrase .term) (op : Operator) (tight : op = .times ∨ op = .dividedBy)
      (right : Phrase .factor) : Phrase .term
  | ofTerm (only : Phrase .term) : Phrase .expression
  | sum (left : Phrase .expression) (op : Operator) (loose : op = .plus ∨ op = .minus)
      (right : Phrase .term) : Phrase .expression

/-- The tokens at the leaves, from left to right. -/
def Phrase.tokens {level : Level} : Phrase level → List Token
  | .number value => [.number value]
  | .name spelling => [.name spelling]
  | .parens inner => .opening :: inner.tokens ++ [.closing]
  | .ofFactor only => only.tokens
  | .product left op _ right => left.tokens ++ .operator op :: right.tokens
  | .ofTerm only => only.tokens
  | .sum left op _ right => left.tokens ++ .operator op :: right.tokens

namespace Phrase

theorem tokens_parens_append (inner : Phrase .expression) (rest : List Token) :
    (parens inner).tokens ++ rest = .opening :: (inner.tokens ++ .closing :: rest) := by
  simp [tokens]

theorem tokens_product_append (left : Phrase .term) (op : Operator)
    (tight : op = .times ∨ op = .dividedBy) (right : Phrase .factor) (rest : List Token) :
    (product left op tight right).tokens ++ rest
      = left.tokens ++ .operator op :: (right.tokens ++ rest) := by
  simp [tokens]

theorem tokens_sum_append (left : Phrase .expression) (op : Operator)
    (loose : op = .plus ∨ op = .minus) (right : Phrase .term) (rest : List Token) :
    (sum left op loose right).tokens ++ rest
      = left.tokens ++ .operator op :: (right.tokens ++ rest) := by
  simp [tokens]

end Phrase

/-! ## Section 2: Meaning -/

namespace Run

/-- A run that has a value and asked for nothing. -/
def value (x : Float) : Run := ⟨.ok x, []⟩

/-- A run that goes on with the value of another one, unless that one failed. -/
def andThen (first : Run) (next : Float → Run) : Run :=
  match first.result with
  | .error e => ⟨.error e, first.asked⟩
  | .ok x => ⟨(next x).result, first.asked ++ (next x).asked⟩

@[simp] theorem andThen_value (first : Run) : first.andThen value = first := by
  obtain ⟨result, asked⟩ := first
  cases result <;> simp [andThen, value]

theorem andThen_assoc (first : Run) (second third : Float → Run) :
    (first.andThen second).andThen third = first.andThen fun x => (second x).andThen third := by
  obtain ⟨result, asked⟩ := first
  cases result with
  | error e => rfl
  | ok x =>
    simp only [andThen]
    cases (second x).result <;> simp

end Run

/-- What a phrase means under a lookup, with the names that are asked for. -/
def Phrase.evaluate (lookup : String → Option Float) {level : Level} : Phrase level → Run
  | .number value => .value value
  | .name spelling =>
    match lookup spelling with
    | some value => ⟨.ok value, [spelling]⟩
    | none => ⟨.error (.unresolved spelling), [spelling]⟩
  | .parens inner => inner.evaluate lookup
  | .ofFactor only => only.evaluate lookup
  | .product left op _ right =>
    (left.evaluate lookup).andThen fun a =>
      (right.evaluate lookup).andThen fun b => ⟨op.perform a b, []⟩
  | .ofTerm only => only.evaluate lookup
  | .sum left op _ right =>
    (left.evaluate lookup).andThen fun a =>
      (right.evaluate lookup).andThen fun b => ⟨op.perform a b, []⟩

/-! ## Section 3: The machine, token by token -/

namespace Machine

variable {lookup : String → Option Float}

/-- Goes on with the tokens from a state, unless there is an error in its place. -/
def resume (lookup : String → Option Float) (m : Except EvalError Machine)
    (rest : List Token) : Run :=
  match m with
  | .error e => ⟨.error e, []⟩
  | .ok m => m.run lookup rest

theorem run_number (m : Machine) (x : Float) (rest : List Token) :
    m.run lookup (.number x :: rest) = resume lookup (m.operand x) rest := by
  rw [run, step]
  cases m.operand x <;> rfl

theorem run_name (m : Machine) (spelling : String) (rest : List Token) :
    m.run lookup (.name spelling :: rest)
      = ((Phrase.name spelling).evaluate lookup).andThen fun x =>
        resume lookup (m.operand x) rest := by
  rw [run, step, Phrase.evaluate]
  cases lookup spelling with
  | none => rfl
  | some x =>
    show _ = Run.andThen ⟨.ok x, [spelling]⟩ _
    simp only [Run.andThen]
    cases m.operand x <;> rfl

theorem run_operator (m : Machine) (op : Operator) (rest : List Token) :
    m.run lookup (.operator op :: rest) = resume lookup (m.operator op) rest := by
  rw [run, step]
  cases m.operator op <;> rfl

theorem run_opening (m : Machine) (rest : List Token) :
    m.run lookup (.opening :: rest) = (m.wait .opening).run lookup rest := rfl

theorem run_closing (m : Machine) (rest : List Token) :
    m.run lookup (.closing :: rest) = resume lookup m.close rest := by
  rw [run, step]
  cases m.close <;> rfl

/-! ## Section 4: The machine, phrase by phrase -/

/-- No multiplication or division waits on top. -/
def NoneTight (m : Machine) : Prop :=
  ∀ op waiting, m.waiting = .operator op :: waiting → op.bindsLoosely = true

/-- No operator waits on top. -/
def NoneWaiting (m : Machine) : Prop :=
  ∀ op waiting, m.waiting ≠ .operator op :: waiting

/-- What may follow an expression: the end, a closing parenthesis, or a further term. -/
inductive Ending : List Token → Prop where
  | finish : Ending []
  | closing (rest : List Token) : Ending (.closing :: rest)
  | operator (op : Operator) (loose : op.bindsLoosely = true) (rest : List Token) :
      Ending (.operator op :: rest)

/-- When a phrase may be run through: a term is not the right operand of a multiplication or
    division, and an expression is no operand at all. -/
def Admits (m : Machine) (rest : List Token) : Level → Prop
  | .factor => True
  | .term => m.NoneTight
  | .expression => m.NoneWaiting ∧ Ending rest

/-- The state with one more number on its stack. -/
def push (m : Machine) (x : Float) : Machine := { m with values := x :: m.values }

theorem NoneWaiting.noneTight {m : Machine} (h : m.NoneWaiting) : m.NoneTight :=
  fun op waiting hop => absurd hop (h op waiting)

theorem NoneTight.operand_eq {m : Machine} (h : m.NoneTight) (x : Float) :
    m.operand x = .ok (m.push x) := by
  unfold operand performTight
  split
  · next op waiting hop =>
    rw [if_pos (h op waiting hop)]
    rfl
  · rfl

theorem NoneWaiting.performLoose_push {m : Machine} (h : m.NoneWaiting) (x : Float) :
    (m.push x).performLoose = .ok (m.push x) := by
  unfold performLoose
  split
  · next op waiting hop => exact absurd hop (h op waiting)
  · rfl

/-- A waiting multiplication or division is performed with the operand. -/
theorem operand_tight (values : List Float) (waiting : List Waiting) {op : Operator}
    (tight : op.bindsLoosely = false) (a b : Float) :
    operand b ⟨a :: values, .operator op :: waiting⟩
      = (op.perform a b).map fun x => ⟨x :: values, waiting⟩ := by
  simp [operand, performTight, performTop, tight]

/-- A waiting addition or subtraction may as well be performed before the ending. -/
theorem run_loose {m : Machine} (hm : m.NoneWaiting) {op : Operator}
    (loose : op.bindsLoosely = true) (a b : Float) {rest : List Token} (hrest : Ending rest) :
    run lookup ⟨b :: a :: m.values, .operator op :: m.waiting⟩ rest
      = resume lookup ((op.perform a b).map m.push) rest := by
  have hperform : performLoose ⟨b :: a :: m.values, .operator op :: m.waiting⟩
      = (op.perform a b).map m.push := by
    simp only [performLoose, performTop, if_pos loose]
    rfl
  have hidle := hm.performLoose_push
  -- each ending would perform the operator itself, and finds nothing more to perform afterwards
  cases hrest with
  | finish =>
    cases hresult : op.perform a b with
    | error e =>
      -- additions and subtractions do not fail
      exfalso
      cases op <;> simp [Operator.perform, Operator.bindsLoosely] at hresult loose
    | ok x =>
      obtain ⟨values, waiting⟩ := m
      show Run.mk (finish _) [] = Run.mk (finish _) []
      congr 1
      cases waiting with
      | nil => cases values <;> simp [finish, push, loose, hresult]
      | cons item waiting =>
        cases item with
        | operator op' => exact absurd rfl (hm op' waiting)
        | opening => cases values <;> simp [finish, push]
  | closing rest =>
    rw [run_closing, close, hperform]
    cases op.perform a b with
    | error e => rfl
    | ok x =>
      show _ = run lookup (m.push x) (.closing :: rest)
      rw [run_closing, close, hidle]
      rfl
  | operator next hnext rest =>
    rw [run_operator, operator, if_pos hnext, hperform]
    cases op.perform a b with
    | error e => rfl
    | ok x =>
      show _ = run lookup (m.push x) (.operator next :: rest)
      rw [run_operator, operator, if_pos hnext, hidle]
      rfl

/-- To run through the tokens of a phrase is to take in its value. -/
theorem run_tokens {level : Level} (p : Phrase level) {m : Machine} {rest : List Token}
    (h : m.Admits rest level) :
    m.run lookup (p.tokens ++ rest)
      = (p.evaluate lookup).andThen fun x => resume lookup (m.operand x) rest := by
  -- on the tree: a part runs in the state that the parts before it leave, which admits it
  induction p generalizing m rest with
  | number x => exact run_number m x rest
  | name spelling => exact run_name m spelling rest
  | parens inner ih =>
    have hinner : (m.wait .opening).Admits (.closing :: rest) .expression :=
      ⟨by simp [NoneWaiting, wait], .closing rest⟩
    rw [Phrase.tokens_parens_append, run_opening, ih hinner, Phrase.evaluate]
    refine congrArg _ (funext fun x => ?_)
    -- behind the closing parenthesis the value is an operand of what waited before
    rw [hinner.1.noneTight.operand_eq]
    show run lookup ((m.wait .opening).push x) (.closing :: rest) = _
    rw [run_closing, close, hinner.1.performLoose_push]
    rfl
  | ofFactor only ih => exact ih trivial
  | product left op tight right ihleft ihright =>
    have hleft : m.Admits (.operator op :: (right.tokens ++ rest)) .term := h
    have hbinds : op.bindsLoosely = false := op.bindsLoosely_eq_false_iff.mpr tight
    rw [Phrase.tokens_product_append, ihleft hleft, Phrase.evaluate, Run.andThen_assoc]
    refine congrArg _ (funext fun a => ?_)
    rw [hleft.operand_eq]
    show run lookup (m.push a) (.operator op :: (right.tokens ++ rest)) = _
    rw [run_operator, operator, if_neg (by simp [hbinds])]
    -- the operator waits on top, and is performed as soon as the right factor is there
    show run lookup ⟨a :: m.values, .operator op :: m.waiting⟩ (right.tokens ++ rest) = _
    rw [ihright trivial, Run.andThen_assoc]
    refine congrArg _ (funext fun b => ?_)
    rw [operand_tight _ _ hbinds]
    cases op.perform a b with
    | error e => rfl
    | ok x =>
      show _ = resume lookup (m.operand x) rest
      rw [hleft.operand_eq]
      rfl
  | ofTerm only ih => exact ih h.1.noneTight
  | sum left op loose right ihleft ihright =>
    have hbinds : op.bindsLoosely = true := op.bindsLoosely_eq_true_iff.mpr loose
    have hleft : m.Admits (.operator op :: (right.tokens ++ rest)) .expression :=
      ⟨h.1, .operator op hbinds _⟩
    rw [Phrase.tokens_sum_append, ihleft hleft, Phrase.evaluate, Run.andThen_assoc]
    refine congrArg _ (funext fun a => ?_)
    rw [h.1.noneTight.operand_eq]
    show run lookup (m.push a) (.operator op :: (right.tokens ++ rest)) = _
    -- nothing waits when the operator comes; it then waits below the whole right term
    rw [run_operator, operator, if_pos hbinds, h.1.performLoose_push]
    show run lookup ⟨a :: m.values, .operator op :: m.waiting⟩ (right.tokens ++ rest) = _
    have hright : Admits ⟨a :: m.values, .operator op :: m.waiting⟩ rest .term := by
      intro op' waiting hop
      cases hop
      exact hbinds
    rw [ihright hright, Run.andThen_assoc]
    refine congrArg _ (funext fun b => ?_)
    rw [hright.operand_eq]
    show run lookup ⟨b :: a :: m.values, .operator op :: m.waiting⟩ rest = _
    rw [run_loose h.1 hbinds a b h.2]
    cases op.perform a b with
    | error e => rfl
    | ok x =>
      show _ = resume lookup (m.operand x) rest
      rw [h.1.noneTight.operand_eq]
      rfl

end Machine

/-! ## Section 5: Whole formulas -/

namespace Phrase

variable {lookup : String → Option Float}

/-- The machine gives an expression its meaning, and asks for the same names. -/
theorem calculate_tokens (p : Phrase .expression) :
    calculate lookup p.tokens = p.evaluate lookup := by
  have hstart : Machine.start.Admits [] .expression :=
    ⟨by simp [Machine.NoneWaiting, Machine.start], .finish⟩
  have hrun : Machine.start.run lookup (p.tokens ++ []) = _ := Machine.run_tokens p hstart
  rw [List.append_nil] at hrun
  rw [calculate, hrun]
  exact Run.andThen_value _

/-- What an operator may fail with. -/
theorem perform_error {op : Operator} {a b : Float} {e : EvalError}
    (h : op.perform a b = .error e) : e = .divisionByZero := by
  cases op with
  | dividedBy =>
    rw [Operator.perform] at h
    split at h
    · cases h
      rfl
    · cases h
  | _ => cases h

theorem andThen_error {first : Run} {next : Float → Run} {e : EvalError}
    (h : (first.andThen next).result = .error e) :
    first.result = .error e ∨ ∃ x, (next x).result = .error e := by
  obtain ⟨result, asked⟩ := first
  cases result with
  | error e' => exact Or.inl h
  | ok x => exact Or.inr ⟨x, h⟩

/-- What tokens may fail with: a division by zero, or a name among them that has no number. -/
def MayFail (lookup : String → Option Float) (tokens : List Token) (e : EvalError) : Prop :=
  e = .divisionByZero ∨ ∃ name, .name name ∈ tokens ∧ lookup name = none ∧ e = .unresolved name

theorem MayFail.mono {tokens more : List Token} {e : EvalError} (h : MayFail lookup tokens e)
    (hsub : tokens ⊆ more) : MayFail lookup more e := by
  rcases h with hzero | ⟨name, hname, hnone, heq⟩
  · exact Or.inl hzero
  · exact Or.inr ⟨name, hsub hname, hnone, heq⟩

/-- A phrase fails only with what its tokens may fail with. -/
theorem mayFail_of_error {level : Level} (p : Phrase level) {e : EvalError}
    (h : (p.evaluate lookup).result = .error e) : MayFail lookup p.tokens e := by
  -- an operator fails with one of its operands, or else divides by zero
  have hoperator {left right : Run} {op : Operator} {before behind : List Token}
      (hleft : left.result = .error e → MayFail lookup before e)
      (hright : right.result = .error e → MayFail lookup behind e)
      (hresult : (left.andThen fun a => right.andThen fun b => ⟨op.perform a b, []⟩).result
        = .error e) : MayFail lookup (before ++ .operator op :: behind) e := by
    rcases andThen_error hresult with hfirst | ⟨a, hrest⟩
    · exact (hleft hfirst).mono (List.subset_append_left _ _)
    · rcases andThen_error hrest with hsecond | ⟨b, hop⟩
      · refine (hright hsecond).mono ?_
        exact List.subset_append_of_subset_right _ (List.subset_cons_self _ _)
      · exact Or.inl (perform_error hop)
  induction p with
  | number x => cases h
  | name spelling =>
    rw [evaluate] at h
    split at h
    · cases h
    · next hnone =>
      cases h
      exact Or.inr ⟨spelling, List.mem_singleton_self _, hnone, rfl⟩
  | parens inner ih =>
    refine (ih h).mono ?_
    intro token htoken
    simp [tokens, htoken]
  | ofFactor only ih => exact ih h
  | product left op tight right ihleft ihright => exact hoperator ihleft ihright h
  | ofTerm only ih => exact ih h
  | sum left op loose right ihleft ihright => exact hoperator ihleft ihright h

/-- A phrase may fail, but never because it makes no sense. -/
theorem cause_ne_malformed {level : Level} (p : Phrase level) {e : EvalError}
    (h : (p.evaluate lookup).result = .error e) : e.cause ≠ .malformed := by
  rcases p.mayFail_of_error h with rfl | ⟨name, -, -, rfl⟩
  · decide
  · exact fun hcause => by cases hcause

end Phrase

end Worksheet
