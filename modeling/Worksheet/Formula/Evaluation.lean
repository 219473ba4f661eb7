import Worksheet.Formula.Basic
import Worksheet.Value

/-! # Evaluation

    A machine with two stacks works through the tokens from left to right: one stack holds
    numbers, the other the operators and opening parentheses that wait for what is to come. A
    multiplication or division is performed as soon as its right operand is there; an addition or
    subtraction waits for the next one, for a closing parenthesis or for the end.

    Names get their numbers from a lookup, which is asked each time that a name occurs. A `Run`
    keeps the names that were asked for beside the result.
-/

namespace Worksheet

/-! ## Section 1: Single operations -/

namespace Operator

/-- The result of the operator on two numbers. The right operand of a division must not be
    zero. -/
def perform (op : Operator) (left right : Float) : Except EvalError Float :=
  match op with
  | plus => .ok (left + right)
  | minus => .ok (left - right)
  | times => .ok (left * right)
  | dividedBy => if right == 0 then .error .divisionByZero else .ok (left / right)

end Operator

/-! ## Section 2: The machine -/

/-- What waits on the second stack. -/
inductive Waiting where
  | operator (op : Operator)
  | opening
  deriving DecidableEq, Repr

/-- The two stacks, each with its top first. -/
structure Machine where
  values : List Float
  waiting : List Waiting

namespace Machine

def start : Machine := ⟨[], []⟩

/-- Puts an operator or a parenthesis on the second stack. -/
def wait (item : Waiting) (m : Machine) : Machine :=
  { m with waiting := item :: m.waiting }

/-- Performs the operator on top, with its operands from the first stack. -/
def performTop (m : Machine) : Except EvalError Machine :=
  match m.waiting, m.values with
  | .operator op :: waiting, right :: left :: values =>
    (op.perform left right).map fun value => ⟨value :: values, waiting⟩
  | _, _ => .error .malformed

/-- Performs the operator on top if it is a multiplication or division. -/
def performTight (m : Machine) : Except EvalError Machine :=
  match m.waiting with
  | .operator op :: _ => if op.bindsLoosely then .ok m else m.performTop
  | _ => .ok m

/-- Performs the operator on top if it is an addition or subtraction. -/
def performLoose (m : Machine) : Except EvalError Machine :=
  match m.waiting with
  | .operator op :: _ => if op.bindsLoosely then m.performTop else .ok m
  | _ => .ok m

/-- Takes in an operand. -/
def operand (value : Float) (m : Machine) : Except EvalError Machine :=
  performTight { m with values := value :: m.values }

/-- Takes in an operator. -/
def operator (op : Operator) (m : Machine) : Except EvalError Machine :=
  if op.bindsLoosely then m.performLoose.map (wait (.operator op))
  else .ok (m.wait (.operator op))

/-- Removes the opening parenthesis on top. -/
def dropOpening (m : Machine) : Except EvalError Machine :=
  match m.waiting with
  | .opening :: waiting => .ok { m with waiting := waiting }
  | _ => .error .malformed

/-- Takes in a closing parenthesis: what stood in parentheses becomes a right operand. -/
def close (m : Machine) : Except EvalError Machine := do
  let m ← m.performLoose
  let m ← m.dropOpening
  m.performTight

/-- Takes in a token. -/
def step (lookup : String → Option Float) (m : Machine) : Token → Except EvalError Machine
  | .number value => m.operand value
  | .name name =>
    match lookup name with
    | some value => m.operand value
    | none => .error (.unresolved name)
  | .operator op => m.operator op
  | .opening => .ok (m.wait .opening)
  | .closing => m.close
  | .stray _ => .error .malformed

/-- The result at the end of the tokens. One addition or subtraction may still be waiting. -/
def finish (m : Machine) : Except EvalError Float :=
  match m.waiting, m.values with
  | [], [value] => .ok value
  | [.operator op], [right, left] =>
    if op.bindsLoosely then op.perform left right else .error .malformed
  | _, _ => .error .malformed

end Machine

/-! ## Section 3: Runs -/

/-- A result with the names that were looked up on the way, in order and with repeats. -/
structure Run where
  result : Except EvalError Float
  asked : List String

/-- Runs the machine from a given state on the tokens. -/
def Machine.run (lookup : String → Option Float) (m : Machine) : List Token → Run
  | [] => ⟨m.finish, []⟩
  | token :: rest =>
    match m.step lookup token with
    | .error error => ⟨.error error, token.name?.toList⟩
    | .ok m =>
      let further := m.run lookup rest
      ⟨further.result, token.name?.toList ++ further.asked⟩

/-- Evaluates a sequence of tokens, whether its structure is sound or not.

    The lookup is a function of the name: asked for a name again, it gives the same answer. A
    caller's lookup may keep a state of its own and answer differently from call to call, and such
    lookups are not covered. What is covered of the calls is which names they ask for and in which
    order, as `Run.asked`. -/
def calculate (lookup : String → Option Float) (tokens : List Token) : Run :=
  Machine.start.run lookup tokens

namespace Formula

/-- The value of a formula. -/
def value (lookup : String → Option Float) (f : Formula) : Value :=
  .ofExcept (calculate lookup f.tokens).result

end Formula

end Worksheet
