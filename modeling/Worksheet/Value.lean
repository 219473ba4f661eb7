import Worksheet.Number.Shortest

/-! # Values of cells

    A cell shows a number, a text, or the reason why its formula has no number. A cell without
    an entry shows the empty text.
-/

namespace Worksheet

/-! ## Section 1: Evaluation errors -/

/-- Why a formula has no number. -/
inductive EvalError.Cause where
  | divisionByZero
  /-- The lookup gave no number for the name. -/
  | unresolved (name : String)
  /-- The tokens do not describe a single value. -/
  | malformed
  deriving DecidableEq, Repr

/-- A cause with the words in which it is reported. -/
structure EvalError where
  cause : EvalError.Cause
  reason : String
  deriving DecidableEq, Repr

namespace EvalError

/-- The usual words for a cause. -/
def Cause.reason : Cause → String
  | divisionByZero => "division by zero"
  | unresolved name => "variable " ++ name ++ " has no numeric value"
  | malformed => "formula did not reduce to a single value"

/-- A cause reported in the usual words. -/
def ofCause (cause : Cause) : EvalError := ⟨cause, cause.reason⟩

def divisionByZero : EvalError := ofCause .divisionByZero

def unresolved (name : String) : EvalError := ofCause (.unresolved name)

def malformed : EvalError := ofCause .malformed

/-- The error as text. -/
def text (e : EvalError) : String := "#ERROR: " ++ e.reason

end EvalError

/-! ## Section 2: Values -/

inductive Value where
  | number (value : Float)
  | text (value : String)
  | error (error : EvalError)
  deriving DecidableEq

namespace Value

/-- The value of a cell without an entry. -/
def empty : Value := text ""

instance : Inhabited Value := ⟨empty⟩

/-- A computed number, or the error in its place. -/
def ofExcept : Except EvalError Float → Value
  | .ok value => number value
  | .error e => error e

def isEmpty : Value → Bool
  | text value => value == ""
  | _ => false

def isError : Value → Bool
  | error _ => true
  | _ => false

def number? : Value → Option Float
  | number value => some value
  | _ => none

def text? : Value → Option String
  | text value => some value
  | _ => none

def error? : Value → Option EvalError
  | error e => some e
  | _ => none

/-- What sort of value it is, in a word. -/
def sort : Value → String
  | number _ => "number"
  | text _ => "text"
  | error _ => "error"

/-- The value as text. -/
def display : Value → String
  | number value => Number.text value
  | text value => value
  | error e => e.text

/-- Whether two values are equal, numbers by arithmetic equality: the undefined number differs
    from itself, and the two zeros are equal. -/
def agrees : Value → Value → Bool
  | number a, number b => a == b
  | text a, text b => a == b
  | error a, error b => a == b
  | _, _ => false

end Value

end Worksheet
