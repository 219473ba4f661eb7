import Worksheet.Number.Shortest

/-! # Tokens of a formula

    A formula is a sequence of operands, operators and parentheses. What fits none of these is
    kept as a `stray` token, so that a message can show it.
-/

namespace Worksheet

/-! ## Section 1: Operators -/

inductive Operator where
  | plus
  | minus
  | times
  | dividedBy
  deriving DecidableEq, Repr

namespace Operator

/-- The character that stands for the operator. -/
def toChar : Operator → Char
  | plus => '+'
  | minus => '-'
  | times => '*'
  | dividedBy => '/'

/-- The operator that a character stands for. -/
def ofChar? : Char → Option Operator
  | '+' => some plus
  | '-' => some minus
  | '*' => some times
  | '/' => some dividedBy
  | _ => none

/-- Addition and subtraction leave their operands to the other two operators. -/
def bindsLoosely : Operator → Bool
  | plus => true
  | minus => true
  | times => false
  | dividedBy => false

theorem bindsLoosely_eq_true_iff (op : Operator) :
    op.bindsLoosely = true ↔ op = plus ∨ op = minus := by
  cases op <;> decide

theorem bindsLoosely_eq_false_iff (op : Operator) :
    op.bindsLoosely = false ↔ op = times ∨ op = dividedBy := by
  cases op <;> decide

theorem ofChar?_toChar (op : Operator) : ofChar? op.toChar = some op := by
  cases op <;> rfl

theorem ofChar?_eq_some_iff (c : Char) (op : Operator) : ofChar? c = some op ↔ c = op.toChar := by
  constructor
  · intro h
    unfold ofChar? at h
    split at h <;> cases h <;> rfl
  · rintro rfl
    exact ofChar?_toChar op

end Operator

/-! ## Section 2: Tokens -/

inductive Token where
  | number (value : Float)
  | name (spelling : String)
  | operator (op : Operator)
  | opening
  | closing
  | stray (text : String)
  deriving DecidableEq

namespace Token

/-- What a token is, without the number, spelling, operator or text that it carries. -/
inductive Kind where
  | number
  | name
  | operator
  | opening
  | closing
  | stray
  deriving DecidableEq, Repr, Hashable

def kind : Token → Kind
  | number _ => .number
  | name _ => .name
  | operator _ => .operator
  | opening => .opening
  | closing => .closing
  | stray _ => .stray

/-- The token as text. -/
def text : Token → String
  | number value => Number.text value
  | name spelling => spelling
  | operator op => String.singleton op.toChar
  | opening => "("
  | closing => ")"
  | stray text => text

/-- The name that a token mentions. -/
def name? : Token → Option String
  | name spelling => some spelling
  | _ => none

/-- The text of a stray token. -/
def stray? : Token → Option String
  | stray text => some text
  | _ => none

/-- The token with another name in place of the one that it mentions. -/
def mapName (rename : String → String) : Token → Token
  | name spelling => name (rename spelling)
  | token => token

theorem kind_mapName (rename : String → String) (token : Token) :
    (token.mapName rename).kind = token.kind := by
  cases token <;> rfl

theorem name?_eq_some_iff (token : Token) (spelling : String) :
    token.name? = some spelling ↔ token = name spelling := by
  cases token <;> simp [name?]

theorem stray?_eq_none_iff (token : Token) : token.stray? = none ↔ token.kind ≠ .stray := by
  cases token <;> simp [stray?, kind]

/-! ## Section 3: Places in a formula -/

namespace Kind

/-- Numbers and names. -/
def isOperand : Kind → Bool
  | number => true
  | name => true
  | _ => false

/-- Tokens that may stand where an operand begins. -/
def beginsOperand (kind : Kind) : Bool :=
  kind.isOperand || kind == opening

/-- Tokens that may stand where an operand ends. -/
def endsOperand (kind : Kind) : Bool :=
  kind.isOperand || kind == closing

/-- Tokens that may follow where an operand ends. -/
def followsOperand (kind : Kind) : Bool :=
  kind == operator || kind == closing

end Kind

end Token

end Worksheet
