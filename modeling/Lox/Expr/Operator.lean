import Lox.Token.Kind

/-!
# Operators

The operators of expressions, each with the token that denotes it, its name and its spelling. An
operator also has a number, its position in the list of its sort.
-/

namespace Lox

/-- **Operators with one operand.** -/
inductive UnaryOp where
  | not | negate
  deriving DecidableEq, Repr, Inhabited

namespace UnaryOp

/-- All unary operators in the order of their numbers. -/
def all : List UnaryOp := [not, negate]

/-- The operator that a token denotes in front of its operand. -/
def ofKind? : TokenKind → Option UnaryOp
  | .bang => some not
  | .minus => some negate
  | _ => none

/-- The name of an operator in structural output. -/
def name : UnaryOp → String
  | not => "Bang"
  | negate => "Minus"

/-- The spelling of an operator in source text. -/
def symbol : UnaryOp → String
  | not => "!"
  | negate => "-"

/-- The number of an operator. -/
def code (op : UnaryOp) : Nat := all.idxOf op

end UnaryOp

/-- **Operators with two operands.** -/
inductive BinaryOp where
  | equal | notEqual | less | lessEqual | greater | greaterEqual | add | subtract | multiply | divide
  deriving DecidableEq, Repr, Inhabited

namespace BinaryOp

/-- All binary operators in the order of their numbers. -/
def all : List BinaryOp :=
  [equal, notEqual, less, lessEqual, greater, greaterEqual, add, subtract, multiply, divide]

/-- The operator that a token denotes between its operands. -/
def ofKind? : TokenKind → Option BinaryOp
  | .equalEqual => some equal
  | .bangEqual => some notEqual
  | .less => some less
  | .lessEqual => some lessEqual
  | .greater => some greater
  | .greaterEqual => some greaterEqual
  | .plus => some add
  | .minus => some subtract
  | .star => some multiply
  | .slash => some divide
  | _ => none

/-- The name of an operator in structural output. -/
def name : BinaryOp → String
  | equal => "EqualEqual"
  | notEqual => "BangEqual"
  | less => "Less"
  | lessEqual => "LessEqual"
  | greater => "Greater"
  | greaterEqual => "GreaterEqual"
  | add => "Plus"
  | subtract => "Minus"
  | multiply => "Star"
  | divide => "Slash"

/-- The spelling of an operator in source text. -/
def symbol : BinaryOp → String
  | equal => "=="
  | notEqual => "!="
  | less => "<"
  | lessEqual => "<="
  | greater => ">"
  | greaterEqual => ">="
  | add => "+"
  | subtract => "-"
  | multiply => "*"
  | divide => "/"

/-- The number of an operator. -/
def code (op : BinaryOp) : Nat := all.idxOf op

end BinaryOp

end Lox
