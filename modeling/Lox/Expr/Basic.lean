import Lox.Expr.Operator
import Lox.Number.Shortest
import Lox.Token.Basic

/-!
# Expressions

The tree of an expression. A node with an operator keeps the token that denoted it; parentheses are
nodes of their own.
-/

namespace Lox

/-- **The value of a literal.** -/
inductive Value where
  | nil
  | bool (b : Bool)
  | number (n : Number)
  | string (s : String)
  deriving DecidableEq, Repr, Inhabited

/-- The text of a value; a string stands without quotes. -/
def Value.text : Value → String
  | nil => "nil"
  | bool true => "true"
  | bool false => "false"
  | number n => n.text
  | string s => s

/-- **An expression.** -/
inductive Expr where
  | literal (value : Value)
  | grouping (inner : Expr)
  | unary (op : UnaryOp) (token : Token) (right : Expr)
  | binary (left : Expr) (op : BinaryOp) (token : Token) (right : Expr)
  deriving DecidableEq, Repr, Inhabited

end Lox
