import Lox.Expr.Basic

/-!
# Printing expressions

There are three printers. A printer is a style: how the operators are labelled and how the texts of
the operands are put together with a label. The printer then follows the tree.

* `Style`: the choices of a printer; `Style.ast`, `Style.rpn` and `Style.tree` are the three.
* `Expr.render`: the text of a tree.
* `Printer`: the three printers by name.
-/

namespace Lox

/-- **The choices of a printer.** -/
structure Style where
  /-- The text of a literal. -/
  literal : Value → String
  /-- A tree in parentheses, from the text of the tree. -/
  grouping : String → String
  unaryLabel : UnaryOp → String
  unary : (label right : String) → String
  binaryLabel : BinaryOp → String
  binary : (label left right : String) → String
  /-- The label in place of an operator for a number that denotes none, from the number and the
  count of operators of the sort. `none` refuses to print the tree. -/
  strayLabel? : (code count : Nat) → Option String

namespace Style

/-- A head and its operands in parentheses. -/
def parenthesize (head : String) (operands : List String) : String :=
  "(" ++ head ++ String.join (operands.map (" " ++ ·)) ++ ")"

/-- **Nested lists**, the operator in front: `(* (- 1) (group 2))`. -/
def ast : Style where
  literal := Value.text
  grouping inner := parenthesize "group" [inner]
  unaryLabel := UnaryOp.symbol
  unary label right := parenthesize label [right]
  binaryLabel := BinaryOp.symbol
  binary label left right := parenthesize label [left, right]
  strayLabel? _ _ := none

/-- A text without the space at its end, if it has one. -/
def dropFinalSpace (text : String) : String :=
  match text.toList.reverse with
  | ' ' :: rest => String.ofList rest.reverse
  | _ => text

/-- The operands, a space after each, then the operator. Without an operator the last space goes. -/
def operandsFirst (operator : String) (operands : List String) : String :=
  dropFinalSpace (String.join (operands.map (· ++ " ")) ++ operator)

/-- **Operands before operators**: `1 ~ 2 *`. Parentheses leave no trace, and negation has a sign of
its own to tell it from subtraction. -/
def rpn : Style where
  literal := Value.text
  grouping inner := operandsFirst "" [inner]
  unaryLabel
    | .negate => "~"
    | op => op.symbol
  unary label right := operandsFirst label [right]
  binaryLabel := BinaryOp.symbol
  binary label left right := operandsFirst label [left, right]
  strayLabel? _ _ := none

/-- The text of a literal that tells its sort. -/
def treeLiteral : Value → String
  | .nil => "Nil"
  | .bool true => "True"
  | .bool false => "False"
  | .number n => n.text
  | .string s => Text.Quoted.string s

/-- **The nodes by name**: `Binary(Unary(Minus, Literal(1)), Star, Grouping(Literal(2)))`. A stray
operator is shown as what went wrong with it. -/
def tree : Style where
  literal v := "Literal(" ++ treeLiteral v ++ ")"
  grouping inner := "Grouping(" ++ inner ++ ")"
  unaryLabel := UnaryOp.name
  unary label right := "Unary(" ++ label ++ ", " ++ right ++ ")"
  binaryLabel := BinaryOp.name
  binary label left right := "Binary(" ++ left ++ ", " ++ label ++ ", " ++ right ++ ")"
  strayLabel? code count :=
    some ("%!s(PANIC=String method: runtime error: index out of range [" ++ toString code
      ++ "] with length " ++ toString count ++ ")")

end Style

/-- **The text of an expression** in a style. -/
def Expr.render (style : Style) : Expr → String
  | literal v => style.literal v
  | grouping inner => style.grouping (inner.render style)
  | unary op _ right => style.unary (style.unaryLabel op) (right.render style)
  | binary left op _ right =>
    style.binary (style.binaryLabel op) (left.render style) (right.render style)

/-- **The printers.** -/
inductive Printer where
  | ast | rpn | tree
  deriving DecidableEq, Repr, Inhabited

namespace Printer

/-- The style of a printer. -/
def style : Printer → Style
  | ast => .ast
  | rpn => .rpn
  | tree => .tree

/-- The printer of a name. -/
def ofName? (name : String) : Option Printer :=
  match name with
  | "ast" => some ast
  | "rpn" => some rpn
  | "tree" => some tree
  | _ => none

/-- The names that settings may give. -/
def names : List String := ["ast", "rpn", "tree"]

/-- Prints an expression. -/
def print (p : Printer) (e : Expr) : String := e.render p.style

end Printer

end Lox
