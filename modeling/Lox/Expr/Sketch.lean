import Lox.Expr.Style

/-!
# Sketches of expressions

A sketch is a tree made by hand: a place may be empty and an operator is only a number, which may
denote nothing. Printing a sketch can therefore fail. A sketch without gaps and stray numbers prints
as the expression it stands for.

* `Sketch`: trees with gaps.
* `Sketch.render`: the text of a sketch, or why it has none.
* `Sketch.ofExpr`: an expression as a sketch; `Sketch.render_ofExpr` says that it prints the same.
-/

namespace Lox

/-- **A tree with gaps** and with operators by number. -/
inductive Sketch where
  | missing
  | literal (value : Value)
  | grouping (inner : Sketch)
  | unary (code : Nat) (right : Sketch)
  | binary (code : Nat) (left right : Sketch)
  deriving DecidableEq, Repr, Inhabited

namespace Sketch

/-- **Why a sketch cannot be printed.** -/
inductive Gap where
  /-- A place of the tree is empty. -/
  | missing
  /-- `code` denotes none of the `count` operators. -/
  | stray (code count : Nat)
  deriving DecidableEq, Repr

/-- The text of a gap. -/
def Gap.message : Gap → String
  | missing => "parser: unexpected expression <nil>"
  | stray code count =>
    "runtime error: index out of range [" ++ toString code ++ "] with length " ++ toString count

/-- The label of the operator that `code` denotes among `ops`. -/
def label {Op : Type} (style : Style) (ops : List Op) (labelOf : Op → String) (code : Nat) :
    Except Gap String :=
  match ops[code]? with
  | some op => .ok (labelOf op)
  | none =>
    match style.strayLabel? code ops.length with
    | some text => .ok text
    | none => .error (.stray code ops.length)

/-- **The text of a sketch** in a style. The operator is looked up before the operands are
visited. -/
def render (style : Style) : Sketch → Except Gap String
  | missing => .error .missing
  | literal v => .ok (style.literal v)
  | grouping inner => do
    return style.grouping (← inner.render style)
  | unary code right => do
    let op ← label style UnaryOp.all style.unaryLabel code
    return style.unary op (← right.render style)
  | binary code left right => do
    let op ← label style BinaryOp.all style.binaryLabel code
    return style.binary op (← left.render style) (← right.render style)

/-- An expression as a sketch. -/
def ofExpr : Expr → Sketch
  | .literal v => literal v
  | .grouping inner => grouping (ofExpr inner)
  | .unary op _ right => unary op.code (ofExpr right)
  | .binary left op _ right => binary op.code (ofExpr left) (ofExpr right)

theorem label_unaryCode (style : Style) (op : UnaryOp) :
    label style UnaryOp.all style.unaryLabel op.code = .ok (style.unaryLabel op) := by
  cases op <;> rfl

theorem label_binaryCode (style : Style) (op : BinaryOp) :
    label style BinaryOp.all style.binaryLabel op.code = .ok (style.binaryLabel op) := by
  cases op <;> rfl

/-- **A complete sketch prints as its expression.** -/
theorem render_ofExpr (style : Style) (e : Expr) :
    render style (ofExpr e) = .ok (e.render style) := by
  induction e with
  | literal v => rfl
  | grouping inner ih => simp only [ofExpr, render, ih]; rfl
  | unary op token right ih => simp only [ofExpr, render, label_unaryCode, ih]; rfl
  | binary left op token right ihl ihr =>
    simp only [ofExpr, render, label_binaryCode, ihl, ihr]; rfl

end Sketch

end Lox
