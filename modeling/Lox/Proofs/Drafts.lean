import Lox.Expr.Sketch
import Lox.Fault.Basic

/-!
# Trees that may have gaps

A rule that builds a tree in place has the operands in hand before it knows whether they are there:
an operand may turn out to be missing, and an operator is a number looked up in a table. Such a tree
is a draft. Only a whole draft can be printed for certain.

- `Draft`: trees with places that may be empty, operators by number, and operator tokens.
- `Draft.Whole`: nothing is missing, and every operator is the one that its token denotes.
- `Draft.ofExpr`, `Draft.ofResult`: an expression as a draft, and nothing after a fault.
- `Draft.Whole.exists_print`: every printer prints a whole draft.
-/

namespace Lox

/-- **A tree that may have gaps**: a place may be empty, and operators stand as numbers beside their
tokens. -/
inductive Draft where
  | missing
  | literal (value : Value)
  | grouping (inner : Draft)
  | unary (code : Nat) (token : Token) (right : Draft)
  | binary (left : Draft) (code : Nat) (token : Token) (right : Draft)
  deriving DecidableEq, Repr, Inhabited

/-- The number of the operator that a token denotes in front of its operand. -/
def UnaryOp.codeOf? (t : Token) : Option Nat := (ofKind? t.kind).map code

/-- The number of the operator that a token denotes between its operands. -/
def BinaryOp.codeOf? (t : Token) : Option Nat := (ofKind? t.kind).map code

namespace Draft

/-- **Nothing is missing, and every operator is the one that its token denotes.** -/
def Whole : Draft → Prop
  | missing => False
  | literal _ => True
  | grouping inner => inner.Whole
  | unary code token right => UnaryOp.codeOf? token = some code ∧ right.Whole
  | binary left code token right =>
    left.Whole ∧ BinaryOp.codeOf? token = some code ∧ right.Whole

/-- An expression as a draft. -/
def ofExpr : Expr → Draft
  | .literal v => literal v
  | .grouping inner => grouping (ofExpr inner)
  | .unary op token right => unary op.code token (ofExpr right)
  | .binary left op token right => binary (ofExpr left) op.code token (ofExpr right)

/-- What is there of a result: the tree, or nothing after a fault. -/
def ofResult : Except Fault Expr → Draft
  | .ok e => ofExpr e
  | .error _ => missing

/-- What parsing an expression hands out: the tree and the fault. -/
def handed : Except Fault Expr → Draft × Option Fault
  | .ok e => (ofExpr e, none)
  | .error f => (missing, some f)

/-- What parsing a list of statements hands out: the trees and the fault. -/
def handedAll : Except Fault (List Expr) → List Draft × Option Fault
  | .ok es => (es.map ofExpr, none)
  | .error f => ([], some f)

/-! ### Printing -/

/-- A draft without its operator tokens, which no printer looks at. -/
def sketch : Draft → Sketch
  | missing => .missing
  | literal v => .literal v
  | grouping inner => .grouping inner.sketch
  | unary code _ right => .unary code right.sketch
  | binary left code _ right => .binary code left.sketch right.sketch

/-- **The text of a draft**, or why it cannot be printed. -/
def print (printer : Printer) (d : Draft) : Except Sketch.Gap String :=
  d.sketch.render printer.style

theorem sketch_ofExpr (e : Expr) : (ofExpr e).sketch = Sketch.ofExpr e := by
  induction e with
  | literal v => rfl
  | grouping inner ih => simp only [ofExpr, sketch, Sketch.ofExpr, ih]
  | unary op token right ih => simp only [ofExpr, sketch, Sketch.ofExpr, ih]
  | binary left op token right ihl ihr => simp only [ofExpr, sketch, Sketch.ofExpr, ihl, ihr]

/-- A whole draft is an expression. -/
theorem Whole.exists_ofExpr {d : Draft} (h : d.Whole) : ∃ e, d = ofExpr e := by
  induction d with
  | missing => exact h.elim
  | literal v => exact ⟨.literal v, rfl⟩
  | grouping inner ih =>
    obtain ⟨e, rfl⟩ := ih h
    exact ⟨.grouping e, rfl⟩
  | unary code token right ih =>
    obtain ⟨hcode, hright⟩ := h
    obtain ⟨op, -, rfl⟩ := Option.map_eq_some_iff.mp hcode
    obtain ⟨e, rfl⟩ := ih hright
    exact ⟨.unary op token e, rfl⟩
  | binary left code token right ihl ihr =>
    obtain ⟨hleft, hcode, hright⟩ := h
    obtain ⟨op, -, rfl⟩ := Option.map_eq_some_iff.mp hcode
    obtain ⟨l, rfl⟩ := ihl hleft
    obtain ⟨r, rfl⟩ := ihr hright
    exact ⟨.binary l op token r, rfl⟩

/-- **A whole draft is printed by every printer.** -/
theorem Whole.exists_print {d : Draft} (h : d.Whole) (printer : Printer) :
    ∃ text, d.print printer = .ok text := by
  obtain ⟨e, rfl⟩ := h.exists_ofExpr
  refine ⟨e.render printer.style, ?_⟩
  rw [print, sketch_ofExpr]
  exact Sketch.render_ofExpr printer.style e

end Draft

end Lox
