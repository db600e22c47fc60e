import Lox.Number.Reading
import Lox.Parser.Cursor

/-!
# The rules of the expression grammar

Expressions are parsed by one rule per level of precedence, each in terms of the next tighter one:

    equality   = comparison (("!=" | "==") comparison)*
    comparison = term ((">" | ">=" | "<" | "<=") term)*
    term       = factor (("-" | "+") factor)*
    factor     = unary (("/" | "*") unary)*
    unary      = ("!" | "-") unary | primary
    primary    = "false" | "true" | "nil" | number | string | grouping
    grouping   = "(" equality ")"

Operators of one level associate to the left. A rule returns a tree, or the first fault, together
with the state after it. No rule gives tokens back, and the type of the outcome says so; that is why
the rules terminate.

* `Parser.Outcome`: what a rule returns.
* `Parser.Level`, `Parser.binary`: the four levels of binary operators and their rule.
* `Parser.unary`, `Parser.primary`, `Parser.grouping`: the other rules.
* `Parser.expression`, `Parser.statement`: a whole expression, and one closed by a semicolon.
-/

namespace Lox.Parser

/-- **What a rule returns** when it starts in state `p`. -/
structure Outcome (p : Parser) where
  /-- The tree, or the fault. -/
  result : Except Fault Expr
  /-- The state after the rule. -/
  next : Parser
  /-- No token was given back. -/
  length_le : next.ahead.length ≤ p.ahead.length

/-- An outcome seen from an earlier state. -/
def Outcome.since {p q : Parser} (o : Outcome q) (h : q.ahead.length ≤ p.ahead.length) :
    Outcome p :=
  ⟨o.result, o.next, Nat.le_trans o.length_le h⟩

/-- A tree, without taking anything. -/
def succeed (p : Parser) (e : Expr) : Outcome p :=
  ⟨.ok e, p, Nat.le_refl _⟩

/-- The fault `f`, unless there is one already. -/
def raise (p : Parser) (f : Fault) : Outcome p :=
  match p.fault with
  | some earlier => ⟨.error earlier, p, Nat.le_refl _⟩
  | none => ⟨.error f, { p with fault := some f }, Nat.le_refl _⟩

/-- A fault at a token. -/
def raiseAt (p : Parser) (t : Token) (c : Cause) : Outcome p :=
  p.raise (.parse ⟨t, c⟩)

/-- A fault at the next token. -/
def raiseHere (p : Parser) (c : Cause) : Outcome p :=
  p.raiseAt p.peek c

/-- The node of a binary operator. A token that denotes none is an internal error. -/
def newBinary (p : Parser) (left : Expr) (operator : Token) (right : Expr) : Outcome p :=
  match p.fault, BinaryOp.ofKind? operator.kind with
  | none, some op => p.succeed (.binary left op operator right)
  | _, _ => p.raise (.noOperator operator.kind)

/-- The node of a unary operator. A token that denotes none is an internal error. -/
def newUnary (p : Parser) (operator : Token) (right : Expr) : Outcome p :=
  match p.fault, UnaryOp.ofKind? operator.kind with
  | none, some op => p.succeed (.unary op operator right)
  | _, _ => p.raise (.noOperator operator.kind)

/-! ### Levels and literals -/

/-- **The levels of binary operators**, loosest first. -/
inductive Level where
  | equality | comparison | term | factor
  deriving DecidableEq, Repr

/-- The operators of a level. -/
def Level.holds : Level → TokenKind → Bool
  | equality, .bangEqual | equality, .equalEqual => true
  | comparison, .greater | comparison, .greaterEqual => true
  | comparison, .less | comparison, .lessEqual => true
  | term, .minus | term, .plus => true
  | factor, .slash | factor, .star => true
  | _, _ => false

/-- The looser a level, the higher its rank. -/
def Level.rank : Level → Nat
  | equality => 4
  | comparison => 3
  | term => 2
  | factor => 1

/-- The operators in front of an operand. -/
def isUnaryOperator : TokenKind → Bool
  | .bang | .minus => true
  | _ => false

/-- The tokens that are an expression by themselves. -/
def isLiteral : TokenKind → Bool
  | .falseWord | .trueWord | .nilWord | .number | .string => true
  | _ => false

/-- **The value of a literal token.** A number token whose text spells no number has none. -/
def literalValue? (t : Token) : Option Value :=
  match t.kind with
  | .falseWord => some (.bool false)
  | .trueWord => some (.bool true)
  | .nilWord => some .nil
  | .number => (Number.read? t.literal).map .number
  | .string => some (.string t.literal)
  | _ => none

/-! ### The rules

Each call takes a token or goes to a tighter rule; the measure counts the tokens ahead first and the
tightness of the rule second. -/

mutual

/-- **A level of binary operators**: an operand, then operators of the level with more operands. -/
def binary (level : Level) (p : Parser) : Outcome p :=
  match operand level p with
  | ⟨.error f, q, h⟩ => ⟨.error f, q, h⟩
  | ⟨.ok left, q, h⟩ => (more level left q).since h
termination_by 20 * p.ahead.length + 2 * level.rank + 2
decreasing_by all_goals omega

/-- The operands of a level are expressions of the next tighter one. -/
def operand (level : Level) (p : Parser) : Outcome p :=
  match level with
  | .equality => binary .comparison p
  | .comparison => binary .term p
  | .term => binary .factor p
  | .factor => unary p
termination_by 20 * p.ahead.length + 2 * level.rank + 1
decreasing_by all_goals simp [Level.rank]

/-- The rest of a level behind `left`: every further operator takes what was read so far as its left
operand. -/
def more (level : Level) (left : Expr) (p : Parser) : Outcome p :=
  match p.takeIf? level.holds with
  | none => p.succeed left
  | some ⟨operator, q, hq⟩ =>
    match operand level q with
    | ⟨.error f, r, hr⟩ => ⟨.error f, r, by omega⟩
    | ⟨.ok right, r, hr⟩ =>
      match r.newBinary left operator right with
      | ⟨.error f, s, hs⟩ => ⟨.error f, s, by omega⟩
      | ⟨.ok e, s, hs⟩ => (more level e s).since (by omega)
termination_by 20 * p.ahead.length
decreasing_by
  · cases level <;> simp only [Level.rank] <;> omega
  · omega

/-- **Operators in front**, or a primary expression. -/
def unary (p : Parser) : Outcome p :=
  match p.takeIf? isUnaryOperator with
  | none => primary p
  | some ⟨operator, q, hq⟩ =>
    match unary q with
    | ⟨.error f, r, hr⟩ => ⟨.error f, r, by omega⟩
    | ⟨.ok right, r, hr⟩ => (r.newUnary operator right).since (by omega)
termination_by 20 * p.ahead.length + 2
decreasing_by all_goals omega

/-- **A literal**, or an expression in parentheses. -/
def primary (p : Parser) : Outcome p :=
  match p.takeIf? isLiteral with
  | none => grouping p
  | some ⟨t, q, hq⟩ =>
    match literalValue? t with
    | some v => ⟨.ok (.literal v), q, by omega⟩
    | none => (q.raiseAt t .invalidNumber).since (by omega)
termination_by 20 * p.ahead.length + 1
decreasing_by omega

/-- **An expression in parentheses.** -/
def grouping (p : Parser) : Outcome p :=
  match p.takeIf? (· == .leftParen) with
  | none => p.raiseHere .unexpectedToken
  | some ⟨_, q, hq⟩ =>
    match binary .equality q with
    | ⟨.error f, r, hr⟩ => ⟨.error f, r, by omega⟩
    | ⟨.ok inner, r, hr⟩ =>
      match r.takeIf? (· == .rightParen) with
      | none => (r.raiseHere .expectedRightParen).since (by omega)
      | some ⟨_, s, hs⟩ => ⟨.ok (.grouping inner), s, by omega⟩
termination_by 20 * p.ahead.length
decreasing_by simp only [Level.rank]; omega

end

/-- **An expression**, the loosest level. -/
def expression (p : Parser) : Outcome p :=
  binary .equality p

/-- **An expression closed by a semicolon** or by the end of the input. -/
def statement (p : Parser) : Outcome p :=
  match expression p with
  | ⟨.error f, q, h⟩ => ⟨.error f, q, h⟩
  | ⟨.ok e, q, h⟩ =>
    match q.takeIf? (· == .semicolon) with
    | some ⟨_, r, hr⟩ => ⟨.ok e, r, by omega⟩
    | none => if q.atEnd then ⟨.ok e, q, h⟩ else (q.raiseHere .expectedSemicolon).since h

end Lox.Parser
