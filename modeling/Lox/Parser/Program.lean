import Lox.Parser.Rules
import Lox.Reporter

/-!
# Parsing whole inputs

An input is either one expression or a list of statements. A faulty statement does not end the
parse: the parser passes over the rest of it and goes on with the next one, so that every faulty
region is reported, but no trees are handed out unless all statements are sound.

* `Parser.parse`: one expression that takes up the whole input.
* `Parser.statements`: the outcome of every statement.
* `Parser.parseAll`: all trees, or all faults.
* `Parser.reportParse`, `Parser.reportParseAll`: the reporter after a parse.
-/

namespace Lox.Parser

/-- **Parses one expression** that must reach to the end. -/
def parse (p : Parser) : Outcome p :=
  match expression p with
  | ⟨.error f, q, h⟩ => ⟨.error f, q, h⟩
  | ⟨.ok e, q, h⟩ => if q.atEnd then ⟨.ok e, q, h⟩ else (q.raiseHere .expectedEnd).since h

/-! ### A tree takes at least one token -/

theorem raise_ne_ok (p : Parser) (f : Fault) (e : Expr) : (p.raise f).result ≠ .ok e := by
  unfold raise
  split <;> simp

theorem length_lt_of_grouping_ok {p : Parser} {e : Expr} (h : (grouping p).result = .ok e) :
    (grouping p).next.ahead.length < p.ahead.length := by
  rw [grouping] at h ⊢
  generalize p.takeIf? (· == .leftParen) = taken at h ⊢
  obtain _ | ⟨t, q, hq⟩ := taken
  · exact absurd h (raise_ne_ok p _ e)
  · dsimp only
    rcases binary .equality q with ⟨_ | inner, r, hr⟩
    · exact Nat.lt_of_le_of_lt hr hq
    · dsimp only
      rcases r.takeIf? (· == .rightParen) with _ | ⟨t', s, hs⟩
      · exact Nat.lt_of_le_of_lt (Nat.le_trans (r.raiseHere _).length_le hr) hq
      · exact Nat.lt_of_lt_of_le (Nat.lt_of_lt_of_le hs hr) (Nat.le_of_lt hq)

theorem length_lt_of_primary_ok {p : Parser} {e : Expr} (h : (primary p).result = .ok e) :
    (primary p).next.ahead.length < p.ahead.length := by
  rw [primary] at h ⊢
  generalize p.takeIf? isLiteral = taken at h ⊢
  obtain _ | ⟨t, q, hq⟩ := taken
  · exact length_lt_of_grouping_ok h
  · dsimp only
    cases literalValue? t with
    | some v => exact hq
    | none => exact Nat.lt_of_le_of_lt (q.raiseAt t .invalidNumber).length_le hq

theorem length_lt_of_unary_ok {p : Parser} {e : Expr} (h : (unary p).result = .ok e) :
    (unary p).next.ahead.length < p.ahead.length := by
  rw [unary] at h ⊢
  generalize p.takeIf? isUnaryOperator = taken at h ⊢
  obtain _ | ⟨operator, q, hq⟩ := taken
  · exact length_lt_of_primary_ok h
  · dsimp only
    rcases unary q with ⟨_ | right, r, hr⟩
    · exact Nat.lt_of_le_of_lt hr hq
    · exact Nat.lt_of_le_of_lt (Nat.le_trans (r.newUnary operator right).length_le hr) hq

/-- A level takes a token if its operands do. -/
theorem length_lt_of_binary_ok_of_operand {level : Level} {p : Parser} {e : Expr}
    (hop : ∀ e, (operand level p).result = .ok e →
      (operand level p).next.ahead.length < p.ahead.length)
    (h : (binary level p).result = .ok e) :
    (binary level p).next.ahead.length < p.ahead.length := by
  rw [binary] at h ⊢
  generalize ho : operand level p = o at h hop ⊢
  obtain ⟨_ | left, q, hq⟩ := o
  · cases h
  · exact Nat.lt_of_le_of_lt (more level left q).length_le (hop left rfl)

/-- An expression takes at least one token, at every level. -/
theorem length_lt_of_binary_ok {level : Level} {p : Parser} {e : Expr}
    (h : (binary level p).result = .ok e) :
    (binary level p).next.ahead.length < p.ahead.length := by
  have factor : ∀ e, (binary .factor p).result = .ok e →
      (binary .factor p).next.ahead.length < p.ahead.length := fun e =>
    length_lt_of_binary_ok_of_operand (by rw [operand]; exact fun _ => length_lt_of_unary_ok)
  have term : ∀ e, (binary .term p).result = .ok e →
      (binary .term p).next.ahead.length < p.ahead.length := fun e =>
    length_lt_of_binary_ok_of_operand (by rw [operand]; exact factor)
  have comparison : ∀ e, (binary .comparison p).result = .ok e →
      (binary .comparison p).next.ahead.length < p.ahead.length := fun e =>
    length_lt_of_binary_ok_of_operand (by rw [operand]; exact term)
  cases level with
  | equality => exact length_lt_of_binary_ok_of_operand (by rw [operand]; exact comparison) h
  | comparison => exact comparison e h
  | term => exact term e h
  | factor => exact factor e h

/-- A statement with a tree takes at least one token. -/
theorem length_lt_of_statement_ok {p : Parser} {e : Expr} (h : (statement p).result = .ok e) :
    (statement p).next.ahead.length < p.ahead.length := by
  unfold statement at h ⊢
  have hlt : ∀ e, (expression p).result = .ok e →
      (expression p).next.ahead.length < p.ahead.length := fun _ => length_lt_of_binary_ok
  generalize expression p = o at h hlt ⊢
  obtain ⟨_ | tree, q, hq⟩ := o
  · cases h
  · have hq' : q.ahead.length < p.ahead.length := hlt tree rfl
    dsimp only
    rcases q.takeIf? (· == .semicolon) with _ | ⟨t, r, hr⟩
    · dsimp only
      split
      · exact hq'
      · exact Nat.lt_of_le_of_lt (q.raiseHere .expectedSemicolon).length_le hq'
    · exact Nat.lt_trans hr hq'

/-! ### Lists of statements -/

/-- The state in which the parser goes on after a statement: right behind it, or at the next
boundary with its fault forgotten. -/
def afterStatement (p : Parser) : Parser :=
  match statement p with
  | ⟨.ok _, q, _⟩ => q
  | ⟨.error _, q, _⟩ => q.synchronize.clearFault

/-- Every statement, sound or not, uses up a token. -/
theorem length_afterStatement_lt {p : Parser} (h : p.ahead ≠ []) :
    p.afterStatement.ahead.length < p.ahead.length := by
  have hpos := List.length_pos_iff.mpr h
  have hok : ∀ e, (statement p).result = .ok e →
      (statement p).next.ahead.length < p.ahead.length := fun _ => length_lt_of_statement_ok
  unfold afterStatement
  generalize statement p = o at hok ⊢
  obtain ⟨_ | e, q, hq⟩ := o
  · have hsync : q.synchronize.clearFault.ahead.length ≤ q.ahead.length - 1 :=
      length_synchronize_le q
    dsimp only
    omega
  · exact hok e rfl

/-- **The outcome of every statement** up to the end, and the state there. -/
def statements (p : Parser) : List (Except Fault Expr) × Parser :=
  if _h : p.ahead = [] then ([], p)
  else
    let rest := statements p.afterStatement
    ((statement p).result :: rest.1, rest.2)
termination_by p.ahead.length
decreasing_by exact length_afterStatement_lt _h

/-- The faults among outcomes. -/
def faults (outcomes : List (Except Fault Expr)) : List Fault :=
  outcomes.filterMap fun o => match o with
    | .error f => some f
    | .ok _ => none

/-- The trees among outcomes. -/
def trees (outcomes : List (Except Fault Expr)) : List Expr :=
  outcomes.filterMap fun o => match o with
    | .error _ => none
    | .ok e => some e

/-- All trees, or all faults as one. A single faulty outcome withholds every tree. -/
def gather (outcomes : List (Except Fault Expr)) : Except Fault (List Expr) :=
  match Fault.join ((faults outcomes).map some) with
  | some f => .error f
  | none => .ok (trees outcomes)

/-- **Parses a list of statements.** -/
def parseAll (p : Parser) : Except Fault (List Expr) × Parser :=
  (gather p.statements.1, p.statements.2)

/-! ### Reporting -/

/-- The reporter after `parse`: it has seen the fault, if there was one. -/
def reportParse (p : Parser) (r : Reporter) : Reporter :=
  match p.parse.result with
  | .error f => r.reportFault f
  | .ok _ => r

/-- The reporter after `parseAll`: it has seen every fault in order. -/
def reportParseAll (p : Parser) (r : Reporter) : Reporter :=
  r.reportFaults (faults p.statements.1)

end Lox.Parser
