import Lox.Proofs.Grammar

/-!
# What a rule does with the next token

Each rule of the parser looks at the next token, and what it does then depends on nothing else but
the outcome of the rules it calls. This file says so once for every rule and every kind of token,
for parsers without a fault. The proofs about whole expressions use these statements and never open
a rule again.

- `Parser.pass`: the state behind given tokens.
- `Outcome.view`: the tree or fault that a rule returns, and the state after it.
- `view_binary_*`, `view_more_*`, `view_unary_*`, `view_primary_*`, `view_grouping_*`: the rules.
-/

namespace Lox.Parser

open Grammar

/-! ### Passing over tokens -/

/-- **The state behind the tokens `w`**, which have to be the next ones. -/
def pass (p : Parser) (w : List Token) : Parser :=
  { p with passed := w.reverse ++ p.passed, ahead := p.ahead.drop w.length }

/-- The state with a fault. -/
def failed (p : Parser) (f : Fault) : Parser := { p with fault := some f }

@[simp] theorem pass_nil (p : Parser) : p.pass [] = p := rfl

theorem pass_pass (p : Parser) (u v : List Token) : (p.pass u).pass v = p.pass (u ++ v) := by
  simp [pass, List.drop_drop]

theorem ahead_pass {p : Parser} {w rest : List Token} (h : p.ahead = w ++ rest) :
    (p.pass w).ahead = rest := by
  simp [pass, h]

@[simp] theorem fault_pass (p : Parser) (w : List Token) : (p.pass w).fault = p.fault := rfl

@[simp] theorem finish_pass (p : Parser) (w : List Token) : (p.pass w).finish = p.finish := rfl

theorem position_pass (p : Parser) (w : List Token) :
    (p.pass w).position = p.position + w.length := by
  simp [pass, position, Nat.add_comm]

theorem length_ahead_pass (p : Parser) (w : List Token) :
    (p.pass w).ahead.length = p.ahead.length - w.length :=
  List.length_drop

theorem advance_eq_pass {p : Parser} {t : Token} {rest : List Token} (h : p.ahead = t :: rest) :
    p.advance = p.pass [t] := by
  simp [advance, pass, h]

/-! ### Taking a token -/

theorem takeIf?_eq_none {p : Parser} {wanted : TokenKind → Bool}
    (h : ∀ t ∈ p.ahead.head?, wanted t.kind = false) : p.takeIf? wanted = none := by
  refine dif_neg fun hcheck => ?_
  have hpos := length_pos_of_check hcheck
  cases ha : p.ahead with
  | nil => simp [ha] at hpos
  | cons t rest =>
    have hno : wanted t.kind = false := h t (by rw [ha]; rfl)
    simp [check, peek, ha, hno] at hcheck

/-- A parser without a fault takes the next token if it is wanted. -/
theorem takeIf?_eq_some {p : Parser} (wanted : TokenKind → Bool) {t : Token} {rest : List Token}
    (hp : p.fault = none) (ha : p.ahead = t :: rest) (hw : wanted t.kind = true) :
    ∃ h, p.takeIf? wanted = some ⟨t, p.pass [t], h⟩ := by
  have hcheck : p.check wanted = true := by simp [check, isDone, atEnd, peek, ha, hp, hw]
  have hpeek : p.peek = t := by simp [peek, ha]
  have hadv : p.advance = p.pass [t] := advance_eq_pass ha
  have hlt : (p.pass [t]).ahead.length < p.ahead.length := by simp [pass, ha]
  refine ⟨hlt, ?_⟩
  unfold takeIf?
  rw [dif_pos hcheck]
  simp only [hpeek, hadv]

/-! ### Outcomes without their proofs -/

/-- **What a rule returns**: the tree or the fault, and the state after it. -/
def Outcome.view {p : Parser} (o : Outcome p) : Except Fault Expr × Parser := (o.result, o.next)

/-- An outcome is told by its view. -/
theorem Outcome.eq_of_view {p q : Parser} {o : Outcome p} {r : Except Fault Expr}
    (h : o.view = (r, q)) : ∃ hle, o = ⟨r, q, hle⟩ := by
  obtain ⟨result, next, hle⟩ := o
  cases h
  exact ⟨hle, rfl⟩

@[simp] theorem view_since {p q : Parser} (o : Outcome q)
    (h : q.ahead.length ≤ p.ahead.length) : (o.since h).view = o.view := rfl

/-- A fault raised where there is none yet. -/
theorem view_raiseAt {p : Parser} (hp : p.fault = none) (t : Token) (c : Cause) :
    (p.raiseAt t c).view = (.error (.parse ⟨t, c⟩), p.failed (.parse ⟨t, c⟩)) := by
  simp [raiseAt, raise, hp, Outcome.view, failed]

theorem view_newBinary {p : Parser} {t : Token} {op : BinaryOp} (hp : p.fault = none)
    (h : BinaryOp.ofKind? t.kind = some op) (left right : Expr) :
    (p.newBinary left t right).view = (.ok (.binary left op t right), p) := by
  simp [newBinary, hp, h, succeed, Outcome.view]

theorem view_newUnary {p : Parser} {t : Token} {op : UnaryOp} (hp : p.fault = none)
    (h : UnaryOp.ofKind? t.kind = some op) (right : Expr) :
    (p.newUnary t right).view = (.ok (.unary op t right), p) := by
  simp [newUnary, hp, h, succeed, Outcome.view]

variable {p q : Parser} {f : Fault} {level : Level} {t : Token} {rest : List Token}

/-! ### Levels of binary operators -/

theorem view_binary_error (h : (operand level p).view = (.error f, q)) :
    (binary level p).view = (.error f, q) := by
  obtain ⟨hle, ho⟩ := Outcome.eq_of_view h
  rw [binary, ho]
  rfl

theorem view_binary_more {left : Expr} (h : (operand level p).view = (.ok left, q)) :
    (binary level p).view = (more level left q).view := by
  obtain ⟨hle, ho⟩ := Outcome.eq_of_view h
  rw [binary, ho]
  rfl

/-- Without an operator of the level the level ends. -/
theorem view_more_stop (h : ∀ t ∈ p.ahead.head?, operator? level t.kind = none) (left : Expr) :
    (more level left p).view = (.ok left, p) := by
  have htake : p.takeIf? level.holds = none :=
    takeIf?_eq_none fun t ht => by rw [holds_eq_isSome, h t ht]; rfl
  rw [more, htake]
  rfl

theorem view_more_error {op : BinaryOp} (hp : p.fault = none) (ha : p.ahead = t :: rest)
    (hop : operator? level t.kind = some op) (left : Expr)
    (h : (operand level (p.pass [t])).view = (.error f, q)) :
    (more level left p).view = (.error f, q) := by
  obtain ⟨hlt, htake⟩ := takeIf?_eq_some level.holds hp ha
    (by rw [holds_eq_isSome, hop]; rfl)
  obtain ⟨hle, ho⟩ := Outcome.eq_of_view h
  rw [more, htake]
  dsimp only
  rw [ho]
  rfl

/-- An operator of the level takes what was read so far as its left operand. -/
theorem view_more_step {op : BinaryOp} {right : Expr} (hp : p.fault = none)
    (ha : p.ahead = t :: rest) (hop : operator? level t.kind = some op) (left : Expr)
    (h : (operand level (p.pass [t])).view = (.ok right, q)) (hq : q.fault = none) :
    (more level left p).view = (more level (.binary left op t right) q).view := by
  obtain ⟨hlt, htake⟩ := takeIf?_eq_some level.holds hp ha
    (by rw [holds_eq_isSome, hop]; rfl)
  obtain ⟨hle, ho⟩ := Outcome.eq_of_view h
  rw [more, htake]
  dsimp only
  rw [ho]
  obtain ⟨hle', hnode⟩ := Outcome.eq_of_view
    (view_newBinary hq (ofKind?_of_operator? hop) left right)
  dsimp only
  rw [hnode]
  rfl

/-! ### Operators in front -/

theorem view_unary_primary (h : ∀ t ∈ p.ahead.head?, frontOperator? t.kind = none) :
    (unary p).view = (primary p).view := by
  have htake : p.takeIf? isUnaryOperator = none :=
    takeIf?_eq_none fun t ht => by rw [isUnaryOperator_eq_isSome, h t ht]; rfl
  rw [unary, htake]

theorem view_unary_error {op : UnaryOp} (hp : p.fault = none) (ha : p.ahead = t :: rest)
    (hop : frontOperator? t.kind = some op) (h : (unary (p.pass [t])).view = (.error f, q)) :
    (unary p).view = (.error f, q) := by
  obtain ⟨hlt, htake⟩ := takeIf?_eq_some isUnaryOperator hp ha
    (by rw [isUnaryOperator_eq_isSome, hop]; rfl)
  obtain ⟨hle, ho⟩ := Outcome.eq_of_view h
  rw [unary, htake]
  dsimp only
  rw [ho]
  rfl

theorem view_unary_step {op : UnaryOp} {right : Expr} (hp : p.fault = none)
    (ha : p.ahead = t :: rest) (hop : frontOperator? t.kind = some op)
    (h : (unary (p.pass [t])).view = (.ok right, q)) (hq : q.fault = none) :
    (unary p).view = (.ok (.unary op t right), q) := by
  obtain ⟨hlt, htake⟩ := takeIf?_eq_some isUnaryOperator hp ha
    (by rw [isUnaryOperator_eq_isSome, hop]; rfl)
  obtain ⟨hle, ho⟩ := Outcome.eq_of_view h
  rw [unary, htake]
  dsimp only
  rw [ho]
  exact view_newUnary hq (by rw [← frontOperator?_eq_ofKind?, hop]) right

/-! ### Literals and parentheses -/

/-- Only a token that is a literal by its kind can have a value. -/
theorem isLiteral_of_literalValue? {v : Value} (h : literalValue? t = some v) :
    isLiteral t.kind = true := by
  unfold literalValue? at h
  split at h <;> simp_all [isLiteral]

theorem view_primary_literal {v : Value} (hp : p.fault = none) (ha : p.ahead = t :: rest)
    (hv : Spells t v) : (primary p).view = (.ok (.literal v), p.pass [t]) := by
  have hvalue : literalValue? t = some v := spells_iff.mp hv
  obtain ⟨hlt, htake⟩ := takeIf?_eq_some isLiteral hp ha (isLiteral_of_literalValue? hvalue)
  rw [primary, htake]
  dsimp only
  rw [hvalue]
  rfl

/-- A literal that has no value is taken all the same, and is the fault. -/
theorem view_primary_invalid (hp : p.fault = none) (ha : p.ahead = t :: rest)
    (hk : isLiteral t.kind = true) (hv : literalValue? t = none) :
    (primary p).view
      = (.error (.parse ⟨t, .invalidNumber⟩),
        (p.pass [t]).failed (.parse ⟨t, .invalidNumber⟩)) := by
  obtain ⟨hlt, htake⟩ := takeIf?_eq_some isLiteral hp ha hk
  rw [primary, htake]
  dsimp only
  rw [hv]
  exact view_raiseAt (p := p.pass [t]) hp t .invalidNumber

theorem view_primary_grouping (h : ∀ t ∈ p.ahead.head?, isLiteral t.kind = false) :
    (primary p).view = (grouping p).view := by
  rw [primary, takeIf?_eq_none h]

/-- Where no operand starts the next token is the fault. -/
theorem view_grouping_unexpected (hp : p.fault = none)
    (h : ∀ t ∈ p.ahead.head?, t.kind ≠ .leftParen) :
    (grouping p).view
      = (.error (.parse ⟨p.peek, .unexpectedToken⟩),
        p.failed (.parse ⟨p.peek, .unexpectedToken⟩)) := by
  have htake : p.takeIf? (· == .leftParen) = none :=
    takeIf?_eq_none fun t ht => beq_eq_false_iff_ne.mpr (h t ht)
  rw [grouping, htake]
  exact view_raiseAt hp p.peek .unexpectedToken

theorem view_grouping_error (hp : p.fault = none) (ha : p.ahead = t :: rest)
    (hk : t.kind = .leftParen) (h : (binary .equality (p.pass [t])).view = (.error f, q)) :
    (grouping p).view = (.error f, q) := by
  obtain ⟨hlt, htake⟩ := takeIf?_eq_some (· == .leftParen) hp ha (by simp [hk])
  obtain ⟨hle, ho⟩ := Outcome.eq_of_view h
  rw [grouping, htake]
  dsimp only
  rw [ho]
  rfl

/-- The parenthesis is closed. -/
theorem view_grouping_close {inner : Expr} {t' : Token} {rest' : List Token} (hp : p.fault = none)
    (ha : p.ahead = t :: rest) (hk : t.kind = .leftParen)
    (h : (binary .equality (p.pass [t])).view = (.ok inner, q)) (hq : q.fault = none)
    (ha' : q.ahead = t' :: rest') (hk' : t'.kind = .rightParen) :
    (grouping p).view = (.ok (.grouping inner), q.pass [t']) := by
  obtain ⟨hlt, htake⟩ := takeIf?_eq_some (· == .leftParen) hp ha (by simp [hk])
  obtain ⟨hle, ho⟩ := Outcome.eq_of_view h
  rw [grouping, htake]
  dsimp only
  rw [ho]
  obtain ⟨hlt', htake'⟩ := takeIf?_eq_some (· == .rightParen) hq ha' (by simp [hk'])
  dsimp only
  rw [htake']
  rfl

/-- The parenthesis is left open. -/
theorem view_grouping_unclosed {inner : Expr} (hp : p.fault = none) (ha : p.ahead = t :: rest)
    (hk : t.kind = .leftParen) (h : (binary .equality (p.pass [t])).view = (.ok inner, q))
    (hq : q.fault = none) (hno : ∀ t' ∈ q.ahead.head?, t'.kind ≠ .rightParen) :
    (grouping p).view
      = (.error (.parse ⟨q.peek, .expectedRightParen⟩),
        q.failed (.parse ⟨q.peek, .expectedRightParen⟩)) := by
  obtain ⟨hlt, htake⟩ := takeIf?_eq_some (· == .leftParen) hp ha (by simp [hk])
  obtain ⟨hle, ho⟩ := Outcome.eq_of_view h
  rw [grouping, htake]
  dsimp only
  rw [ho]
  have htake' : q.takeIf? (· == .rightParen) = none :=
    takeIf?_eq_none fun t' ht' => beq_eq_false_iff_ne.mpr (hno t' ht')
  dsimp only
  rw [htake']
  exact view_raiseAt hq q.peek .expectedRightParen

end Lox.Parser
