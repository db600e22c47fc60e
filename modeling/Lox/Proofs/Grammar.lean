import Lox.Parser.Rules

/-!
# The grammar of expressions

Which token lists are expressions, and which tree each of them stands for, said without a parser:

    equality   = comparison (("!=" | "==") comparison)*
    comparison = term ((">" | ">=" | "<" | "<=") term)*
    term       = factor (("-" | "+") factor)*
    factor     = unary (("/" | "*") unary)*
    unary      = ("!" | "-") unary | primary
    primary    = "false" | "true" | "nil" | number | string | "(" equality ")"

- `Derives c w e`: the tokens `w` are of category `c` and stand for the tree `e`. The repeated part
  of a level is written left-recursively, which makes its operators associate to the left.
- `Sentence w`: the tokens `w` are a whole expression.
- `Expr.marks`, `Token.mark?`: what a tree and a token list say, read from left to right.
  `Derives.map_mark?`: they say the same, so a derivation leaves no token out and uses none twice.
-/

namespace Lox.Grammar

open Lox.Parser (Level)

/-- **The categories of the grammar.** -/
inductive Category where
  /-- Operands joined by the operators of a level. -/
  | level (l : Level)
  /-- An operand behind any number of operators. -/
  | unary
  /-- A literal, or an expression in parentheses. -/
  | primary
  deriving DecidableEq, Repr

/-- What the operators of a level join. -/
def operands : Level → Category
  | .equality => .level .comparison
  | .comparison => .level .term
  | .term => .level .factor
  | .factor => .unary

/-- The operator that a token of this kind denotes between two operands of a level. -/
def operator? : Level → TokenKind → Option BinaryOp
  | .equality, .bangEqual => some .notEqual
  | .equality, .equalEqual => some .equal
  | .comparison, .greater => some .greater
  | .comparison, .greaterEqual => some .greaterEqual
  | .comparison, .less => some .less
  | .comparison, .lessEqual => some .lessEqual
  | .term, .minus => some .subtract
  | .term, .plus => some .add
  | .factor, .slash => some .divide
  | .factor, .star => some .multiply
  | _, _ => none

/-- The operator that a token of this kind denotes in front of its operand. -/
def frontOperator? : TokenKind → Option UnaryOp
  | .bang => some .not
  | .minus => some .negate
  | _ => none

/-- **The token spells the value.** A number does so only if its text can be read; a number too
large to be represented still can, as an infinity. -/
inductive Spells (t : Token) : Value → Prop
  | no : t.kind = .falseWord → Spells t (.bool false)
  | yes : t.kind = .trueWord → Spells t (.bool true)
  | nothing : t.kind = .nilWord → Spells t .nil
  | number {n : Number} : t.kind = .number → Number.read? t.literal = some n →
      Spells t (.number n)
  | string : t.kind = .string → Spells t (.string t.literal)

/-- **The tokens `w` are of category `c` and stand for the tree `e`.** -/
inductive Derives : Category → List Token → Expr → Prop
  | operand {l : Level} {w : List Token} {e : Expr} :
      Derives (operands l) w e → Derives (.level l) w e
  | binary {l : Level} {u v : List Token} {left right : Expr} {t : Token} {op : BinaryOp} :
      Derives (.level l) u left → operator? l t.kind = some op → Derives (operands l) v right →
      Derives (.level l) (u ++ t :: v) (.binary left op t right)
  | primary {w : List Token} {e : Expr} : Derives .primary w e → Derives .unary w e
  | unary {w : List Token} {right : Expr} {t : Token} {op : UnaryOp} :
      frontOperator? t.kind = some op → Derives .unary w right →
      Derives .unary (t :: w) (.unary op t right)
  | literal {t : Token} {v : Value} : Spells t v → Derives .primary [t] (.literal v)
  | grouping {w : List Token} {inner : Expr} {opening closing : Token} :
      opening.kind = .leftParen → Derives (.level .equality) w inner →
      closing.kind = .rightParen →
      Derives .primary (opening :: (w ++ [closing])) (.grouping inner)

/-- **The tokens are a whole expression.** -/
def Sentence (w : List Token) : Prop := ∃ e, Derives (.level .equality) w e

/-! ### What is read from left to right -/

/-- **What one token says in an expression**: the value of a literal, the operator token itself, or
a parenthesis. -/
inductive Mark where
  | value (v : Value)
  | operator (t : Token)
  | opening
  | closing
  deriving DecidableEq, Repr

end Lox.Grammar

namespace Lox

open Grammar (Mark)

/-- **The marks of a tree** from left to right. -/
def Expr.marks : Expr → List Mark
  | literal v => [.value v]
  | grouping inner => .opening :: (inner.marks ++ [.closing])
  | unary _ t right => .operator t :: right.marks
  | binary left _ t right => left.marks ++ .operator t :: right.marks

/-- **The mark of a token**, `none` for a token that no expression contains. -/
def Token.mark? (t : Token) : Option Mark :=
  match t.kind with
  | .leftParen => some .opening
  | .rightParen => some .closing
  | .bang | .minus | .plus | .star | .slash => some (.operator t)
  | .bangEqual | .equalEqual | .greater | .greaterEqual | .less | .lessEqual => some (.operator t)
  | .falseWord => some (.value (.bool false))
  | .trueWord => some (.value (.bool true))
  | .nilWord => some (.value .nil)
  | .number => (Number.read? t.literal).map fun n => .value (.number n)
  | .string => some (.value (.string t.literal))
  | _ => none

namespace Grammar

open Lox.Parser (Level)

theorem mark?_of_spells {t : Token} {v : Value} (h : Spells t v) : t.mark? = some (.value v) := by
  cases h with
  | no h => simp [Token.mark?, h]
  | yes h => simp [Token.mark?, h]
  | nothing h => simp [Token.mark?, h]
  | number h hn => simp [Token.mark?, h, hn]
  | string h => simp [Token.mark?, h]

theorem mark?_of_operator? {l : Level} {t : Token} {op : BinaryOp}
    (h : operator? l t.kind = some op) : t.mark? = some (.operator t) := by
  unfold operator? at h
  unfold Token.mark?
  split at h <;> simp_all

theorem mark?_of_frontOperator? {t : Token} {op : UnaryOp}
    (h : frontOperator? t.kind = some op) : t.mark? = some (.operator t) := by
  unfold frontOperator? at h
  unfold Token.mark?
  split at h <;> simp_all

/-- **Nothing is left out and nothing used twice**: the tokens of a derivation and its tree say the
same from left to right. -/
theorem Derives.map_mark? {c : Category} {w : List Token} {e : Expr} (h : Derives c w e) :
    w.map Token.mark? = e.marks.map some := by
  induction h with
  | operand _ ih => exact ih
  | binary _ hop _ ihl ihr =>
    simp only [List.map_append, List.map_cons, Expr.marks, ihl, ihr, mark?_of_operator? hop]
  | primary _ ih => exact ih
  | unary hop _ ih => simp only [List.map_cons, Expr.marks, ih, mark?_of_frontOperator? hop]
  | literal hv => simp only [List.map_cons, List.map_nil, Expr.marks, mark?_of_spells hv]
  | @grouping w inner opening closing ho _ hc ih =>
    have hopen : opening.mark? = some .opening := by simp [Token.mark?, ho]
    have hclose : closing.mark? = some .closing := by simp [Token.mark?, hc]
    simp only [List.map_append, List.map_cons, List.map_nil, Expr.marks, ih, hopen, hclose]

/-! ### The grammar's tables and the parser's -/

/-- The parser takes a token at a level exactly if it denotes an operator there. -/
theorem holds_eq_isSome (l : Level) (k : TokenKind) : l.holds k = (operator? l k).isSome := by
  cases l <;> cases k <;> rfl

theorem ofKind?_of_operator? {l : Level} {k : TokenKind} {op : BinaryOp}
    (h : operator? l k = some op) : BinaryOp.ofKind? k = some op := by
  unfold operator? at h
  split at h <;> simp_all [BinaryOp.ofKind?]

/-- Every operator between operands belongs to a level. -/
theorem exists_operator?_of_ofKind? {k : TokenKind} {op : BinaryOp}
    (h : BinaryOp.ofKind? k = some op) : ∃ l, operator? l k = some op := by
  unfold BinaryOp.ofKind? at h
  split at h
  · exact ⟨.equality, h⟩
  · exact ⟨.equality, h⟩
  · exact ⟨.comparison, h⟩
  · exact ⟨.comparison, h⟩
  · exact ⟨.comparison, h⟩
  · exact ⟨.comparison, h⟩
  · exact ⟨.term, h⟩
  · exact ⟨.term, h⟩
  · exact ⟨.factor, h⟩
  · exact ⟨.factor, h⟩
  · cases h

/-- No token denotes operators of two levels. -/
theorem level_unique {l l' : Level} {k : TokenKind} {op op' : BinaryOp}
    (h : operator? l k = some op) (h' : operator? l' k = some op') : l = l' := by
  cases k <;> cases l <;> cases h <;> cases l' <;> cases h' <;> rfl

theorem frontOperator?_eq_ofKind? (k : TokenKind) : frontOperator? k = UnaryOp.ofKind? k := by
  cases k <;> rfl

theorem isUnaryOperator_eq_isSome (k : TokenKind) :
    Parser.isUnaryOperator k = (frontOperator? k).isSome := by
  cases k <;> rfl

theorem spells_iff {t : Token} {v : Value} :
    Spells t v ↔ Parser.literalValue? t = some v := by
  constructor
  · intro h
    cases h with
    | no h => simp [Parser.literalValue?, h]
    | yes h => simp [Parser.literalValue?, h]
    | nothing h => simp [Parser.literalValue?, h]
    | number h hn => simp [Parser.literalValue?, h, hn]
    | string h => simp [Parser.literalValue?, h]
  · intro h
    unfold Parser.literalValue? at h
    split at h
    next hk => cases h; exact .no hk
    next hk => cases h; exact .yes hk
    next hk => cases h; exact .nothing hk
    next hk =>
      obtain ⟨n, hn, rfl⟩ := Option.map_eq_some_iff.mp h
      exact .number hk hn
    next hk => cases h; exact .string hk
    next => cases h

end Grammar

end Lox
