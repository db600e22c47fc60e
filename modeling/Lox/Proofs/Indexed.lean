import Lox.Parser.Program
import Lox.Proofs.Drafts

/-!
# The parser in place

`Parser` splits its tokens at its place, hands faults up as results and gives no token back by its
types, so it can neither look beside its tokens, nor put a missing operand into a tree, nor run on
for ever. This file has the parser without these guards: an index into a list of tokens and a fault
beside it, moved and set by instructions that run one after another. Reading outside the list goes
wrong; a rule whose operand is missing still runs to its end, and every rule has to look at the
fault for itself; rules and loops run until they stop, and all that bounds them is a limit on nested
calls that stands for any number.

- `Indexed`: the state; `Indexed.Run`: a run on it, which goes wrong as `none`.
- `Indexed.Gives`: the run comes to an end with a result, whatever the limit, if it is large enough.
- `Indexed.peek`, `Indexed.previous`, `Indexed.advance`, `Indexed.accept`: looking and moving.
- `Indexed.binary` to `Indexed.grouping`, `Indexed.statement`: the rules, each with its loop.
- `Indexed.synchronize`, `Indexed.rounds`: recovery, and the loop over statements with a log.
- `Indexed.parse`, `Indexed.parseAll`: whole inputs.
- `Parser.indexed`: a parser as such a state.
-/

namespace Lox

/-- **A parser as an index into its tokens.** -/
structure Indexed where
  tokens : List Token
  /-- The index of the next token. -/
  current : Nat
  /-- The first fault met. -/
  fault : Option Fault

/-- **The state of a parser** with the tokens `behind` behind the end token. -/
def Parser.indexed (p : Parser) (behind : List Token) : Indexed where
  tokens := p.passed.reverse ++ p.ahead ++ p.finish :: behind
  current := p.position
  fault := p.fault

namespace Indexed

open Lox.Parser (Level isUnaryOperator closed)

/-- The state before the first of `tokens`. -/
def ofTokens (tokens : List Token) : Indexed where
  tokens := closed tokens
  current := 0
  fault := none

/-- The index of the first end token. -/
def firstEnd (m : Indexed) : Nat := m.tokens.findIdx (·.kind == .eof)

/-- **There is a token at the index**: the first end token, or one before it. -/
structure InRange (m : Indexed) : Prop where
  current_le : m.current ≤ m.firstEnd
  firstEnd_lt : m.firstEnd < m.tokens.length

/-- **A run that changes the state and returns something.** It is `none` if a token outside the list
is read, or if calls are nested deeper than the limit of the run. -/
abbrev Run (α : Type) := StateT Indexed Option α

/-- **The run comes to an end with the result `r`**: under every limit that is large enough. -/
def Gives {α : Type} (run : Nat → Run α) (m : Indexed) (r : α × Indexed) : Prop :=
  ∃ limit, ∀ n, limit ≤ n → run n m = some r

/-- A run has one result. -/
theorem Gives.unique {α : Type} {run : Nat → Run α} {m : Indexed} {r r' : α × Indexed}
    (h : Gives run m r) (h' : Gives run m r') : r = r' := by
  obtain ⟨limit, hrun⟩ := h
  obtain ⟨limit', hrun'⟩ := h'
  have heq := (hrun (max limit limit') (Nat.le_max_left _ _)).symm.trans
    (hrun' (max limit limit') (Nat.le_max_right _ _))
  exact Option.some.inj heq

/-! ### Looking and moving -/

/-- The next token. -/
def peek : Run Token := fun m => (m.tokens[m.current]?).map (·, m)

/-- **The token before the next one.** Before the first token there is none, and looking goes
wrong. -/
def previous : Run Token := fun m =>
  match m.current with
  | 0 => none
  | i + 1 => (m.tokens[i]?).map (·, m)

/-- The next token is an end token. -/
def isAtEnd : Run Bool := do
  return (← peek).kind == .eof

/-- There is a fault. -/
def hasFault : Run Bool := do
  return (← get).fault.isSome

/-- Nothing more will be taken. -/
def isDone : Run Bool := do
  return (← isAtEnd) || (← hasFault)

/-- **Moves over the next token and returns it.** At the end the index stays. -/
def advance : Run Token := do
  if ← isAtEnd then peek
  else
    modify fun m => { m with current := m.current + 1 }
    previous

/-- The next token is of a wanted kind and may be taken. -/
def check (wanted : TokenKind → Bool) : Run Bool := do
  if ← isDone then return false
  return wanted (← peek).kind

/-- **Moves over the next token if it is of a wanted kind**, and says whether it did. -/
def accept (wanted : TokenKind → Bool) : Run Bool := do
  if ← check wanted then
    let _ ← advance
    return true
  return false

/-! ### Faults and nodes -/

/-- Sets the fault, unless there is one already. There is no tree then. -/
def raise (f : Fault) : Run Draft := do
  if ← hasFault then return .missing
  modify fun m => { m with fault := some f }
  return .missing

/-- A fault at a token. -/
def raiseAt (t : Token) (c : Cause) : Run Draft :=
  raise (.parse ⟨t, c⟩)

/-- A fault at the next token. -/
def raiseHere (c : Cause) : Run Draft := do
  raiseAt (← peek) c

/-- Forgets the fault. -/
def clearFault : Run Unit :=
  modify fun m => { m with fault := none }

/-- The node of a binary operator, whatever its operands are. -/
def newBinary (left : Draft) (operator : Token) (right : Draft) : Run Draft := do
  if ← hasFault then return .missing
  match BinaryOp.ofKind? operator.kind with
  | some op => return .binary left op.code operator right
  | none => raise (.noOperator operator.kind)

/-- The node of a unary operator, whatever its operand is. -/
def newUnary (operator : Token) (right : Draft) : Run Draft := do
  if ← hasFault then return .missing
  match UnaryOp.ofKind? operator.kind with
  | some op => return .unary op.code operator right
  | none => raise (.noOperator operator.kind)

/-! ### The rules

The first argument of a rule is the number of calls that may still be nested, and nothing but that.
That it is never used up is proved for every state of a parser, together with what the rules
return. -/

mutual

/-- **A level of binary operators.** -/
def binary : Nat → Level → Run Draft
  | 0, _ => failure
  | n + 1, level => do
    more n level (← operand n level)

/-- The operands of a level. -/
def operand : Nat → Level → Run Draft
  | 0, _ => failure
  | n + 1, .equality => binary n .comparison
  | n + 1, .comparison => binary n .term
  | n + 1, .term => binary n .factor
  | n + 1, .factor => unary n

/-- The loop of a level behind the operand `left`. -/
def more : Nat → Level → Draft → Run Draft
  | 0, _, _ => failure
  | n + 1, level, left => do
    if ← accept level.holds then
      let operator ← previous
      let right ← operand n level
      more n level (← newBinary left operator right)
    else
      return left

/-- **Operators in front**, or a primary expression. -/
def unary : Nat → Run Draft
  | 0 => failure
  | n + 1 => do
    if ← accept isUnaryOperator then
      let operator ← previous
      newUnary operator (← unary n)
    else
      primary n

/-- **A literal**, or an expression in parentheses. -/
def primary : Nat → Run Draft
  | 0 => failure
  | n + 1 => do
    if ← accept (· == .falseWord) then return .literal (.bool false)
    if ← accept (· == .trueWord) then return .literal (.bool true)
    if ← accept (· == .nilWord) then return .literal .nil
    if ← accept (· == .number) then
      let t ← previous
      match Number.read? t.literal with
      | some value => return .literal (.number value)
      | none => raiseAt t .invalidNumber
    else if ← accept (· == .string) then
      let t ← previous
      return .literal (.string t.literal)
    else
      grouping n

/-- **An expression in parentheses.** -/
def grouping : Nat → Run Draft
  | 0 => failure
  | n + 1 => do
    if ← accept (· == .leftParen) then
      let inner ← binary n .equality
      if ← accept (· == .rightParen) then return .grouping inner
      else raiseHere .expectedRightParen
    else
      raiseHere .unexpectedToken

end

/-- **An expression**, the loosest level. -/
def expression (n : Nat) : Run Draft :=
  binary n .equality

/-- **An expression closed by a semicolon** or by the end of the input. -/
def statement (n : Nat) : Run Draft := do
  let tree ← expression n
  if ← hasFault then return tree
  if ← accept (· == .semicolon) then return tree
  if ← isAtEnd then return tree
  raiseHere .expectedSemicolon

/-! ### Recovery -/

/-- Moves on to the next boundary. -/
def toBoundary : Nat → Run Unit
  | 0 => failure
  | n + 1 => do
    if ← isAtEnd then return
    if (← previous).kind == .semicolon then return
    if (← peek).kind.startsStatement then return
    let _ ← advance
    toBoundary n

/-- **Moves over at least one token and on to the next boundary.** -/
def synchronize (n : Nat) : Run Unit := do
  let _ ← advance
  toBoundary n

/-! ### Whole inputs -/

/-- Tokens behind the expression are a fault. -/
def expectEnd : Run Unit := do
  if ← hasFault then return
  if ← isAtEnd then return
  let _ ← raiseHere .expectedEnd

/-- **Parses one expression** that must reach to the end. Returns the tree and the fault. -/
def parse (n : Nat) : Run (Draft × Option Fault) := do
  let tree ← expression n
  expectEnd
  match (← get).fault with
  | some f => return (.missing, some f)
  | none => return (tree, none)

/-- **One round of the loop over statements**: where it starts, where its statement halts, and what
the statement returns. -/
structure Round where
  start : Nat
  halt : Nat
  outcome : Except Fault Draft

/-- A statement, and recovery if it has a fault. -/
def round (n : Nat) : Run Round := do
  let start := (← get).current
  let tree ← statement n
  let halt := (← get).current
  match (← get).fault with
  | some f =>
    synchronize n
    clearFault
    return ⟨start, halt, .error f⟩
  | none => return ⟨start, halt, .ok tree⟩

/-- **The loop over statements**, with a log of its rounds. -/
def rounds : Nat → Run (List Round)
  | 0 => failure
  | n + 1 => do
    if ← isAtEnd then return []
    let first ← round n
    return first :: (← rounds n)

/-- The faults of a log. -/
def faults (log : List Round) : List Fault :=
  log.filterMap fun r => match r.outcome with
    | .error f => some f
    | .ok _ => none

/-- **The place of the token that a fault is about**: the next token when the statement halts, or
the one just taken if it is a number that cannot be read. -/
def Round.place (r : Round) : Nat :=
  match r.outcome with
  | .error (.parse e) => if e.cause = .invalidNumber then r.halt - 1 else r.halt
  | _ => r.halt

/-- The places of the faults of a log. -/
def places (log : List Round) : List Nat :=
  log.filterMap fun r => match r.outcome with
    | .error _ => some r.place
    | .ok _ => none

/-- The trees of a log. -/
def trees (log : List Round) : List Draft :=
  log.filterMap fun r => match r.outcome with
    | .error _ => none
    | .ok tree => some tree

/-- **Parses a list of statements.** Returns the trees, or the faults as one and no tree. -/
def parseAll (n : Nat) : Run (List Draft × Option Fault) := do
  let log ← rounds n
  match Fault.join ((faults log).map some) with
  | some f => return ([], some f)
  | none => return (trees log, none)

end Indexed

end Lox
