import Lox.Expr.Basic
import Lox.Fault.Basic

/-!
# The parser's state

A parser walks along a list of tokens and keeps the first fault it meets. Its place is a split of
the list: the tokens passed, the tokens ahead, the end token and whatever stands behind that. It
never goes past the first end token, so what stands behind it has no influence on anything. Once
there is a fault the parser takes no more tokens, and later faults are not recorded.

* `Parser`, `Parser.ofTokens`: the state, and the state before the first token.
* `Parser.peek`, `Parser.previous?`, `Parser.advance`: looking and moving.
* `Parser.takeIf?`: takes the next token if it is of a wanted kind; all rules move by it.
* `Parser.synchronize`: passes over tokens up to the next likely start of a statement.
-/

namespace Lox

/-- **The state of a parser.** -/
structure Parser where
  /-- The tokens passed, the latest first. -/
  passed : List Token
  /-- The tokens ahead, up to the end token. -/
  ahead : List Token
  /-- The first end token. -/
  finish : Token
  /-- The tokens behind the end token. -/
  behind : List Token
  /-- The first fault met. -/
  fault : Option Fault
  deriving Inhabited

namespace Parser

/-- The tokens with an end token added if the last one is none, on the line of the last one. -/
def closed (tokens : List Token) : List Token :=
  match tokens.getLast? with
  | none => [.eof 1]
  | some last => if last.kind = .eof then tokens else tokens ++ [.eof last.line]

/-- The token is no end token. -/
def isInner (t : Token) : Bool := t.kind != .eof

/-- **The parser before the first of `tokens`.** -/
def ofTokens (tokens : List Token) : Parser :=
  let tail := (closed tokens).dropWhile isInner
  { passed := []
    ahead := (closed tokens).takeWhile isInner
    finish := tail.headD (.eof 1)
    behind := tail.drop 1
    fault := none }

/-- All tokens, wherever the parser stands. -/
def tokens (p : Parser) : List Token :=
  p.passed.reverse ++ p.ahead ++ p.finish :: p.behind

/-- The number of tokens passed: the index of the next token. -/
def position (p : Parser) : Nat := p.passed.length

/-- **The next token**; at the end, the end token. -/
def peek (p : Parser) : Token := p.ahead.headD p.finish

/-- **The token passed last**, if there is one. -/
def previous? (p : Parser) : Option Token := p.passed.head?

/-- The next token is the end token. -/
def atEnd (p : Parser) : Bool := p.ahead.isEmpty

/-- Nothing more will be taken: the end is reached or there is a fault. -/
def isDone (p : Parser) : Bool := p.atEnd || p.fault.isSome

/-- **Passes over the next token.** At the end the parser stays where it is. -/
def advance (p : Parser) : Parser :=
  match p.ahead with
  | [] => p
  | t :: rest => { p with passed := t :: p.passed, ahead := rest }

/-- The next token is of a wanted kind and may be taken. -/
def check (p : Parser) (wanted : TokenKind → Bool) : Bool :=
  !p.isDone && wanted p.peek.kind

theorem length_advance (p : Parser) : p.advance.ahead.length = p.ahead.length - 1 := by
  unfold advance
  split <;> simp_all

/-- A token that may be taken is ahead. -/
theorem length_pos_of_check {p : Parser} {wanted : TokenKind → Bool} (h : p.check wanted = true) :
    0 < p.ahead.length := by
  refine List.length_pos_iff.mpr fun hnil => ?_
  simp [check, isDone, atEnd, hnil] at h

/-- **A token taken** in state `p`, and the state after it, which has fewer tokens ahead. -/
structure Taken (p : Parser) where
  token : Token
  next : Parser
  length_lt : next.ahead.length < p.ahead.length

/-- **Takes the next token if it is of a wanted kind.** Nothing is taken at the end or after a
fault. -/
def takeIf? (p : Parser) (wanted : TokenKind → Bool) : Option (Taken p) :=
  if h : p.check wanted = true then
    some ⟨p.peek, p.advance, by
      have := length_pos_of_check h
      rw [length_advance]
      omega⟩
  else none

/-- Forgets the fault. -/
def clearFault (p : Parser) : Parser := { p with fault := none }

/-! ### Recovery -/

/-- The last of the tokens passed ends a statement. -/
def endsStatement (passed : List Token) : Bool :=
  match passed with
  | t :: _ => t.kind == .semicolon
  | [] => false

/-- Passes over `ahead` up to a boundary: behind a semicolon, or before a reserved word that starts
a statement. -/
def toBoundary (passed : List Token) : List Token → List Token × List Token
  | [] => (passed, [])
  | t :: rest =>
    if endsStatement passed || t.kind.startsStatement then (passed, t :: rest)
    else toBoundary (t :: passed) rest

/-- **Passes over at least one token and on to the next boundary.** -/
def synchronize (p : Parser) : Parser :=
  let q := p.advance
  let split := toBoundary q.passed q.ahead
  { q with passed := split.1, ahead := split.2 }

/-! ### Recovery makes progress -/

theorem length_toBoundary_le (passed ahead : List Token) :
    (toBoundary passed ahead).2.length ≤ ahead.length := by
  induction ahead generalizing passed with
  | nil => exact Nat.le_refl _
  | cons t rest ih =>
    unfold toBoundary
    split
    · exact Nat.le_refl _
    · exact Nat.le_succ_of_le (ih _)

/-- Recovery passes over a token unless none is left. -/
theorem length_synchronize_le (p : Parser) :
    p.synchronize.ahead.length ≤ p.ahead.length - 1 := by
  have h := length_toBoundary_le p.advance.passed p.advance.ahead
  rwa [length_advance] at h

/-! ### Texts -/

/-- The text of a fault that may be absent. -/
def faultText : Option Fault → String
  | some f => f.message
  | none => "<nil>"

/-- A short description of a parser. -/
def brief (p : Parser) : String :=
  "parser\x7btokens: " ++ toString p.tokens.length ++ ", err: " ++ faultText p.fault ++ "\x7d"

/-- The whole state of a parser without a fault: its tokens and its place. -/
def dump? (p : Parser) : Option String :=
  match p.fault with
  | some _ => none
  | none =>
    some ("parser\x7btokens: []token.Token\x7b" ++ ", ".intercalate (p.tokens.map Token.dump)
      ++ "\x7d, current: " ++ toString p.position ++ ", err: <nil>\x7d")

end Parser

end Lox
