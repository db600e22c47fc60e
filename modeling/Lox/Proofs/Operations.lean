import Lox.Proofs.Rounds

/-!
# Any operations in any order

A parser can be worked with from outside: its parts can be called one by one, in any order, with and
without a fault, and with nodes made of any operands. Whatever is called, the parser in place stays
in front of its first end token and never reads beside its tokens, and what stands behind the end
token shows in nothing.

- `Rule`, `Operation`, `Answer`: what can be called, and what it returns.
- `Operation.run`, `Operation.perform`: an operation in place, and the same on a `Parser`.
- `Operation.run_map_ofExpr`: the two agree; `Operation.exists_run`: an operation always has an
  answer, whatever its operands are.
- `operations_stay_in_tokens`: the same for any number of operations from the first token on.
-/

namespace Lox

open Lox.Parser (Level closed)

/-- **Enough nested calls** for all that a parser has ahead. -/
def Parser.depth (p : Parser) : Nat := 20 * p.ahead.length + 20

theorem Parser.Reaches.depth_le {p q : Parser} (h : p.Reaches q) : q.depth ≤ p.depth := by
  have := h.length_ahead_le
  unfold Parser.depth
  omega

/-- **The rules of the grammar.** -/
inductive Rule where
  | statement | expression
  | level (l : Level)
  | unary | primary | grouping
  deriving DecidableEq, Repr

namespace Rule

/-- A rule in place, with at most `n` nested calls. -/
def run (rule : Rule) (n : Nat) : Indexed.Run Draft :=
  match rule with
  | statement => Indexed.statement n
  | expression => Indexed.expression n
  | level l => Indexed.binary n l
  | unary => Indexed.unary n
  | primary => Indexed.primary n
  | grouping => Indexed.grouping n

/-- A rule on a parser. -/
def outcome (rule : Rule) (p : Parser) : Parser.Outcome p :=
  match rule with
  | statement => p.statement
  | expression => p.expression
  | level l => Parser.binary l p
  | unary => p.unary
  | primary => p.primary
  | grouping => p.grouping

/-- **Every rule in place does what the rule does.** -/
theorem follows (rule : Rule) {p : Parser} {n : Nat} (hp : p.Proper) (hn : p.depth ≤ n) :
    Indexed.Follows (rule.run n) p (rule.outcome p).view := by
  have hn : 20 * p.ahead.length + 20 ≤ n := hn
  cases rule with
  | statement => exact Indexed.follows_statement n p hp (by omega)
  | expression => exact Indexed.follows_binary n .equality p hp (by simp only [Level.rank]; omega)
  | level l =>
    have hrank : l.rank ≤ 4 := by cases l <;> decide
    exact Indexed.follows_binary n l p hp (by omega)
  | unary => exact Indexed.follows_unary n p hp (by omega)
  | primary => exact Indexed.follows_primary n p hp (by omega)
  | grouping => exact Indexed.follows_grouping n p hp (by omega)

theorem gives (rule : Rule) {p : Parser} (behind : List Token) (hp : p.Proper) :
    Indexed.Gives rule.run (p.indexed behind)
      (.ofResult (rule.outcome p).result, (rule.outcome p).next.indexed behind) :=
  ⟨p.depth, fun _ hn => (rule.follows hp hn).run_eq behind⟩

theorem reaches (rule : Rule) {p : Parser} (hp : p.Proper) : p.Reaches (rule.outcome p).next :=
  (rule.follows hp (Nat.le_refl _)).reaches

end Rule

/-- **What can be called on a parser.** Nodes are made of trees of type `Tree`. -/
inductive Operation (Tree : Type) where
  | peek | advance | isAtEnd | isDone
  | check (kind : TokenKind)
  | accept (kind : TokenKind)
  | acceptAny (kinds : List TokenKind)
  | synchronize | clearFault
  | newBinary (left : Tree) (operator : Token) (right : Tree)
  | newUnary (operator : Token) (right : Tree)
  | rule (r : Rule)
  | parse | parseAll

/-- **What an operation returns.** -/
inductive Answer where
  | done
  | token (t : Token)
  | bool (b : Bool)
  | tree (d : Draft)
  | one (handed : Draft × Option Fault)
  | all (handed : List Draft × Option Fault)

namespace Operation

/-- The same operation with other trees. -/
def map {Tree Tree' : Type} (f : Tree → Tree') : Operation Tree → Operation Tree'
  | peek => peek
  | advance => advance
  | isAtEnd => isAtEnd
  | isDone => isDone
  | check kind => check kind
  | accept kind => accept kind
  | acceptAny kinds => acceptAny kinds
  | synchronize => synchronize
  | clearFault => clearFault
  | newBinary left operator right => newBinary (f left) operator (f right)
  | newUnary operator right => newUnary operator (f right)
  | rule r => rule r
  | parse => parse
  | parseAll => parseAll

/-- **An operation in place**, with at most `n` nested calls. -/
def run (op : Operation Draft) (n : Nat) : Indexed.Run Answer :=
  match op with
  | peek => return .token (← Indexed.peek)
  | advance => return .token (← Indexed.advance)
  | isAtEnd => return .bool (← Indexed.isAtEnd)
  | isDone => return .bool (← Indexed.isDone)
  | check kind => return .bool (← Indexed.check (· == kind))
  | accept kind => return .bool (← Indexed.accept (· == kind))
  | acceptAny kinds => return .bool (← Indexed.accept kinds.contains)
  | synchronize => do Indexed.synchronize n; return .done
  | clearFault => do Indexed.clearFault; return .done
  | newBinary left operator right => return .tree (← Indexed.newBinary left operator right)
  | newUnary operator right => return .tree (← Indexed.newUnary operator right)
  | rule r => return .tree (← r.run n)
  | parse => return .one (← Indexed.parse n)
  | parseAll => return .all (← Indexed.parseAll n)

/-- Takes the next token if it is of a wanted kind. -/
def take (p : Parser) (wanted : TokenKind → Bool) : Answer × Parser :=
  match p.takeIf? wanted with
  | some taken => (.bool true, taken.next)
  | none => (.bool false, p)

/-- **An operation on a parser.** -/
def perform (op : Operation Expr) (p : Parser) : Answer × Parser :=
  match op with
  | peek => (.token p.peek, p)
  | advance => (.token p.peek, p.advance)
  | isAtEnd => (.bool p.atEnd, p)
  | isDone => (.bool p.isDone, p)
  | check kind => (.bool (p.check (· == kind)), p)
  | accept kind => take p (· == kind)
  | acceptAny kinds => take p kinds.contains
  | synchronize => (.done, p.synchronize)
  | clearFault => (.done, p.clearFault)
  | newBinary left operator right =>
    (.tree (.ofResult (p.newBinary left operator right).result),
      (p.newBinary left operator right).next)
  | newUnary operator right =>
    (.tree (.ofResult (p.newUnary operator right).result), (p.newUnary operator right).next)
  | rule r => (.tree (.ofResult (r.outcome p).result), (r.outcome p).next)
  | parse => (.one (Draft.handed p.parse.result), p.parse.next)
  | parseAll => (.all (Draft.handedAll p.parseAll.1), p.parseAll.2)

/-! ### One operation -/

variable {p : Parser} {n : Nat} (behind : List Token)

/-- An answer made of what a run returns. -/
theorem run_answer {α : Type} {x : Indexed.Run α} {m m' : Indexed} {a : α}
    (h : x m = some (a, m')) (f : α → Answer) :
    (do return f (← x) : Indexed.Run Answer) m = some (f a, m') :=
  Indexed.bind_run h

theorem run_accept (hp : p.Proper) (wanted : TokenKind → Bool) :
    (do return .bool (← Indexed.accept wanted) : Indexed.Run Answer) (p.indexed behind)
      = some ((take p wanted).1, (take p wanted).2.indexed behind) := by
  obtain hnone | ⟨t, rest, hf, ha, hw⟩ := p.takeIf?_cases wanted
  · have hskip := Indexed.accept_no behind hp (Parser.check_of_takeIf?_eq_none hnone)
    rw [run_answer hskip, take, hnone]
  · obtain ⟨hlt, htake⟩ := Parser.takeIf?_eq_some wanted hf ha hw
    rw [run_answer (Indexed.accept_yes behind wanted hp hf ha hw).1, take, htake]

theorem reaches_take (p : Parser) (wanted : TokenKind → Bool) : p.Reaches (take p wanted).2 := by
  obtain hnone | ⟨t, rest, hf, ha, hw⟩ := p.takeIf?_cases wanted
  · rw [take, hnone]
    exact .refl p
  · obtain ⟨hlt, htake⟩ := Parser.takeIf?_eq_some wanted hf ha hw
    rw [take, htake]
    exact Parser.reaches_pass_cons ha

/-- **An operation in place is the operation on the parser.** -/
theorem run_map_ofExpr (op : Operation Expr) (hp : p.Proper) (hn : p.depth ≤ n) :
    (op.map Draft.ofExpr).run n (p.indexed behind)
      = some ((op.perform p).1, (op.perform p).2.indexed behind) := by
  have hdepth : 20 * p.ahead.length + 20 ≤ n := hn
  cases op with
  | peek => exact run_answer (Indexed.peek_indexed behind p) .token
  | advance => exact run_answer (Indexed.advance_indexed behind hp) .token
  | isAtEnd => exact run_answer (Indexed.isAtEnd_indexed behind hp) .bool
  | isDone => exact run_answer (Indexed.isDone_indexed behind hp) .bool
  | check kind => exact run_answer (Indexed.check_indexed behind hp (· == kind)) .bool
  | accept kind => exact run_accept behind hp (· == kind)
  | acceptAny kinds => exact run_accept behind hp kinds.contains
  | synchronize => exact Indexed.bind_run (Indexed.synchronize_indexed behind hp (by omega))
  | clearFault => exact Indexed.bind_run (Indexed.clearFault_indexed behind p)
  | newBinary left operator right =>
    exact run_answer (Indexed.newBinary_indexed behind p left operator right) .tree
  | newUnary operator right =>
    exact run_answer (Indexed.newUnary_indexed behind p operator right) .tree
  | rule r => exact run_answer ((r.follows hp hn).run_eq behind) .tree
  | parse => exact run_answer (Indexed.parse_indexed behind hp (by omega)) .one
  | parseAll => exact run_answer (Indexed.parseAll_indexed behind hp (by omega)) .all

/-- An operation moves on in the same tokens. -/
theorem reaches_perform (op : Operation Expr) (hp : p.Proper) : p.Reaches (op.perform p).2 := by
  cases op with
  | peek | isAtEnd | isDone | check => exact .refl p
  | advance => exact Parser.reaches_advance p
  | accept kind => exact reaches_take p (· == kind)
  | acceptAny kinds => exact reaches_take p kinds.contains
  | synchronize => exact Parser.reaches_synchronize p
  | clearFault => exact Parser.reaches_withFault p none
  | newBinary left operator right => exact Parser.reaches_newBinary p left operator right
  | newUnary operator right => exact Parser.reaches_newUnary p operator right
  | rule r => exact r.reaches hp
  | parse => exact Indexed.reaches_parse hp
  | parseAll => exact Indexed.reaches_statements hp

/-- **Every operation has an answer**, whatever its operands are, and moves on in the same
tokens. -/
theorem exists_run (op : Operation Draft) (hp : p.Proper) :
    ∃ answer q, p.Reaches q ∧ ∀ n, p.depth ≤ n → ∀ behind,
      op.run n (p.indexed behind) = some (answer, q.indexed behind) := by
  have hsame : ∀ op : Operation Expr, ∃ answer q, p.Reaches q ∧ ∀ n, p.depth ≤ n → ∀ behind,
      (op.map Draft.ofExpr).run n (p.indexed behind) = some (answer, q.indexed behind) := fun op =>
    ⟨_, _, reaches_perform op hp, fun n hn behind => run_map_ofExpr behind op hp hn⟩
  cases op with
  | peek => exact hsame .peek
  | advance => exact hsame .advance
  | isAtEnd => exact hsame .isAtEnd
  | isDone => exact hsame .isDone
  | check kind => exact hsame (.check kind)
  | accept kind => exact hsame (.accept kind)
  | acceptAny kinds => exact hsame (.acceptAny kinds)
  | synchronize => exact hsame .synchronize
  | clearFault => exact hsame .clearFault
  | rule r => exact hsame (.rule r)
  | parse => exact hsame .parse
  | parseAll => exact hsame .parseAll
  | newBinary left operator right =>
    -- the operands may be missing, and the state after it does not depend on them
    obtain ⟨d, hd⟩ := Indexed.exists_newBinary p left right operator
    obtain ⟨hrun, -⟩ := hd (.literal .nil) (.literal .nil)
    exact ⟨.tree d, _, Parser.reaches_newBinary p _ operator _,
      fun _ _ behind => run_answer (hrun behind) .tree⟩
  | newUnary operator right =>
    obtain ⟨d, hd⟩ := Indexed.exists_newUnary p right operator
    obtain ⟨hrun, -⟩ := hd (.literal .nil)
    exact ⟨.tree d, _, Parser.reaches_newUnary p operator _,
      fun _ _ behind => run_answer (hrun behind) .tree⟩

/-! ### Any number of operations -/

/-- Operations in place, one after another. -/
def runAll (ops : List (Operation Draft)) (n : Nat) : Indexed.Run (List Answer) :=
  match ops with
  | [] => return []
  | op :: later => do
    let answer ← op.run n
    return answer :: (← runAll later n)

/-- Operations on a parser, one after another. -/
def performAll (p : Parser) : List (Operation Expr) → List Answer × Parser
  | [] => ([], p)
  | op :: later =>
    let rest := performAll (op.perform p).2 later
    ((op.perform p).1 :: rest.1, rest.2)

/-- **Any operations have their answers**, whatever their operands are, and move on in the same
tokens. -/
theorem exists_runAll (ops : List (Operation Draft)) (hp : p.Proper) :
    ∃ answers q, p.Reaches q ∧ ∀ n, p.depth ≤ n → ∀ behind,
      runAll ops n (p.indexed behind) = some (answers, q.indexed behind) := by
  induction ops generalizing p with
  | nil => exact ⟨[], p, .refl p, fun _ _ _ => rfl⟩
  | cons op later ih =>
    obtain ⟨answer, q, hreach, hrun⟩ := op.exists_run hp
    obtain ⟨answers, r, hreach', hruns⟩ := ih (hreach.proper hp)
    refine ⟨answer :: answers, r, hreach.trans hreach', fun n hn behind => ?_⟩
    have hlater := hruns n (Nat.le_trans hreach.depth_le hn) behind
    rw [runAll, Indexed.bind_run (hrun n hn behind), Indexed.bind_run hlater]
    rfl

theorem runAll_map_ofExpr (ops : List (Operation Expr)) (hp : p.Proper) (hn : p.depth ≤ n) :
    runAll (ops.map (map Draft.ofExpr)) n (p.indexed behind)
      = some ((performAll p ops).1, (performAll p ops).2.indexed behind) := by
  induction ops generalizing p with
  | nil => rfl
  | cons op later ih =>
    have hreach := reaches_perform op hp
    have hlater := ih (hreach.proper hp) (Nat.le_trans hreach.depth_le hn)
    rw [List.map_cons, runAll, Indexed.bind_run (run_map_ofExpr behind op hp hn),
      Indexed.bind_run hlater]
    rfl

/-! ### From the first token on -/

open Indexed (Gives)

/-- **Whatever operations do, they end in the state of a parser** in the same tokens. -/
theorem exists_gives_runAll (tokens : List Token) (ops : List (Operation Draft)) :
    ∃ answers q, (Parser.ofTokens tokens).Reaches q
      ∧ Gives (runAll ops) (Indexed.ofTokens tokens)
        (answers, q.indexed (Parser.ofTokens tokens).behind) := by
  obtain ⟨answers, q, hreach, hrun⟩ := exists_runAll ops (Parser.proper_ofTokens tokens)
  rw [← Parser.ofTokens_indexed]
  exact ⟨answers, q, hreach, _, fun n hn => hrun n hn _⟩

/-- **The state is that of a parser whatever the fault is then.** -/
theorem exists_gives_runAll_anyFault (tokens : List Token) (ops : List (Operation Draft)) :
    ∃ (answers : List Answer) (m : Indexed) (behind : List Token),
      Gives (runAll ops) (Indexed.ofTokens tokens) (answers, m)
      ∧ ∀ fault : Option Fault, ∃ p : Parser,
        { m with fault := fault } = p.indexed behind ∧ p.fault = fault ∧ p.Proper := by
  obtain ⟨answers, q, hreach, hrun⟩ := exists_gives_runAll tokens ops
  refine ⟨answers, _, _, hrun, fun fault => ⟨{ q with fault := fault }, rfl, rfl, ?_⟩⟩
  exact (hreach.trans (Parser.reaches_withFault q fault)).proper (Parser.proper_ofTokens tokens)

/-- The same for one fault. -/
theorem exists_gives_runAll_withFault (tokens : List Token) (ops : List (Operation Draft))
    (fault : Option Fault) :
    ∃ (answers : List Answer) (m : Indexed) (p : Parser) (behind : List Token),
      Gives (runAll ops) (Indexed.ofTokens tokens) (answers, m)
      ∧ { m with fault := fault } = p.indexed behind ∧ p.Proper := by
  obtain ⟨answers, m, behind, hrun, hany⟩ := exists_gives_runAll_anyFault tokens ops
  obtain ⟨p, hm, -, hp⟩ := hany fault
  exact ⟨answers, m, p, behind, hrun, hm, hp⟩

/-- Every further operation has an answer, and the index does not move back. -/
theorem exists_gives_run (op : Operation Draft) (hp : p.Proper) :
    ∃ answer m, Gives op.run (p.indexed behind) (answer, m) ∧ p.position ≤ m.current := by
  obtain ⟨answer, q, hreach, hrun⟩ := op.exists_run hp
  exact ⟨answer, q.indexed behind, ⟨p.depth, fun n hn => hrun n hn behind⟩, hreach.position_le⟩

/-- Tokens with an end token among them stand before the same first end token as the tokens up to
it. -/
theorem exists_ofTokens_eq (front : List Token) {finish : Token} (h : finish.kind = .eof)
    (rest : List Token) :
    ∃ behind, Indexed.ofTokens (front ++ finish :: rest)
      = (Parser.ofTokens (front ++ [finish])).indexed behind := by
  have hfront : closed (front ++ [finish]) = front ++ [finish] := by simp [closed, h]
  obtain ⟨added, hadded⟩ : ∃ added, closed (front ++ finish :: rest)
      = front ++ finish :: rest ++ added := by
    rcases Parser.closed_eq (front ++ finish :: rest) with heq | ⟨line, heq⟩
    · exact ⟨[], by rw [heq, List.append_nil]⟩
    · exact ⟨[.eof line], heq⟩
  have hsplit := (Parser.closed_eq_ahead (front ++ [finish])).1
  rw [hfront, ← Parser.ahead_ofTokens] at hsplit
  refine ⟨(Parser.ofTokens (front ++ [finish])).behind ++ rest ++ added, ?_⟩
  have htokens : front ++ finish :: rest ++ added = front ++ [finish] ++ (rest ++ added) := by simp
  show (⟨closed (front ++ finish :: rest), 0, none⟩ : Indexed)
    = ⟨(Parser.ofTokens (front ++ [finish])).ahead ++ _ :: _, 0, none⟩
  generalize Parser.ofTokens (front ++ [finish]) = p at hsplit ⊢
  rw [hadded, htokens, hsplit]
  simp

/-- **No operation sees what stands behind the first end token.** -/
theorem runAll_behind_eof (front : List Token) {finish : Token} (h : finish.kind = .eof)
    (rest rest' : List Token) (ops : List (Operation Draft)) :
    ∃ answers m m', Gives (runAll ops) (Indexed.ofTokens (front ++ finish :: rest)) (answers, m)
      ∧ Gives (runAll ops) (Indexed.ofTokens (front ++ finish :: rest')) (answers, m')
      ∧ m.current = m'.current ∧ m.fault = m'.fault := by
  obtain ⟨behind, heq⟩ := exists_ofTokens_eq front h rest
  obtain ⟨behind', heq'⟩ := exists_ofTokens_eq front h rest'
  obtain ⟨answers, q, -, hrun⟩ :=
    exists_runAll ops (Parser.proper_ofTokens (front ++ [finish]))
  rw [heq, heq']
  exact ⟨answers, q.indexed behind, q.indexed behind', ⟨_, fun n hn => hrun n hn behind⟩,
    ⟨_, fun n hn => hrun n hn behind'⟩, rfl, rfl⟩

end Operation

open Indexed (Gives)
open Operation (runAll performAll)

/-- **Operations stay among the tokens.** After any operations on a new parser, with any operands
and in any order, the tokens are those it was made of, the index is that of the first end token or
of a token before it, and every further operation has an answer and does not move back: neither the
next token nor the token before it is ever looked for beside the tokens. The operations are those of
`Parser`, and what stands behind the first end token changes no answer, no index and no fault. -/
theorem operations_stay_in_tokens (tokens : List Token) :
    (∀ ops : List (Operation Draft), ∃ answers m,
      Gives (runAll ops) (Indexed.ofTokens tokens) (answers, m)
      ∧ m.tokens = closed tokens ∧ m.InRange
      ∧ ∀ op : Operation Draft, ∃ answer m', Gives op.run m (answer, m') ∧ m.current ≤ m'.current)
    ∧ (∀ ops : List (Operation Expr),
      Gives (runAll (ops.map (Operation.map Draft.ofExpr))) (Indexed.ofTokens tokens)
        ((performAll (Parser.ofTokens tokens) ops).1,
          (performAll (Parser.ofTokens tokens) ops).2.indexed (Parser.ofTokens tokens).behind))
    ∧ ∀ (front : List Token) (finish : Token) (rest rest' : List Token),
      tokens = front ++ finish :: rest → finish.kind = .eof →
      ∀ ops : List (Operation Draft), ∃ answers m m',
        Gives (runAll ops) (Indexed.ofTokens tokens) (answers, m)
        ∧ Gives (runAll ops) (Indexed.ofTokens (front ++ finish :: rest')) (answers, m')
        ∧ m.current = m'.current ∧ m.fault = m'.fault := by
  refine ⟨fun ops => ?_, fun ops => ?_, ?_⟩
  · obtain ⟨answers, q, hreach, hrun⟩ := Operation.exists_gives_runAll tokens ops
    have hq : q.Proper := hreach.proper (Parser.proper_ofTokens tokens)
    refine ⟨answers, _, hrun, ?_, hq.inRange _, fun op => op.exists_gives_run _ hq⟩
    rw [hreach.tokens_indexed, Parser.ofTokens_indexed]
    rfl
  · rw [← Parser.ofTokens_indexed]
    exact ⟨_, fun n hn => Operation.runAll_map_ofExpr _ ops (Parser.proper_ofTokens tokens) hn⟩
  · rintro front finish rest rest' rfl h ops
    exact Operation.runAll_behind_eof front h rest rest' ops

/-- An operand behind an end token: `nil`, the end, `nil`. A node is made of nothing, which is a
fault, and then the whole input is parsed. -/
theorem operations_stay_in_tokens_two_ends :
    let word : Token := ⟨.nilWord, "nil", "", 1⟩
    let ops : List (Operation Draft) := [.newBinary .missing word .missing, .clearFault, .parseAll]
    ∃ answers m m',
      Gives (runAll ops) (Indexed.ofTokens ([word] ++ .eof 1 :: [word])) (answers, m)
      ∧ Gives (runAll ops) (Indexed.ofTokens ([word] ++ .eof 1 :: [])) (answers, m')
      ∧ m.current = m'.current ∧ m.fault = m'.fault :=
  (operations_stay_in_tokens _).2.2 _ _ _ _ rfl rfl _

end Lox
