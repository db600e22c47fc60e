import Lox.Proofs.Indexed
import Lox.Proofs.Statements

/-!
# The rules in place

The parser in place does what `Parser` does. Started at the state of a parser, an instruction of it
neither reads outside its tokens nor uses up its limit, and it ends in the state that the same step
of `Parser` ends in, whatever stands behind the end token. So what is known of `Parser` is known of
the parser in place, and the other way round.

- `Parser.Proper`, `Parser.Reaches`: a parser before its first end token, and moving on from there.
- `Indexed.peek_indexed`, `Indexed.advance_indexed`, `Indexed.accept_*`: looking and moving.
- `Indexed.Follows`: a run returns the tree that a rule returns, or none if it returns a fault.
- `Indexed.exists_newBinary`, `Indexed.exists_newUnary`: nodes made of any operands.
- `Indexed.follows_binary` to `Indexed.follows_grouping`: the rules.
-/

namespace Lox

namespace Parser

/-! ### Places in front of the end token -/

/-- **The parser stands in front of its first end token**, or at it. -/
structure Proper (p : Parser) : Prop where
  passed : ∀ t ∈ p.passed, t.kind ≠ .eof
  ahead : ∀ t ∈ p.ahead, t.kind ≠ .eof
  finish : p.finish.kind = .eof

/-- **The parser `q` stands in the same tokens as `p`, and not before it.** -/
def Reaches (p q : Parser) : Prop :=
  ∃ w, p.ahead = w ++ q.ahead ∧ q.passed = w.reverse ++ p.passed ∧ q.finish = p.finish
    ∧ q.behind = p.behind

theorem proper_ofTokens (tokens : List Token) : (ofTokens tokens).Proper where
  passed _ h := nomatch h
  ahead t ht := by
    rw [ahead_ofTokens] at ht
    exact kind_ne_eof_of_mem_inner ht
  finish := (closed_eq_ahead tokens).2

variable {p q r : Parser}

theorem Reaches.refl (p : Parser) : p.Reaches p := ⟨[], rfl, rfl, rfl, rfl⟩

theorem Reaches.trans (h : p.Reaches q) (h' : q.Reaches r) : p.Reaches r := by
  obtain ⟨u, ha, hp, hf, hb⟩ := h
  obtain ⟨v, ha', hp', hf', hb'⟩ := h'
  refine ⟨u ++ v, ?_, ?_, hf'.trans hf, hb'.trans hb⟩
  · rw [ha, ha', List.append_assoc]
  · rw [hp', hp, List.reverse_append, List.append_assoc]

theorem reaches_pass {w rest : List Token} (h : p.ahead = w ++ rest) : p.Reaches (p.pass w) :=
  ⟨w, by rw [ahead_pass h, h], rfl, rfl, rfl⟩

theorem reaches_pass_cons {t : Token} {rest : List Token} (h : p.ahead = t :: rest) :
    p.Reaches (p.pass [t]) :=
  reaches_pass (w := [t]) h

/-- Where a parser stands does not depend on its fault. -/
theorem reaches_withFault (p : Parser) (fault : Option Fault) :
    p.Reaches { p with fault := fault } :=
  ⟨[], rfl, rfl, rfl, rfl⟩

theorem Reaches.proper (h : p.Reaches q) (hp : p.Proper) : q.Proper := by
  obtain ⟨w, ha, hpassed, hfinish, -⟩ := h
  have hahead := hp.ahead
  rw [ha] at hahead
  refine ⟨fun t ht => ?_, fun t ht => hahead t (List.mem_append_right w ht), ?_⟩
  · rw [hpassed] at ht
    rcases List.mem_append.mp ht with ht | ht
    · exact hahead t (List.mem_append_left _ (List.mem_reverse.mp ht))
    · exact hp.passed t ht
  · rw [hfinish]
    exact hp.finish

theorem Reaches.position_le (h : p.Reaches q) : p.position ≤ q.position := by
  obtain ⟨w, -, hpassed, -, -⟩ := h
  simp [position, hpassed]

theorem Reaches.tokens_indexed (h : p.Reaches q) (behind : List Token) :
    (q.indexed behind).tokens = (p.indexed behind).tokens := by
  obtain ⟨w, ha, hpassed, hfinish, -⟩ := h
  simp [indexed, ha, hpassed, hfinish]

/-- Passed and ahead are all tokens before the first end token. -/
theorem Reaches.position_add (h : p.Reaches q) :
    q.position + q.ahead.length = p.position + p.ahead.length := by
  obtain ⟨w, ha, hpassed, -, -⟩ := h
  simp only [position, hpassed, ha, List.length_append, List.length_reverse]
  omega

theorem Reaches.length_ahead_le (h : p.Reaches q) : q.ahead.length ≤ p.ahead.length := by
  obtain ⟨w, ha, -⟩ := h
  rw [ha, List.length_append]
  omega

theorem length_ahead_pass_cons {t : Token} {rest : List Token} (ha : p.ahead = t :: rest) :
    p.ahead.length = (p.pass [t]).ahead.length + 1 := by
  rw [length_ahead_pass, ha]
  simp

/-- **The first end token** is behind those passed and ahead, whatever stands behind it. -/
theorem Proper.firstEnd_indexed (hp : p.Proper) (behind : List Token) :
    (p.indexed behind).firstEnd = p.position + p.ahead.length := by
  have hno : ∀ t ∈ p.passed.reverse ++ p.ahead, (t.kind == .eof) = false := by
    intro t ht
    rcases List.mem_append.mp ht with ht | ht
    · simpa using hp.passed t (List.mem_reverse.mp ht)
    · simpa using hp.ahead t ht
  have hinner : (p.passed.reverse ++ p.ahead).findIdx (fun t => t.kind == .eof)
      = (p.passed.reverse ++ p.ahead).length := List.findIdx_eq_length.mpr hno
  show (p.passed.reverse ++ p.ahead ++ p.finish :: behind).findIdx (fun t => t.kind == .eof) = _
  rw [List.findIdx_append, hinner, if_neg (Nat.lt_irrefl _), List.findIdx_cons, hp.finish]
  simp [position]

/-- **A parser in front of its end token has a next token**: the end token, or one before it. -/
theorem Proper.inRange (hp : p.Proper) (behind : List Token) : (p.indexed behind).InRange where
  current_le := by
    show p.position ≤ _
    rw [hp.firstEnd_indexed]
    omega
  firstEnd_lt := by
    rw [hp.firstEnd_indexed]
    simp [indexed, position]

/-- Before the first token a parser has passed nothing. -/
theorem ofTokens_indexed (tokens : List Token) :
    (ofTokens tokens).indexed (ofTokens tokens).behind = Indexed.ofTokens tokens := by
  have hclosed := (closed_eq_ahead tokens).1
  rw [← ahead_ofTokens] at hclosed
  show (⟨(ofTokens tokens).ahead ++ (ofTokens tokens).finish :: (ofTokens tokens).behind, 0, none⟩ :
    Indexed) = ⟨closed tokens, 0, none⟩
  rw [hclosed]

theorem reaches_advance (p : Parser) : p.Reaches p.advance := by
  cases ha : p.ahead with
  | nil =>
    have hsame : p.advance = p := by simp [advance, ha]
    rw [hsame]
    exact .refl p
  | cons t rest =>
    rw [advance_eq_pass ha]
    exact reaches_pass_cons ha

theorem reaches_atBoundary (p : Parser) : p.Reaches p.atBoundary := by
  -- along the tokens ahead, as recovery goes
  obtain ⟨ahead, hahead⟩ : ∃ ahead, p.ahead = ahead := ⟨_, rfl⟩
  induction ahead generalizing p with
  | nil =>
    rw [atBoundary_of_ahead_nil hahead]
    exact .refl p
  | cons t rest ih =>
    cases hends : endsStatement p.passed with
    | true =>
      rw [atBoundary_of_endsStatement hends]
      exact .refl p
    | false =>
      cases hstart : t.kind.startsStatement with
      | true =>
        rw [atBoundary_of_startsStatement hahead hstart]
        exact .refl p
      | false =>
        rw [atBoundary_pass hahead hends hstart]
        exact (reaches_pass_cons hahead).trans
          (ih (p.pass [t]) (ahead_pass (w := [t]) hahead))

theorem reaches_synchronize (p : Parser) : p.Reaches p.synchronize :=
  (reaches_advance p).trans (reaches_atBoundary p.advance)

/-- Either nothing is taken, or there is no fault and the next token is wanted. -/
theorem takeIf?_cases (p : Parser) (wanted : TokenKind → Bool) :
    p.takeIf? wanted = none ∨
      ∃ t rest, p.fault = none ∧ p.ahead = t :: rest ∧ wanted t.kind = true := by
  cases hf : p.fault with
  | some f => exact .inl (dif_neg (by simp [check, isDone, hf]))
  | none =>
    obtain hno | ⟨t, rest, ha, hw⟩ := next_cases (fun t => wanted t.kind = false) p.ahead
    · exact .inl (takeIf?_eq_none hno)
    · exact .inr ⟨t, rest, rfl, ha, by simpa using hw⟩

/-- Without a fault, a token that is not taken is not wanted. -/
theorem not_wanted_of_takeIf?_eq_none {wanted : TokenKind → Bool} (hf : p.fault = none)
    (h : p.takeIf? wanted = none) : ∀ t ∈ p.ahead.head?, wanted t.kind = false := by
  intro t ht
  obtain ⟨rest, ha⟩ := List.head?_eq_some_iff.mp ht
  by_contra hw
  obtain ⟨hlt, hsome⟩ := takeIf?_eq_some wanted hf ha (by simpa using hw)
  rw [h] at hsome
  cases hsome

theorem check_of_takeIf?_eq_none {wanted : TokenKind → Bool} (h : p.takeIf? wanted = none) :
    p.check wanted = false := by
  unfold takeIf? at h
  split at h
  · cases h
  · next hno => simpa using hno

/-! ### Nodes made from outside -/

variable {f : Fault} {t : Token} {left right : Expr}

theorem view_newBinary_of_fault (hf : p.fault = some f) :
    (p.newBinary left t right).view = (.error f, p) := by
  simp [newBinary, raise, hf, Outcome.view]

theorem view_newUnary_of_fault (hf : p.fault = some f) :
    (p.newUnary t right).view = (.error f, p) := by
  simp [newUnary, raise, hf, Outcome.view]

/-- A token that denotes no operator is a fault of the program. -/
theorem view_newBinary_of_none (hf : p.fault = none) (hop : BinaryOp.ofKind? t.kind = none) :
    (p.newBinary left t right).view
      = (.error (.noOperator t.kind), p.failed (.noOperator t.kind)) := by
  simp [newBinary, raise, hf, hop, failed, Outcome.view]

theorem view_newUnary_of_none (hf : p.fault = none) (hop : UnaryOp.ofKind? t.kind = none) :
    (p.newUnary t right).view
      = (.error (.noOperator t.kind), p.failed (.noOperator t.kind)) := by
  simp [newUnary, raise, hf, hop, failed, Outcome.view]

theorem reaches_raise (p : Parser) (f : Fault) : p.Reaches (p.raise f).next := by
  unfold raise
  split
  · exact .refl p
  · exact reaches_withFault p (some f)

theorem reaches_newBinary (p : Parser) (left : Expr) (t : Token) (right : Expr) :
    p.Reaches (p.newBinary left t right).next := by
  unfold newBinary
  split
  · exact .refl p
  · exact reaches_raise p _

theorem reaches_newUnary (p : Parser) (t : Token) (right : Expr) :
    p.Reaches (p.newUnary t right).next := by
  unfold newUnary
  split
  · exact .refl p
  · exact reaches_raise p _

end Parser

namespace Indexed

open Lox.Parser (Level isUnaryOperator isLiteral literalValue? Outcome)
open Grammar

/-! ### Running one instruction after another -/

/-- What comes next runs on what came before. -/
theorem bind_run {α β : Type} {x : Run α} {f : α → Run β} {m m' : Indexed} {a : α}
    (h : x m = some (a, m')) : (x >>= f) m = f a m' := by
  show (x m).bind (fun r => f r.1 r.2) = f a m'
  rw [h]
  rfl

/-- A branch that is taken. -/
theorem ite_run_true {α : Type} {c : Run Bool} {x y : Run α} {m m' : Indexed}
    (h : c m = some (true, m')) : (c >>= fun b => if b = true then x else y) m = x m' :=
  bind_run h

/-- A branch that is not taken. -/
theorem ite_run_false {α : Type} {c : Run Bool} {x y : Run α} {m m' : Indexed}
    (h : c m = some (false, m')) : (c >>= fun b => if b = true then x else y) m = y m' :=
  bind_run h

theorem get_run (m : Indexed) : (get : Run Indexed) m = some (m, m) := rfl

variable {p q : Parser} {t : Token} {rest : List Token} {f : Fault} {wanted : TokenKind → Bool}
  (behind : List Token)

/-! ### Looking and moving -/

/-- The token at the index is the next token of the parser. -/
theorem getElem?_position (p : Parser) :
    (p.indexed behind).tokens[p.position]? = some p.peek := by
  show (p.passed.reverse ++ p.ahead ++ p.finish :: behind)[p.passed.length]? = some p.peek
  rw [List.append_assoc, List.getElem?_append_right (by simp), List.length_reverse, Nat.sub_self]
  cases ha : p.ahead <;> simp [Parser.peek, ha]

theorem peek_indexed (p : Parser) :
    peek (p.indexed behind) = some (p.peek, p.indexed behind) := by
  show ((p.indexed behind).tokens[p.position]?).map _ = _
  rw [getElem?_position]
  rfl

theorem previous_indexed {passed : List Token} (h : p.passed = t :: passed) :
    previous (p.indexed behind) = some (t, p.indexed behind) := by
  have hcurrent : (p.indexed behind).current = passed.length + 1 := by
    simp [Parser.indexed, Parser.position, h]
  have hget : (p.indexed behind).tokens[passed.length]? = some t := by
    simp [Parser.indexed, h]
  simp only [previous, hcurrent, hget, Option.map_some]

theorem isAtEnd_indexed (hp : p.Proper) :
    isAtEnd (p.indexed behind) = some (p.atEnd, p.indexed behind) := by
  have hkind : (p.peek.kind == .eof) = p.atEnd := by
    cases ha : p.ahead with
    | nil => simp [Parser.peek, Parser.atEnd, ha, hp.finish]
    | cons t rest => simp [Parser.peek, Parser.atEnd, ha, hp.ahead t (by simp [ha])]
  rw [isAtEnd, bind_run (peek_indexed behind p), hkind]
  rfl

theorem isAtEnd_of_nil (hp : p.Proper) (ha : p.ahead = []) :
    isAtEnd (p.indexed behind) = some (true, p.indexed behind) := by
  rw [isAtEnd_indexed behind hp, Parser.atEnd, ha]
  rfl

theorem isAtEnd_of_cons (hp : p.Proper) (ha : p.ahead = t :: rest) :
    isAtEnd (p.indexed behind) = some (false, p.indexed behind) := by
  rw [isAtEnd_indexed behind hp, Parser.atEnd, ha]
  rfl

theorem hasFault_indexed (p : Parser) :
    hasFault (p.indexed behind) = some (p.fault.isSome, p.indexed behind) := rfl

theorem hasFault_of_some (hf : p.fault = some f) :
    hasFault (p.indexed behind) = some (true, p.indexed behind) := by
  rw [hasFault_indexed, hf]
  rfl

theorem hasFault_of_none (hf : p.fault = none) :
    hasFault (p.indexed behind) = some (false, p.indexed behind) := by
  rw [hasFault_indexed, hf]
  rfl

theorem isDone_indexed (hp : p.Proper) :
    isDone (p.indexed behind) = some (p.isDone, p.indexed behind) := by
  rw [isDone, bind_run (isAtEnd_indexed behind hp), bind_run (hasFault_indexed behind p)]
  rfl

theorem check_indexed (hp : p.Proper) (wanted : TokenKind → Bool) :
    check wanted (p.indexed behind) = some (p.check wanted, p.indexed behind) := by
  have hdone := isDone_indexed behind hp
  rw [Parser.check]
  cases h : p.isDone with
  | true =>
    rw [h] at hdone
    rw [check, ite_run_true hdone]
    rfl
  | false =>
    rw [h] at hdone
    rw [check, ite_run_false hdone, bind_run (peek_indexed behind p)]
    rfl

/-- **Moving never looks back beside the tokens**: there is a token to look back at. -/
theorem advance_indexed (hp : p.Proper) :
    advance (p.indexed behind) = some (p.peek, p.advance.indexed behind) := by
  cases ha : p.ahead with
  | nil =>
    have hsame : p.advance = p := by simp [Parser.advance, ha]
    rw [advance, ite_run_true (isAtEnd_of_nil behind hp ha), hsame]
    exact peek_indexed behind p
  | cons t rest =>
    have hpeek : p.peek = t := by simp [Parser.peek, ha]
    have hmove : (modify fun m : Indexed => { m with current := m.current + 1 } : Run Unit)
        (p.indexed behind) = some ((), (p.pass [t]).indexed behind) := by
      show some ((), _) = _
      simp [Parser.indexed, Parser.pass, Parser.position, ha]
    rw [advance, ite_run_false (isAtEnd_of_cons behind hp ha), bind_run hmove,
      Parser.advance_eq_pass ha, hpeek]
    exact previous_indexed behind rfl

/-- Where nothing is taken the index stays. -/
theorem accept_no (hp : p.Proper) (h : p.check wanted = false) :
    accept wanted (p.indexed behind) = some (false, p.indexed behind) := by
  have hcheck := check_indexed behind hp wanted
  rw [h] at hcheck
  rw [accept, ite_run_false hcheck]
  rfl

/-- With a fault nothing is taken. -/
theorem accept_of_fault (hp : p.Proper) (h : p.fault = some f) :
    accept wanted (p.indexed behind) = some (false, p.indexed behind) :=
  accept_no behind hp (by simp [Parser.check, Parser.isDone, h])

/-- At the end nothing is taken. -/
theorem accept_of_ahead_nil (hp : p.Proper) (ha : p.ahead = []) :
    accept wanted (p.indexed behind) = some (false, p.indexed behind) :=
  accept_no behind hp (by simp [Parser.check, Parser.isDone, Parser.atEnd, ha])

/-- **A wanted token is taken**, and can be looked back at. -/
theorem accept_yes (wanted : TokenKind → Bool) (hp : p.Proper) (hfault : p.fault = none)
    (ha : p.ahead = t :: rest) (hw : wanted t.kind = true) :
    accept wanted (p.indexed behind) = some (true, (p.pass [t]).indexed behind)
      ∧ previous ((p.pass [t]).indexed behind) = some (t, (p.pass [t]).indexed behind) := by
  have hcheck := check_indexed behind hp wanted
  have htrue : p.check wanted = true := by
    simp [Parser.check, Parser.isDone, Parser.atEnd, Parser.peek, ha, hfault, hw]
  rw [htrue] at hcheck
  refine ⟨?_, previous_indexed behind rfl⟩
  rw [accept, ite_run_true hcheck, bind_run (advance_indexed behind hp), Parser.advance_eq_pass ha]
  rfl

/-! ### What a rule returns -/

/-- **A run does what a rule does.** Started at the state of `p` it ends in the state of the view,
whatever stands behind the end token. It returns the tree of the view, and then there is no fault;
or it returns none, and then the fault is that of the view. -/
inductive Follows (run : Run Draft) (p : Parser) : Except Fault Expr × Parser → Prop
  | tree {e : Expr} {q : Parser} (reaches : p.Reaches q) (fault : q.fault = none)
      (whole : (Draft.ofExpr e).Whole)
      (run_eq : ∀ behind, run (p.indexed behind) = some (.ofExpr e, q.indexed behind)) :
      Follows run p (.ok e, q)
  | fault {f : Fault} {q : Parser} (reaches : p.Reaches q) (fault : q.fault = some f)
      (run_eq : ∀ behind, run (p.indexed behind) = some (.missing, q.indexed behind)) :
      Follows run p (.error f, q)

variable {run run' : Run Draft} {v : Except Fault Expr × Parser} {n : Nat}

theorem Follows.run_eq (h : Follows run p v) :
    run (p.indexed behind) = some (Draft.ofResult v.1, v.2.indexed behind) := by
  cases h with
  | tree _ _ _ hrun => exact hrun behind
  | fault _ _ hrun => exact hrun behind

theorem Follows.reaches (h : Follows run p v) : p.Reaches v.2 := by
  cases h <;> assumption

theorem Follows.whole {e : Expr} (h : Follows run p v) (hv : v.1 = .ok e) :
    (Draft.ofExpr e).Whole := by
  cases h with
  | tree _ _ hwhole _ =>
    cases hv
    exact hwhole
  | fault => cases hv

/-- A run that first moves from `p` to `q`. -/
theorem Follows.after (hpq : p.Reaches q) (h : Follows run q v)
    (hrun : ∀ behind, run' (p.indexed behind) = run (q.indexed behind)) : Follows run' p v := by
  cases h with
  | tree hreach hf hwhole hq =>
    exact .tree (hpq.trans hreach) hf hwhole fun behind => (hrun behind).trans (hq behind)
  | fault hreach hf hq =>
    exact .fault (hpq.trans hreach) hf fun behind => (hrun behind).trans (hq behind)

/-- **A fault is set once**: the first one stays. -/
theorem follows_raise (p : Parser) (f : Fault) : Follows (raise f) p (p.raise f).view := by
  cases hf : p.fault with
  | some earlier =>
    have hview : (p.raise f).view = (.error earlier, p) := by
      simp [Parser.raise, hf, Outcome.view]
    rw [hview]
    refine .fault (.refl p) hf fun behind => ?_
    rw [raise, ite_run_true (hasFault_of_some behind hf)]
    rfl
  | none =>
    have hview : (p.raise f).view = (.error f, p.failed f) := by
      simp [Parser.raise, hf, Outcome.view, Parser.failed]
    rw [hview]
    refine .fault (Parser.reaches_withFault p (some f)) rfl fun behind => ?_
    rw [raise, ite_run_false (hasFault_of_none behind hf)]
    rfl

theorem follows_raiseHere (p : Parser) (c : Cause) :
    Follows (raiseHere c) p (p.raiseHere c).view :=
  (follows_raise p (.parse ⟨p.peek, c⟩)).after (.refl p) fun behind => by
    rw [raiseHere, bind_run (peek_indexed behind p)]
    rfl

/-! ### Nodes -/

/-- With a fault no node is made. -/
theorem newBinary_of_fault (hf : p.fault = some f) (left right : Draft) (t : Token) :
    newBinary left t right (p.indexed behind) = some (.missing, p.indexed behind) := by
  rw [newBinary, ite_run_true (hasFault_of_some behind hf)]
  rfl

theorem newUnary_of_fault (hf : p.fault = some f) (right : Draft) (t : Token) :
    newUnary t right (p.indexed behind) = some (.missing, p.indexed behind) := by
  rw [newUnary, ite_run_true (hasFault_of_some behind hf)]
  rfl

theorem newBinary_of_ofKind? {op : BinaryOp} (hf : p.fault = none)
    (hop : BinaryOp.ofKind? t.kind = some op) (left right : Draft) :
    newBinary left t right (p.indexed behind)
      = some (.binary left op.code t right, p.indexed behind) := by
  rw [newBinary, ite_run_false (hasFault_of_none behind hf), hop]
  rfl

theorem newUnary_of_ofKind? {op : UnaryOp} (hf : p.fault = none)
    (hop : UnaryOp.ofKind? t.kind = some op) (right : Draft) :
    newUnary t right (p.indexed behind) = some (.unary op.code t right, p.indexed behind) := by
  rw [newUnary, ite_run_false (hasFault_of_none behind hf), hop]
  rfl

/-- A token that denotes no operator is a fault of the program. -/
theorem newBinary_of_none (hf : p.fault = none) (hop : BinaryOp.ofKind? t.kind = none)
    (left right : Draft) :
    newBinary left t right (p.indexed behind)
      = some (.missing, (p.failed (.noOperator t.kind)).indexed behind) := by
  rw [newBinary, ite_run_false (hasFault_of_none behind hf), hop]
  show raise _ _ = _
  rw [raise, ite_run_false (hasFault_of_none behind hf)]
  rfl

theorem newUnary_of_none (hf : p.fault = none) (hop : UnaryOp.ofKind? t.kind = none)
    (right : Draft) :
    newUnary t right (p.indexed behind)
      = some (.missing, (p.failed (.noOperator t.kind)).indexed behind) := by
  rw [newUnary, ite_run_false (hasFault_of_none behind hf), hop]
  show raise _ _ = _
  rw [raise, ite_run_false (hasFault_of_none behind hf)]
  rfl

/-- **A node can be made of any operands.** Of trees it is the node that the parser makes, and the
state after it does not depend on the operands. -/
theorem exists_newBinary (p : Parser) (left right : Draft) (t : Token) :
    ∃ d, ∀ l r : Expr,
      (∀ behind, newBinary left t right (p.indexed behind)
        = some (d, (p.newBinary l t r).view.2.indexed behind))
      ∧ (left = .ofExpr l → right = .ofExpr r → d = .ofResult (p.newBinary l t r).view.1) := by
  cases hf : p.fault with
  | some f =>
    refine ⟨.missing, fun l r => ?_⟩
    rw [Parser.view_newBinary_of_fault hf]
    exact ⟨fun behind => newBinary_of_fault behind hf left right t, fun _ _ => rfl⟩
  | none =>
    cases hop : BinaryOp.ofKind? t.kind with
    | some op =>
      refine ⟨.binary left op.code t right, fun l r => ?_⟩
      rw [Parser.view_newBinary hf hop]
      refine ⟨fun behind => newBinary_of_ofKind? behind hf hop left right, ?_⟩
      rintro rfl rfl
      rfl
    | none =>
      refine ⟨.missing, fun l r => ?_⟩
      rw [Parser.view_newBinary_of_none hf hop]
      exact ⟨fun behind => newBinary_of_none behind hf hop left right, fun _ _ => rfl⟩

theorem exists_newUnary (p : Parser) (right : Draft) (t : Token) :
    ∃ d, ∀ r : Expr,
      (∀ behind, newUnary t right (p.indexed behind)
        = some (d, (p.newUnary t r).view.2.indexed behind))
      ∧ (right = .ofExpr r → d = .ofResult (p.newUnary t r).view.1) := by
  cases hf : p.fault with
  | some f =>
    refine ⟨.missing, fun r => ?_⟩
    rw [Parser.view_newUnary_of_fault hf]
    exact ⟨fun behind => newUnary_of_fault behind hf right t, fun _ => rfl⟩
  | none =>
    cases hop : UnaryOp.ofKind? t.kind with
    | some op =>
      refine ⟨.unary op.code t right, fun r => ?_⟩
      rw [Parser.view_newUnary hf hop]
      refine ⟨fun behind => newUnary_of_ofKind? behind hf hop right, ?_⟩
      rintro rfl
      rfl
    | none =>
      refine ⟨.missing, fun r => ?_⟩
      rw [Parser.view_newUnary_of_none hf hop]
      exact ⟨fun behind => newUnary_of_none behind hf hop right, fun _ => rfl⟩

theorem newBinary_indexed (p : Parser) (left : Expr) (t : Token) (right : Expr) :
    newBinary (.ofExpr left) t (.ofExpr right) (p.indexed behind)
      = some (.ofResult (p.newBinary left t right).result,
          (p.newBinary left t right).next.indexed behind) := by
  obtain ⟨d, hd⟩ := exists_newBinary p (.ofExpr left) (.ofExpr right) t
  obtain ⟨hrun, heq⟩ := hd left right
  rw [hrun behind, heq rfl rfl]
  rfl

theorem newUnary_indexed (p : Parser) (t : Token) (right : Expr) :
    newUnary t (.ofExpr right) (p.indexed behind)
      = some (.ofResult (p.newUnary t right).result, (p.newUnary t right).next.indexed behind) := by
  obtain ⟨d, hd⟩ := exists_newUnary p (.ofExpr right) t
  obtain ⟨hrun, heq⟩ := hd right
  rw [hrun behind, heq rfl]
  rfl

/-! ### Levels of binary operators -/

/-- With a fault the loop of a level ends. -/
theorem more_of_fault (hn : 0 < n) (hp : p.Proper) (hf : p.fault = some f) (l : Level)
    (left : Draft) : more n l left (p.indexed behind) = some (left, p.indexed behind) := by
  obtain ⟨n, rfl⟩ := Nat.exists_eq_add_one.mpr hn
  rw [more, ite_run_false (accept_of_fault behind hp hf)]
  rfl

/-- A level, from its first operand and its loop. -/
theorem follows_binary_of {l : Level} (hn : 0 < n) (hp : p.Proper)
    (hoperand : Follows (operand n l) p (Parser.operand l p).view)
    (hmore : ∀ (left : Expr) (q : Parser), p.Reaches q → q.fault = none →
      (Draft.ofExpr left).Whole → Follows (more n l (.ofExpr left)) q (Parser.more l left q).view) :
    Follows (binary (n + 1) l) p (Parser.binary l p).view := by
  generalize hview : (Parser.operand l p).view = v at hoperand
  cases hoperand with
  | @tree left q hreach hq hleft hrun =>
    rw [Parser.view_binary_more hview]
    refine (hmore left q hreach hq hleft).after hreach fun behind => ?_
    rw [binary, bind_run (hrun behind)]
  | @fault f q hreach hq hrun =>
    rw [Parser.view_binary_error hview]
    refine .fault hreach hq fun behind => ?_
    rw [binary, bind_run (hrun behind)]
    exact more_of_fault behind hn (hreach.proper hp) hq l .missing

/-- The loop of a level, from the operands behind it. -/
theorem follows_more_of {l : Level} {left : Expr} (hp : p.Proper) (hf : p.fault = none)
    (hleft : (Draft.ofExpr left).Whole) (hn : p.ahead ≠ [] → 0 < n)
    (hoperand : ∀ t rest, p.ahead = t :: rest →
      Follows (operand n l) (p.pass [t]) (Parser.operand l (p.pass [t])).view)
    (hmore : ∀ (t : Token) (rest : List Token) (e : Expr) (q : Parser), p.ahead = t :: rest →
      (p.pass [t]).Reaches q → q.fault = none → (Draft.ofExpr e).Whole →
      Follows (more n l (.ofExpr e)) q (Parser.more l e q).view) :
    Follows (more (n + 1) l (.ofExpr left)) p (Parser.more l left p).view := by
  obtain hnone | ⟨t, rest, -, ha, hw⟩ := p.takeIf?_cases l.holds
  · have hview : (Parser.more l left p).view = (.ok left, p) := by
      rw [Parser.more, hnone]
      rfl
    rw [hview]
    refine .tree (.refl p) hf hleft fun behind => ?_
    rw [more, ite_run_false (accept_no behind hp (Parser.check_of_takeIf?_eq_none hnone))]
    rfl
  obtain ⟨op, hop⟩ := Option.isSome_iff_exists.mp (holds_eq_isSome l t.kind ▸ hw)
  have hkind : BinaryOp.ofKind? t.kind = some op := ofKind?_of_operator? hop
  have hpass : p.Reaches (p.pass [t]) := Parser.reaches_pass_cons ha
  have hoperand := hoperand t rest ha
  generalize hview : (Parser.operand l (p.pass [t])).view = v at hoperand
  cases hoperand with
  | @tree right q hreach hq hright hrun =>
    rw [Parser.view_more_step hf ha hop left hview hq]
    have hnode : (Draft.ofExpr (.binary left op t right)).Whole :=
      ⟨hleft, by rw [BinaryOp.codeOf?, hkind]; rfl, hright⟩
    refine (hmore t rest _ q ha hreach hq hnode).after (hpass.trans hreach) fun behind => ?_
    obtain ⟨htake, hprevious⟩ := accept_yes behind _ hp hf ha hw
    rw [more, ite_run_true htake, bind_run hprevious, bind_run (hrun behind),
      bind_run (newBinary_of_ofKind? behind hq hkind _ _)]
    rfl
  | @fault f q hreach hq hrun =>
    rw [Parser.view_more_error hf ha hop left hview]
    refine .fault (hpass.trans hreach) hq fun behind => ?_
    obtain ⟨htake, hprevious⟩ := accept_yes behind _ hp hf ha hw
    -- the node is not made, and the loop takes no more
    rw [more, ite_run_true htake, bind_run hprevious, bind_run (hrun behind),
      bind_run (newBinary_of_fault behind hq _ _ _)]
    exact more_of_fault behind (hn (by simp [ha])) ((hpass.trans hreach).proper hp) hq l .missing

/-! ### Operators in front -/

theorem follows_unary_of (hp : p.Proper)
    (hunary : ∀ t rest, p.ahead = t :: rest →
      Follows (unary n) (p.pass [t]) (Parser.unary (p.pass [t])).view)
    (hprimary : Follows (primary n) p (Parser.primary p).view) :
    Follows (unary (n + 1)) p (Parser.unary p).view := by
  obtain hnone | ⟨t, rest, hf, ha, hw⟩ := p.takeIf?_cases isUnaryOperator
  · have hview : (Parser.unary p).view = (Parser.primary p).view := by
      rw [Parser.unary, hnone]
    rw [hview]
    refine hprimary.after (.refl p) fun behind => ?_
    rw [unary, ite_run_false (accept_no behind hp (Parser.check_of_takeIf?_eq_none hnone))]
  obtain ⟨op, hop⟩ := Option.isSome_iff_exists.mp (isUnaryOperator_eq_isSome t.kind ▸ hw)
  have hkind : UnaryOp.ofKind? t.kind = some op := (frontOperator?_eq_ofKind? t.kind).symm.trans hop
  have hpass : p.Reaches (p.pass [t]) := Parser.reaches_pass_cons ha
  have hunary := hunary t rest ha
  generalize hview : (Parser.unary (p.pass [t])).view = v at hunary
  cases hunary with
  | @tree right q hreach hq hright hrun =>
    rw [Parser.view_unary_step hf ha hop hview hq]
    have hnode : (Draft.ofExpr (.unary op t right)).Whole :=
      ⟨by rw [UnaryOp.codeOf?, hkind]; rfl, hright⟩
    refine .tree (hpass.trans hreach) hq hnode fun behind => ?_
    obtain ⟨htake, hprevious⟩ := accept_yes behind _ hp hf ha hw
    rw [unary, ite_run_true htake, bind_run hprevious, bind_run (hrun behind)]
    exact newUnary_of_ofKind? behind hq hkind _
  | @fault f q hreach hq hrun =>
    rw [Parser.view_unary_error hf ha hop hview]
    refine .fault (hpass.trans hreach) hq fun behind => ?_
    obtain ⟨htake, hprevious⟩ := accept_yes behind _ hp hf ha hw
    rw [unary, ite_run_true htake, bind_run hprevious, bind_run (hrun behind)]
    exact newUnary_of_fault behind hq _ _

/-! ### Literals -/

/-- Where no literal is taken, none of the kinds of literals is. -/
theorem accept_literal_no (hp : p.Proper) (h : p.check isLiteral = false) (kind : TokenKind)
    (hkind : isLiteral kind = true) :
    accept (· == kind) (p.indexed behind) = some (false, p.indexed behind) := by
  refine accept_no behind hp ?_
  simp only [Parser.check, Bool.and_eq_false_iff, beq_eq_false_iff_ne] at h ⊢
  refine h.imp_right fun hno heq => ?_
  rw [heq, hkind] at hno
  cases hno

theorem accept_kind_no (hp : p.Proper) (ha : p.ahead = t :: rest) {kind : TokenKind}
    (h : t.kind ≠ kind) :
    accept (· == kind) (p.indexed behind) = some (false, p.indexed behind) :=
  accept_no behind hp (by simp [Parser.check, Parser.peek, ha, h])

theorem accept_kind_yes (hp : p.Proper) (hf : p.fault = none) (ha : p.ahead = t :: rest)
    {kind : TokenKind} (h : t.kind = kind) :
    accept (· == kind) (p.indexed behind) = some (true, (p.pass [t]).indexed behind) :=
  (accept_yes behind (· == kind) hp hf ha (by simp [h])).1

/-- The token just taken can be looked back at. -/
theorem previous_pass (p : Parser) (t : Token) :
    previous ((p.pass [t]).indexed behind) = some (t, (p.pass [t]).indexed behind) :=
  previous_indexed behind rfl

/-- A token that spells a value is taken for it. -/
theorem primary_literal {v : Value} (hp : p.Proper) (hf : p.fault = none)
    (ha : p.ahead = t :: rest) (hv : Spells t v) :
    primary (n + 1) (p.indexed behind) = some (.literal v, (p.pass [t]).indexed behind) := by
  have hno : ∀ kind, t.kind ≠ kind →
      accept (· == kind) (p.indexed behind) = some (false, p.indexed behind) :=
    fun _ h => accept_kind_no behind hp ha h
  rw [primary]
  cases hv with
  | no hk =>
    rw [ite_run_true (accept_kind_yes behind hp hf ha hk)]
    rfl
  | yes hk =>
    rw [ite_run_false (hno _ (by simp [hk])), ite_run_true (accept_kind_yes behind hp hf ha hk)]
    rfl
  | nothing hk =>
    rw [ite_run_false (hno _ (by simp [hk])), ite_run_false (hno _ (by simp [hk])),
      ite_run_true (accept_kind_yes behind hp hf ha hk)]
    rfl
  | number hk hread =>
    rw [ite_run_false (hno _ (by simp [hk])), ite_run_false (hno _ (by simp [hk])),
      ite_run_false (hno _ (by simp [hk])), ite_run_true (accept_kind_yes behind hp hf ha hk),
      bind_run (previous_pass behind p t), hread]
    rfl
  | string hk =>
    rw [ite_run_false (hno _ (by simp [hk])), ite_run_false (hno _ (by simp [hk])),
      ite_run_false (hno _ (by simp [hk])), ite_run_false (hno _ (by simp [hk])),
      ite_run_true (accept_kind_yes behind hp hf ha hk), bind_run (previous_pass behind p t)]
    rfl

/-- A number that cannot be read is taken, looked back at and named by the fault. -/
theorem primary_invalid (hp : p.Proper) (hf : p.fault = none) (ha : p.ahead = t :: rest)
    (hk : t.kind = .number) (hv : literalValue? t = none) :
    primary (n + 1) (p.indexed behind)
      = some (.missing,
          ((p.pass [t]).failed (.parse ⟨t, .invalidNumber⟩)).indexed behind) := by
  have hno : ∀ kind, t.kind ≠ kind →
      accept (· == kind) (p.indexed behind) = some (false, p.indexed behind) :=
    fun _ h => accept_kind_no behind hp ha h
  have hread : Number.read? t.literal = none := by simpa [literalValue?, hk] using hv
  rw [primary, ite_run_false (hno _ (by simp [hk])), ite_run_false (hno _ (by simp [hk])),
    ite_run_false (hno _ (by simp [hk])), ite_run_true (accept_kind_yes behind hp hf ha hk),
    bind_run (previous_pass behind p t), hread]
  show raise _ _ = _
  rw [raise, ite_run_false (hasFault_of_none (p := p.pass [t]) behind hf)]
  rfl

theorem follows_primary_of (hp : p.Proper)
    (hgrouping : Follows (grouping n) p (Parser.grouping p).view) :
    Follows (primary (n + 1)) p (Parser.primary p).view := by
  obtain hnone | ⟨t, rest, hf, ha, hw⟩ := p.takeIf?_cases isLiteral
  · have hview : (Parser.primary p).view = (Parser.grouping p).view := by
      rw [Parser.primary, hnone]
    have hcheck := Parser.check_of_takeIf?_eq_none hnone
    rw [hview]
    refine hgrouping.after (.refl p) fun behind => ?_
    rw [primary, ite_run_false (accept_literal_no behind hp hcheck .falseWord rfl),
      ite_run_false (accept_literal_no behind hp hcheck .trueWord rfl),
      ite_run_false (accept_literal_no behind hp hcheck .nilWord rfl),
      ite_run_false (accept_literal_no behind hp hcheck .number rfl),
      ite_run_false (accept_literal_no behind hp hcheck .string rfl)]
  have hpass : p.Reaches (p.pass [t]) := Parser.reaches_pass_cons ha
  cases hv : literalValue? t with
  | some v =>
    rw [Parser.view_primary_literal hf ha (spells_iff.mpr hv)]
    exact .tree hpass hf trivial fun behind =>
      primary_literal behind hp hf ha (spells_iff.mpr hv)
  | none =>
    rw [Parser.view_primary_invalid hf ha hw hv]
    exact .fault (hpass.trans (Parser.reaches_withFault _ _)) rfl fun behind =>
      primary_invalid behind hp hf ha (Parser.kind_eq_number hw hv) hv

/-! ### Parentheses -/

theorem follows_grouping_of (hp : p.Proper)
    (hinner : ∀ t rest, p.ahead = t :: rest →
      Follows (binary n .equality) (p.pass [t]) (Parser.binary .equality (p.pass [t])).view) :
    Follows (grouping (n + 1)) p (Parser.grouping p).view := by
  obtain hnone | ⟨t, rest, hf, ha, hw⟩ := p.takeIf?_cases (· == .leftParen)
  · have hview : (Parser.grouping p).view = (p.raiseHere .unexpectedToken).view := by
      rw [Parser.grouping, hnone]
    rw [hview]
    refine (follows_raiseHere p .unexpectedToken).after (.refl p) fun behind => ?_
    rw [grouping, ite_run_false (accept_no behind hp (Parser.check_of_takeIf?_eq_none hnone))]
  have hk : t.kind = .leftParen := by simpa using hw
  have hpass : p.Reaches (p.pass [t]) := Parser.reaches_pass_cons ha
  have hinner := hinner t rest ha
  generalize hview : (Parser.binary .equality (p.pass [t])).view = v at hinner
  cases hinner with
  | @fault f q hreach hq hrun =>
    -- the parenthesis is not looked for, and the fault inside stays
    rw [Parser.view_grouping_error hf ha hk hview]
    refine .fault (hpass.trans hreach) hq fun behind => ?_
    have hproper : q.Proper := (hpass.trans hreach).proper hp
    rw [grouping, ite_run_true (accept_yes behind _ hp hf ha hw).1, bind_run (hrun behind),
      ite_run_false (accept_of_fault behind hproper hq), raiseHere,
      bind_run (peek_indexed behind q), raiseAt, raise, ite_run_true (hasFault_of_some behind hq)]
    rfl
  | @tree inner q hreach hq hwhole hrun =>
    have hproper : q.Proper := (hpass.trans hreach).proper hp
    obtain hnone | ⟨t', rest', -, ha', hw'⟩ := q.takeIf?_cases (· == .rightParen)
    · have hno : ∀ t' ∈ q.ahead.head?, t'.kind ≠ .rightParen := by
        intro t' ht' hk'
        have := Parser.not_wanted_of_takeIf?_eq_none hq hnone t' ht'
        simp [hk'] at this
      rw [Parser.view_grouping_unclosed hf ha hk hview hq hno,
        ← Parser.view_raiseAt hq q.peek .expectedRightParen]
      refine (follows_raiseHere q .expectedRightParen).after (hpass.trans hreach) fun behind => ?_
      rw [grouping, ite_run_true (accept_yes behind _ hp hf ha hw).1, bind_run (hrun behind),
        ite_run_false (accept_no behind hproper (Parser.check_of_takeIf?_eq_none hnone))]
    · rw [Parser.view_grouping_close hf ha hk hview hq ha' (by simpa using hw')]
      have hclose : q.Reaches (q.pass [t']) := Parser.reaches_pass_cons ha'
      refine .tree ((hpass.trans hreach).trans hclose) hq hwhole fun behind => ?_
      rw [grouping, ite_run_true (accept_yes behind _ hp hf ha hw).1, bind_run (hrun behind),
        ite_run_true (accept_yes behind _ hproper hq ha' hw').1]
      rfl

/-! ### All rules together -/

mutual

-- The recursion is on the limit, which stays above the measure by which the rules of `Parser` end.

/-- **A level in place does what the level does**, and comes to an end. -/
theorem follows_binary (n : Nat) (l : Level) (p : Parser) (hp : p.Proper)
    (hn : 20 * p.ahead.length + 2 * l.rank + 2 < n) :
    Follows (binary n l) p (Parser.binary l p).view := by
  match n with
  | n + 1 =>
    refine follows_binary_of (by omega) hp (follows_operand n l p hp (by omega)) ?_
    intro left q hreach hq hleft
    have := hreach.length_ahead_le
    exact follows_more n l left q (hreach.proper hp) hq hleft (by omega)

theorem follows_operand (n : Nat) (l : Level) (p : Parser) (hp : p.Proper)
    (hn : 20 * p.ahead.length + 2 * l.rank + 1 < n) :
    Follows (operand n l) p (Parser.operand l p).view := by
  match n, l with
  | n + 1, .equality =>
    rw [operand, Parser.operand]
    exact follows_binary n .comparison p hp (by simp only [Level.rank] at *; omega)
  | n + 1, .comparison =>
    rw [operand, Parser.operand]
    exact follows_binary n .term p hp (by simp only [Level.rank] at *; omega)
  | n + 1, .term =>
    rw [operand, Parser.operand]
    exact follows_binary n .factor p hp (by simp only [Level.rank] at *; omega)
  | n + 1, .factor =>
    rw [operand, Parser.operand]
    exact follows_unary n p hp (by simp only [Level.rank] at *; omega)

theorem follows_more (n : Nat) (l : Level) (left : Expr) (p : Parser) (hp : p.Proper)
    (hf : p.fault = none) (hleft : (Draft.ofExpr left).Whole) (hn : 20 * p.ahead.length < n) :
    Follows (more n l (.ofExpr left)) p (Parser.more l left p).view := by
  match n with
  | n + 1 =>
    refine follows_more_of hp hf hleft (fun hne => ?_) (fun t rest ha => ?_)
      (fun t rest e q ha hreach hq he => ?_)
    · have := List.length_pos_iff.mpr hne
      omega
    · have hpass := Parser.reaches_pass_cons ha
      have hlength := Parser.length_ahead_pass_cons ha
      have hrank : l.rank ≤ 4 := by cases l <;> decide
      exact follows_operand n l (p.pass [t]) (hpass.proper hp) (by omega)
    · have hpass := Parser.reaches_pass_cons ha
      have hlength := Parser.length_ahead_pass_cons ha
      have := hreach.length_ahead_le
      exact follows_more n l e q ((hpass.trans hreach).proper hp) hq he (by omega)

theorem follows_unary (n : Nat) (p : Parser) (hp : p.Proper) (hn : 20 * p.ahead.length + 2 < n) :
    Follows (unary n) p (Parser.unary p).view := by
  match n with
  | n + 1 =>
    refine follows_unary_of hp (fun t rest ha => ?_) (follows_primary n p hp (by omega))
    have hlength := Parser.length_ahead_pass_cons ha
    exact follows_unary n (p.pass [t]) ((Parser.reaches_pass_cons ha).proper hp) (by omega)

theorem follows_primary (n : Nat) (p : Parser) (hp : p.Proper)
    (hn : 20 * p.ahead.length + 1 < n) : Follows (primary n) p (Parser.primary p).view := by
  match n with
  | n + 1 => exact follows_primary_of hp (follows_grouping n p hp (by omega))

theorem follows_grouping (n : Nat) (p : Parser) (hp : p.Proper) (hn : 20 * p.ahead.length < n) :
    Follows (grouping n) p (Parser.grouping p).view := by
  match n with
  | n + 1 =>
    refine follows_grouping_of hp fun t rest ha => ?_
    have hlength := Parser.length_ahead_pass_cons ha
    exact follows_binary n .equality (p.pass [t]) ((Parser.reaches_pass_cons ha).proper hp)
      (by simp only [Level.rank]; omega)

end

end Indexed

end Lox
