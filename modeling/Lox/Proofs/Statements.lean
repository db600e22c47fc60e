import Lox.Proofs.Regions

/-!
# One statement after another

A list of statements is parsed by a loop: one statement, then from the state behind it the next one,
until the end is reached. This file says what one round does, and gives the induction over all of
them.

- `Parser.States`, `Parser.states`: what parsing one statement returns, in terms of the tokens ahead.
- `Parser.afterStatement_of_ok`, `Parser.afterStatement_of_error`: where the next round starts.
- `Parser.statements_induction`: what is kept from round to round holds of the whole loop.
-/

namespace Lox.Parser

open Grammar

/-- **What parsing a statement returns.** It is the tree of the tokens up to the next semicolon or
the end, or a fault at the place where the walk through the tokens halts. -/
inductive States (p : Parser) (v : Except Fault Expr × Parser) : Prop
  | tree {body tail : List Token} {e : Expr} (ends : EndsRegion tail)
      (ahead : p.ahead = body ++ tail) (derives : Derives (.level .equality) body e)
      (view : v = (.ok e, p.pass (body ++ tail.take 1)))
  | fault {w rest : List Token} {s : Stance} (ahead : p.ahead = w ++ rest)
      (walk : (Stance.operand 0).walk w = some s) (blocked : s.Blocked rest)
      (incomplete : s = .operator 0 → ∃ t rest', rest = t :: rest' ∧ t.kind ≠ .semicolon)
      (view : v = (.error (.parse ⟨rest.headD p.finish, asStatement (s.cause rest)⟩),
        (p.pass (w ++ s.overshoot rest)).failed
          (.parse ⟨rest.headD p.finish, asStatement (s.cause rest)⟩)))

theorem states (p : Parser) (hp : p.fault = none) : States p (statement p).view := by
  cases reads_binary .equality 0 p hp with
  | fault h =>
    obtain ⟨w, s, rest, ha, hw, hb, hin, -⟩ := h
    have hincomplete : s = .operator 0 → ∃ t rest', rest = t :: rest' ∧ t.kind ≠ .semicolon := by
      rintro rfl
      exact absurd hin (Nat.lt_irrefl 0)
    exact .fault ha hw hb hincomplete (view_statement_of_halt hp ha hw hb hincomplete)
  | @tree w rest e ha hder hclosed _ =>
    by_cases hends : EndsRegion rest
    · exact .tree hends ha hder (view_statement_of_derives hends hp ha hder)
    · -- another token than a semicolon follows the expression
      have hincomplete : Stance.operator 0 = .operator 0 →
          ∃ t rest', rest = t :: rest' ∧ t.kind ≠ .semicolon := by
        intro _
        simp only [EndsRegion, not_forall] at hends
        obtain ⟨t, ht, hk⟩ := hends
        obtain ⟨rest', rfl⟩ := List.head?_eq_some_iff.mp ht
        exact ⟨t, rest', rfl, hk⟩
      have hb := blocked_of_closed hclosed
      exact .fault ha (hder.walk 0) hb hincomplete
        (view_statement_of_halt hp ha (hder.walk 0) hb hincomplete)

/-! ### Round by round -/

variable {p q : Parser}

theorem statements_of_ahead_cons (h : p.ahead ≠ []) :
    p.statements.1 = (statement p).result :: p.afterStatement.statements.1 := by
  rw [statements, dif_neg h]

theorem afterStatement_of_ok {e : Expr} (h : (statement p).view = (.ok e, q)) :
    p.afterStatement = q := by
  obtain ⟨hle, ho⟩ := Outcome.eq_of_view h
  rw [afterStatement, ho]

theorem afterStatement_of_error {f : Fault} (hq : q.fault = none)
    (h : (statement p).view = (.error f, q.failed f)) : p.afterStatement = q.synchronize := by
  obtain ⟨hle, ho⟩ := Outcome.eq_of_view h
  rw [afterStatement, ho]
  exact synchronize_failed hq f

theorem fault_synchronize (p : Parser) : p.synchronize.fault = p.fault := by
  unfold synchronize advance
  cases p.ahead <;> rfl

/-- The next round starts without a fault. -/
theorem fault_afterStatement (hp : p.fault = none) : p.afterStatement.fault = none := by
  cases states p hp with
  | tree _ _ _ hv =>
    rw [afterStatement_of_ok hv]
    exact hp
  | @fault w rest s _ _ _ _ hv =>
    rw [afterStatement_of_error (q := p.pass (w ++ s.overshoot rest)) hp hv, fault_synchronize]
    exact hp

/-- **Induction over the rounds of the loop**: what holds at the end, and holds before a round if it
holds behind it, holds of every parser without a fault. -/
theorem statements_induction {motive : (p : Parser) → p.fault = none → Prop}
    (done : ∀ (p : Parser) (hp : p.fault = none), p.ahead = [] → motive p hp)
    (round : ∀ (p : Parser) (hp : p.fault = none), p.ahead ≠ [] →
      motive p.afterStatement (fault_afterStatement hp) → motive p hp)
    (p : Parser) (hp : p.fault = none) : motive p hp := by
  by_cases h : p.ahead = []
  · exact done p hp h
  · have hlt := length_afterStatement_lt h
    exact round p hp h
      (statements_induction done round p.afterStatement (fault_afterStatement hp))
termination_by p.ahead.length

end Lox.Parser
