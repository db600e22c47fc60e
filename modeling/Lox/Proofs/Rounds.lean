import Lox.Proofs.InPlace

/-!
# The loops in place

The rules in place do what the rules of `Parser` do (`follows_binary` and the like). So do the loops
around them: recovery, which looks back at every step, and the loop over statements, which nothing
but recovery keeps going.

- `Indexed.follows_statement`, `Indexed.synchronize_indexed`: a statement, and recovery behind it.
- `Parser.log`: the rounds of the loop over statements, each with the place where it starts and the
  place where its statement halts; `Indexed.rounds_indexed`: the loop in place runs these rounds.
- `Indexed.parse_indexed`, `Indexed.parseAll_indexed`: whole inputs.
-/

namespace Lox

namespace Indexed

open Lox.Parser (Outcome endsStatement)

/-! ### A statement -/

theorem follows_statement (n : Nat) (p : Parser) (hp : p.Proper)
    (hn : 20 * p.ahead.length + 10 < n) : Follows (statement n) p (Parser.statement p).view := by
  have hexpr := follows_binary n .equality p hp hn
  generalize hview : (Parser.binary .equality p).view = v at hexpr
  cases hexpr with
  | @fault f q hreach hq hrun =>
    rw [Parser.view_statement_error hview]
    refine .fault hreach hq fun behind => ?_
    rw [statement, expression, bind_run (hrun behind), ite_run_true (hasFault_of_some behind hq)]
    rfl
  | @tree e q hreach hq hwhole hrun =>
    have hproper : q.Proper := hreach.proper hp
    cases ha : q.ahead with
    | nil =>
      -- the end of the input closes the statement
      rw [Parser.view_statement_end hview ha]
      refine .tree hreach hq hwhole fun behind => ?_
      rw [statement, expression, bind_run (hrun behind), ite_run_false (hasFault_of_none behind hq),
        ite_run_false (accept_of_ahead_nil behind hproper ha),
        ite_run_true (isAtEnd_of_nil behind hproper ha)]
      rfl
    | cons t rest =>
      by_cases hk : t.kind = .semicolon
      · have hpass : q.Reaches (q.pass [t]) := Parser.reaches_pass_cons ha
        rw [Parser.view_statement_semicolon hview hq ha hk]
        refine .tree (hreach.trans hpass) hq hwhole fun behind => ?_
        rw [statement, expression, bind_run (hrun behind),
          ite_run_false (hasFault_of_none behind hq),
          ite_run_true (accept_kind_yes behind hproper hq ha hk)]
        rfl
      · have hpeek : q.peek = t := by simp [Parser.peek, ha]
        rw [Parser.view_statement_more hview hq ha hk, ← Parser.view_raiseAt hq, ← hpeek]
        refine (follows_raiseHere q .expectedSemicolon).after hreach fun behind => ?_
        rw [statement, expression, bind_run (hrun behind),
          ite_run_false (hasFault_of_none behind hq),
          ite_run_false (accept_kind_no behind hproper ha hk),
          ite_run_false (isAtEnd_of_cons behind hproper ha)]

/-! ### Recovery -/

variable {p : Parser} (behind : List Token)

/-- **Recovery looks back only behind a token**: at the end it does not look, and before the end it
has passed one. -/
theorem toBoundary_indexed {n : Nat} (hp : p.Proper) (hback : p.ahead ≠ [] → p.passed ≠ [])
    (hn : p.ahead.length < n) :
    toBoundary n (p.indexed behind) = some ((), p.atBoundary.indexed behind) := by
  -- along the tokens ahead, as recovery goes
  obtain ⟨ahead, ha⟩ : ∃ ahead, p.ahead = ahead := ⟨_, rfl⟩
  obtain ⟨n, rfl⟩ := Nat.exists_eq_add_one.mpr (Nat.zero_lt_of_lt hn)
  induction ahead generalizing p n with
  | nil =>
    rw [toBoundary, ite_run_true (isAtEnd_of_nil behind hp ha), Parser.atBoundary_of_ahead_nil ha]
    rfl
  | cons t rest ih =>
    have hpeek : p.peek = t := by simp [Parser.peek, ha]
    obtain ⟨last, passed, hpassed⟩ := List.exists_cons_of_ne_nil (hback (by simp [ha]))
    have hends : endsStatement p.passed = (last.kind == .semicolon) := by
      rw [hpassed]
      rfl
    rw [toBoundary, ite_run_false (isAtEnd_of_cons behind hp ha),
      bind_run (previous_indexed behind hpassed), ← hends]
    cases hsemi : endsStatement p.passed with
    | true =>
      rw [Parser.atBoundary_of_endsStatement hsemi]
      rfl
    | false =>
      rw [if_neg Bool.false_ne_true, bind_run (peek_indexed behind p), hpeek]
      cases hstart : t.kind.startsStatement with
      | true =>
        rw [Parser.atBoundary_of_startsStatement ha hstart]
        rfl
      | false =>
        have hpass : p.Reaches (p.pass [t]) := Parser.reaches_pass_cons ha
        rw [if_neg Bool.false_ne_true, bind_run (advance_indexed behind hp),
          Parser.advance_eq_pass ha, Parser.atBoundary_pass ha hsemi hstart]
        have hlength := Parser.length_ahead_pass_cons ha
        obtain ⟨n, rfl⟩ : ∃ k, n = k + 1 := Nat.exists_eq_add_one.mpr (by omega)
        exact ih (hpass.proper hp) (fun _ => by simp [Parser.pass])
          (Parser.ahead_pass (w := [t]) ha) n (by omega)

theorem synchronize_indexed {n : Nat} (hp : p.Proper) (hn : p.ahead.length < n) :
    synchronize n (p.indexed behind) = some ((), p.synchronize.indexed behind) := by
  have hback : p.advance.ahead ≠ [] → p.advance.passed ≠ [] := by
    intro hne
    cases ha : p.ahead with
    | nil => exact absurd (by simp [Parser.advance, ha]) hne
    | cons t rest => simp [Parser.advance, ha]
  rw [synchronize, bind_run (advance_indexed behind hp)]
  have hreach := Parser.reaches_advance p
  exact toBoundary_indexed behind (hreach.proper hp) hback
    (Nat.lt_of_le_of_lt hreach.length_ahead_le hn)

theorem clearFault_indexed (p : Parser) :
    clearFault (p.indexed behind) = some ((), p.clearFault.indexed behind) := rfl

/-! ### Logs -/

variable {r : Round} {log : List Round} {f : Fault} {d : Draft}

theorem faults_cons_of_error (h : r.outcome = .error f) : faults (r :: log) = f :: faults log := by
  simp [faults, h]

theorem faults_cons_of_ok (h : r.outcome = .ok d) : faults (r :: log) = faults log := by
  simp [faults, h]

theorem places_cons_of_error (h : r.outcome = .error f) :
    places (r :: log) = r.place :: places log := by
  simp [places, h]

theorem places_cons_of_ok (h : r.outcome = .ok d) : places (r :: log) = places log := by
  simp [places, h]

theorem trees_cons_of_error (h : r.outcome = .error f) : trees (r :: log) = trees log := by
  simp [trees, h]

theorem trees_cons_of_ok (h : r.outcome = .ok d) : trees (r :: log) = d :: trees log := by
  simp [trees, h]

end Indexed

/-! ### Rounds -/

namespace Parser

open Indexed (Round)

/-- **The round that starts at a parser.** -/
def round (p : Parser) : Round where
  start := p.position
  halt := (statement p).next.position
  outcome := (statement p).result.map Draft.ofExpr

/-- **The rounds of the loop over statements.** -/
def log (p : Parser) : List Round :=
  if _h : p.ahead = [] then []
  else p.round :: log p.afterStatement
termination_by p.ahead.length
decreasing_by exact length_afterStatement_lt _h

variable {p : Parser}

theorem log_of_ahead_nil (h : p.ahead = []) : p.log = [] := by
  rw [log, dif_pos h]

theorem log_of_ahead_cons (h : p.ahead ≠ []) : p.log = p.round :: p.afterStatement.log := by
  rw [log, dif_neg h]

theorem statements_snd_of_ahead_cons (h : p.ahead ≠ []) :
    p.statements.2 = p.afterStatement.statements.2 := by
  conv => lhs; rw [statements, dif_neg h]

theorem round_outcome_of_ok {e : Expr} (h : (statement p).result = .ok e) :
    p.round.outcome = .ok (.ofExpr e) := by
  show (statement p).result.map Draft.ofExpr = _
  rw [h]
  rfl

theorem round_outcome_of_error {f : Fault} (h : (statement p).result = .error f) :
    p.round.outcome = .error f := by
  show (statement p).result.map Draft.ofExpr = _
  rw [h]
  rfl

/-- There is one round for every statement. -/
theorem length_log (p : Parser) : p.log.length = p.statements.1.length := by
  induction p using log.induct with
  | case1 p h =>
    rw [log_of_ahead_nil h, statements_of_ahead_nil h]
    rfl
  | case2 p h ih =>
    rw [log_of_ahead_cons h, statements_of_ahead_cons h, List.length_cons, List.length_cons, ih]

theorem faults_log (p : Parser) : Indexed.faults p.log = faults p.statements.1 := by
  induction p using log.induct with
  | case1 p h =>
    rw [log_of_ahead_nil h, statements_of_ahead_nil h]
    rfl
  | case2 p h ih =>
    rw [log_of_ahead_cons h, statements_of_ahead_cons h]
    cases hresult : (statement p).result with
    | error f =>
      rw [Indexed.faults_cons_of_error (round_outcome_of_error hresult), ih]
      rfl
    | ok e =>
      rw [Indexed.faults_cons_of_ok (round_outcome_of_ok hresult), ih]
      rfl

theorem trees_log (p : Parser) : Indexed.trees p.log = (trees p.statements.1).map Draft.ofExpr := by
  induction p using log.induct with
  | case1 p h =>
    rw [log_of_ahead_nil h, statements_of_ahead_nil h]
    rfl
  | case2 p h ih =>
    rw [log_of_ahead_cons h, statements_of_ahead_cons h]
    cases hresult : (statement p).result with
    | error f =>
      rw [Indexed.trees_cons_of_error (round_outcome_of_error hresult), ih]
      rfl
    | ok e =>
      rw [Indexed.trees_cons_of_ok (round_outcome_of_ok hresult), ih]
      rfl

/-- The trees handed out are those of the statements. -/
theorem eq_trees_of_parseAll_ok {es : List Expr} (h : p.parseAll.1 = .ok es) :
    es = trees p.statements.1 := by
  rw [parseAll, gather_eq] at h
  split at h
  · cases h
    rfl
  · cases h

/-- The fault handed out collects those of the statements. -/
theorem eq_joined_of_parseAll_error {f : Fault} (h : p.parseAll.1 = .error f) :
    f = .joined (faults p.statements.1) := by
  rw [parseAll, gather_eq] at h
  split at h
  · cases h
  · cases h
    rfl

end Parser

namespace Indexed

variable {p : Parser} (behind : List Token)

/-- **A round in place is a round of the loop**, and stops where the loop goes on. -/
theorem round_indexed {n : Nat} (hp : p.Proper) (hn : 20 * p.ahead.length + 10 < n) :
    round n (p.indexed behind) = some (p.round, p.afterStatement.indexed behind) := by
  have hstatement := follows_statement n p hp hn
  generalize hview : (Parser.statement p).view = v at hstatement
  obtain ⟨hle, ho⟩ := Parser.Outcome.eq_of_view (r := v.1) (q := v.2) hview
  rw [round, bind_run (get_run _), Parser.round, Parser.afterStatement, ho]
  cases hstatement with
  | @tree e q hreach hq hwhole hrun =>
    have hfault : (q.indexed behind).fault = none := hq
    rw [bind_run (hrun behind), bind_run (get_run _), bind_run (get_run _), hfault]
    rfl
  | @fault f q hreach hq hrun =>
    have hfault : (q.indexed behind).fault = some f := hq
    have hle := hreach.length_ahead_le
    rw [bind_run (hrun behind), bind_run (get_run _), bind_run (get_run _), hfault]
    show (synchronize n >>= _) _ = _
    rw [bind_run (synchronize_indexed behind (hreach.proper hp) (by omega)),
      bind_run (clearFault_indexed behind _)]
    rfl

/-- Where the loop goes on is further on in the same tokens. -/
theorem reaches_afterStatement (hp : p.Proper) : p.Reaches p.afterStatement := by
  have hstatement := follows_statement _ p hp (Nat.lt_succ_self _)
  generalize hview : (Parser.statement p).view = v at hstatement
  obtain ⟨hle, ho⟩ := Parser.Outcome.eq_of_view (r := v.1) (q := v.2) hview
  rw [Parser.afterStatement, ho]
  cases hstatement with
  | tree hreach _ _ _ => exact hreach
  | fault hreach _ _ =>
    exact hreach.trans ((Parser.reaches_synchronize _).trans (Parser.reaches_withFault _ none))

/-- **The loop in place runs the rounds of the loop**, and comes to an end. -/
theorem rounds_indexed {n : Nat} (hp : p.Proper) (hn : 20 * p.ahead.length + 11 < n) :
    rounds n (p.indexed behind) = some (p.log, p.statements.2.indexed behind) := by
  obtain ⟨n, rfl⟩ := Nat.exists_eq_add_one.mpr (Nat.zero_lt_of_lt hn)
  induction p using Parser.log.induct generalizing n with
  | case1 p h =>
    rw [rounds, ite_run_true (isAtEnd_of_nil behind hp h), Parser.log_of_ahead_nil h,
      Parser.statements_of_ahead_nil h]
    rfl
  | case2 p h ih =>
    obtain ⟨t, rest, ha⟩ := List.exists_cons_of_ne_nil h
    have hlt := Parser.length_afterStatement_lt h
    obtain ⟨n, rfl⟩ : ∃ k, n = k + 1 := Nat.exists_eq_add_one.mpr (by omega)
    rw [rounds, ite_run_false (isAtEnd_of_cons behind hp ha),
      bind_run (round_indexed behind hp (by omega)),
      bind_run (ih ((reaches_afterStatement hp).proper hp) n (by omega)),
      Parser.log_of_ahead_cons h, Parser.statements_snd_of_ahead_cons h]
    rfl

/-- The loop moves on in the same tokens. -/
theorem reaches_statements (hp : p.Proper) : p.Reaches p.statements.2 := by
  induction p using Parser.log.induct with
  | case1 p h =>
    rw [Parser.statements_of_ahead_nil h]
    exact .refl p
  | case2 p h ih =>
    rw [Parser.statements_snd_of_ahead_cons h]
    have hafter := reaches_afterStatement hp
    exact hafter.trans (ih (hafter.proper hp))

/-! ### Whole inputs -/

theorem parseAll_indexed {n : Nat} (hp : p.Proper) (hn : 20 * p.ahead.length + 11 < n) :
    parseAll n (p.indexed behind)
      = some (Draft.handedAll p.parseAll.1, p.parseAll.2.indexed behind) := by
  rw [parseAll, bind_run (rounds_indexed behind hp hn), Parser.faults_log, Parser.trees_log,
    Parser.parseAll, Parser.gather]
  cases Fault.join ((Parser.faults p.statements.1).map some) <;> rfl

/-- Behind a fault the end is not looked for. -/
theorem expectEnd_of_fault {f : Fault} (hf : p.fault = some f) :
    expectEnd (p.indexed behind) = some ((), p.indexed behind) := by
  rw [expectEnd, ite_run_true (hasFault_of_some behind hf)]
  rfl

theorem expectEnd_of_ahead_nil (hp : p.Proper) (hf : p.fault = none) (ha : p.ahead = []) :
    expectEnd (p.indexed behind) = some ((), p.indexed behind) := by
  rw [expectEnd, ite_run_false (hasFault_of_none behind hf),
    ite_run_true (isAtEnd_of_nil behind hp ha)]
  rfl

/-- A token where the end should be is the fault. -/
theorem expectEnd_of_ahead_cons {t : Token} {rest : List Token} (hp : p.Proper)
    (hf : p.fault = none) (ha : p.ahead = t :: rest) :
    expectEnd (p.indexed behind)
      = some ((), (p.failed (.parse ⟨t, .expectedEnd⟩)).indexed behind) := by
  have hpeek : p.peek = t := by simp [Parser.peek, ha]
  have hraise := (follows_raiseHere p .expectedEnd).run_eq behind
  rw [Parser.raiseHere, hpeek, Parser.view_raiseAt hf] at hraise
  rw [expectEnd, ite_run_false (hasFault_of_none behind hf),
    ite_run_false (isAtEnd_of_cons behind hp ha), bind_run hraise]
  rfl

/-- **Parsing one expression in place** returns the tree, or the fault and no tree. -/
theorem parse_indexed {n : Nat} (hp : p.Proper) (hn : 20 * p.ahead.length + 10 < n) :
    parse n (p.indexed behind)
      = some (Draft.handed p.parse.result, p.parse.next.indexed behind) := by
  have hexpr := follows_binary n .equality p hp hn
  generalize hview : (Parser.binary .equality p).view = v at hexpr
  cases hexpr with
  | @fault f q hreach hq hrun =>
    have hfault : (q.indexed behind).fault = some f := hq
    obtain ⟨hle, ho⟩ := Parser.Outcome.eq_of_view (Parser.view_parse_error hview)
    rw [parse, expression, bind_run (hrun behind), bind_run (expectEnd_of_fault behind hq),
      bind_run (get_run _), hfault, ho]
    rfl
  | @tree e q hreach hq hwhole hrun =>
    have hproper : q.Proper := hreach.proper hp
    cases ha : q.ahead with
    | nil =>
      have hfault : (q.indexed behind).fault = none := hq
      obtain ⟨hle, ho⟩ := Parser.Outcome.eq_of_view (Parser.view_parse_end hview ha)
      rw [parse, expression, bind_run (hrun behind),
        bind_run (expectEnd_of_ahead_nil behind hproper hq ha), bind_run (get_run _), hfault, ho]
      rfl
    | cons t rest =>
      obtain ⟨hle, ho⟩ := Parser.Outcome.eq_of_view (Parser.view_parse_more hview hq ha)
      rw [parse, expression, bind_run (hrun behind),
        bind_run (expectEnd_of_ahead_cons behind hproper hq ha), bind_run (get_run _), ho]
      rfl

/-! ### Without a limit -/

theorem gives_rounds (hp : p.Proper) :
    Gives rounds (p.indexed behind) (p.log, p.parseAll.2.indexed behind) :=
  ⟨20 * p.ahead.length + 12, fun _ hn => rounds_indexed behind hp hn⟩

theorem gives_parseAll (hp : p.Proper) :
    Gives parseAll (p.indexed behind)
      (Draft.handedAll p.parseAll.1, p.parseAll.2.indexed behind) :=
  ⟨20 * p.ahead.length + 12, fun _ hn => parseAll_indexed behind hp hn⟩

theorem gives_parse (hp : p.Proper) :
    Gives parse (p.indexed behind) (Draft.handed p.parse.result, p.parse.next.indexed behind) :=
  ⟨20 * p.ahead.length + 11, fun _ hn => parse_indexed behind hp hn⟩

theorem reaches_parse (hp : p.Proper) : p.Reaches p.parse.next := by
  have hreach : p.Reaches (Parser.expression p).next :=
    (follows_binary _ .equality p hp (Nat.lt_succ_self _)).reaches
  unfold Parser.parse
  generalize Parser.expression p = o at hreach ⊢
  obtain ⟨_ | e, q, hle⟩ := o
  · exact hreach
  · dsimp only
    split
    · exact hreach
    · exact hreach.trans (Parser.reaches_raise q _)

end Indexed

end Lox
