import Lox.Proofs.Parse

/-!
# Lists of statements, region by region

Semicolons cut the tokens before the first end token into regions. Parsing a list of statements is
parsing each region as one expression: a region that parses gives its tree, and one that does not
gives the error it has alone, told about the list, followed by one error for every reserved word
behind it at which recovery stops.

- `Region`, `regions`: the regions, each with the token that ends it.
- `Region.outcomes`, `Region.faults`: what a region contributes.
- `view_statement_of_halt`: an expression never reaches over a semicolon, so a statement fails where
  its region fails.
- `outcomes_region`: one region, from its first token to behind its terminator.
- `outcomes_eq_flatMap`: all regions.
- `parseAll_by_regions`: the trees or the errors of the whole list.
-/

namespace Lox.Parser

open Grammar

/-- **A region**: tokens between semicolons, and the semicolon or end token behind them. -/
structure Region where
  body : List Token
  terminator : Token
  deriving DecidableEq, Repr

/-- **The regions of tokens.** What stands behind the last semicolon is a region only if there is
something; it ends at `finish`. -/
def regions (finish : Token) : List Token → List Region
  | [] => []
  | t :: rest =>
    if t.kind = .semicolon then ⟨[], t⟩ :: regions finish rest
    else match regions finish rest with
      | [] => [⟨[t], finish⟩]
      | r :: later => ⟨t :: r.body, r.terminator⟩ :: later

/-- How the cause of an error reads in a list: a semicolon is missing where alone the end is. -/
def asStatement : Cause → Cause
  | .expectedEnd => .expectedSemicolon
  | c => c

namespace Region

/-- **The region is an expression.** -/
def WellFormed (r : Region) : Prop := ∃ e, (ofTokens r.body).parse.result = .ok e

/-- Where the parser stands after parsing the region alone. -/
def cursor (r : Region) : Nat := (ofTokens r.body).parse.next.position

/-- The error of a region alone as it is told in the list: at the end of the region it names the
token that really stands there. -/
def relocate (r : Region) : Fault → Fault
  | .parse e =>
    .parse ⟨if e.token.kind = .eof then r.terminator else e.token, asStatement e.cause⟩
  | f => f

/-- The reserved words behind the parser's place at which recovery stops. -/
def strays (r : Region) : List Token :=
  (r.body.drop (r.cursor + 1)).filter fun t => t.kind.startsStatement

/-- **The faults of a region** in a list. -/
def faults (r : Region) : List Fault :=
  match (ofTokens r.body).parse.result with
  | .ok _ => []
  | .error f => r.relocate f :: r.strays.map fun t => .parse ⟨t, .unexpectedToken⟩

/-- **The outcomes of a region** in a list. -/
def outcomes (r : Region) : List (Except Fault Expr) :=
  match (ofTokens r.body).parse.result with
  | .ok e => [.ok e]
  | .error _ => r.faults.map .error

end Region

/-! ### Cutting at semicolons -/

theorem regions_append_semicolon {body : List Token} (hbody : ∀ t ∈ body, t.kind ≠ .semicolon)
    {semi : Token} (hsemi : semi.kind = .semicolon) (finish : Token) (rest : List Token) :
    regions finish (body ++ semi :: rest) = ⟨body, semi⟩ :: regions finish rest := by
  induction body with
  | nil => simp [regions, hsemi]
  | cons t body ih =>
    have ht : t.kind ≠ .semicolon := hbody t List.mem_cons_self
    have hrest : ∀ t' ∈ body, t'.kind ≠ .semicolon := fun t' ht' =>
      hbody t' (List.mem_cons_of_mem t ht')
    rw [List.cons_append, regions, if_neg ht, ih hrest]

theorem regions_of_no_semicolon {body : List Token} (hbody : ∀ t ∈ body, t.kind ≠ .semicolon)
    (hne : body ≠ []) (finish : Token) : regions finish body = [⟨body, finish⟩] := by
  induction body with
  | nil => exact absurd rfl hne
  | cons t body ih =>
    have ht : t.kind ≠ .semicolon := hbody t List.mem_cons_self
    rw [regions, if_neg ht]
    cases body with
    | nil => rfl
    | cons t' body =>
      rw [ih (fun u hu => hbody u (List.mem_cons_of_mem t hu)) (List.cons_ne_nil t' body)]

/-- The tokens behind a region: none, or a semicolon first. -/
def EndsRegion (tail : List Token) : Prop := ∀ t ∈ tail.head?, t.kind = .semicolon

theorem regions_append {body tail : List Token} (hbody : ∀ t ∈ body, t.kind ≠ .semicolon)
    (htail : EndsRegion tail) (hne : body ++ tail ≠ []) (finish : Token) :
    regions finish (body ++ tail)
      = ⟨body, tail.headD finish⟩ :: regions finish (tail.drop 1) := by
  cases tail with
  | nil =>
    rw [List.append_nil] at hne ⊢
    exact regions_of_no_semicolon hbody hne finish
  | cons semi rest => exact regions_append_semicolon hbody (htail semi rfl) finish rest

/-- Tokens split at their first semicolon. -/
theorem exists_region (tokens : List Token) :
    ∃ body tail, tokens = body ++ tail ∧ (∀ t ∈ body, t.kind ≠ .semicolon) ∧ EndsRegion tail := by
  let plain : Token → Bool := fun t => t.kind != .semicolon
  refine ⟨tokens.takeWhile plain, tokens.dropWhile plain, ?_, fun t ht => ?_, fun t ht => ?_⟩
  · exact List.takeWhile_append_dropWhile.symm
  · simpa [plain] using List.mem_takeWhile_imp ht
  · have hno := List.head?_dropWhile_not plain tokens
    rw [ht] at hno
    simpa [plain] using hno

/-! ### One statement -/

variable {p q : Parser} {f : Fault} {e : Expr} {t : Token} {rest : List Token}

theorem view_statement_error (h : (binary .equality p).view = (.error f, q)) :
    (statement p).view = (.error f, q) := by
  obtain ⟨hle, ho⟩ := Outcome.eq_of_view h
  rw [statement, expression, ho]
  rfl

theorem view_statement_semicolon (h : (binary .equality p).view = (.ok e, q)) (hq : q.fault = none)
    (ha : q.ahead = t :: rest) (hk : t.kind = .semicolon) :
    (statement p).view = (.ok e, q.pass [t]) := by
  obtain ⟨hle, ho⟩ := Outcome.eq_of_view h
  obtain ⟨hlt, htake⟩ := takeIf?_eq_some (· == .semicolon) hq ha (by simp [hk])
  rw [statement, expression, ho]
  dsimp only
  rw [htake]
  rfl

theorem view_statement_end (h : (binary .equality p).view = (.ok e, q)) (ha : q.ahead = []) :
    (statement p).view = (.ok e, q) := by
  obtain ⟨hle, ho⟩ := Outcome.eq_of_view h
  have htake : q.takeIf? (· == .semicolon) = none := takeIf?_eq_none (by simp [ha])
  rw [statement, expression, ho]
  dsimp only
  rw [htake]
  simp [atEnd, ha, Outcome.view]

theorem view_statement_more (h : (binary .equality p).view = (.ok e, q)) (hq : q.fault = none)
    (ha : q.ahead = t :: rest) (hk : t.kind ≠ .semicolon) :
    (statement p).view
      = (.error (.parse ⟨t, .expectedSemicolon⟩), q.failed (.parse ⟨t, .expectedSemicolon⟩)) := by
  obtain ⟨hle, ho⟩ := Outcome.eq_of_view h
  have htake : q.takeIf? (· == .semicolon) = none :=
    takeIf?_eq_none (by simp [ha, hk])
  have hpeek : q.peek = t := by simp [peek, ha]
  rw [statement, expression, ho]
  dsimp only
  rw [htake]
  simp only [atEnd, ha, List.isEmpty_cons, Bool.false_eq_true, ↓reduceIte, view_since, raiseHere,
    hpeek]
  exact view_raiseAt hq t .expectedSemicolon

/-- **A statement fails where the walk through it halts**, unless it is complete there. -/
theorem view_statement_of_halt {w : List Token} {s : Stance} (hp : p.fault = none)
    (ha : p.ahead = w ++ rest) (hw : (Stance.operand 0).walk w = some s) (hb : s.Blocked rest)
    (hincomplete : s = .operator 0 → ∃ t rest', rest = t :: rest' ∧ t.kind ≠ .semicolon) :
    (statement p).view
      = (.error (.parse ⟨rest.headD p.finish, asStatement (s.cause rest)⟩),
        (p.pass (w ++ s.overshoot rest)).failed
          (.parse ⟨rest.headD p.finish, asStatement (s.cause rest)⟩)) := by
  cases reads_binary .equality 0 p hp with
  | fault h =>
    obtain ⟨w', s', rest', ha', hw', hb', hin, hv⟩ := h
    obtain ⟨rfl, rfl, rfl⟩ := Stance.halt_unique (ha.symm.trans ha') hw hb hw' hb'
    -- only behind a whole expression do the causes differ, and there the rule has a tree
    have hcause : asStatement (s.cause rest) = s.cause rest := by
      cases s with
      | operand d =>
        obtain hc | hc | hc | hc := cause_cases (.operand d) rest
        · cases cause_eq_expectedEnd_iff.mp hc
        · rw [hc]; rfl
        · rw [hc]; rfl
        · rw [hc]; rfl
      | operator d =>
        cases d with
        | zero => exact absurd hin (Nat.lt_irrefl 0)
        | succ d => rfl
    rw [hcause]
    exact view_statement_error hv
  | @tree w' rest' e ha' hder hclosed hv =>
    obtain ⟨rfl, rfl, rfl⟩ := Stance.halt_unique (ha.symm.trans ha') hw hb (hder.walk 0)
      (blocked_of_closed hclosed)
    obtain ⟨t, rest', rfl, hk⟩ := hincomplete rfl
    rw [view_statement_more hv hp (ahead_pass ha) hk]
    simp [Stance.overshoot, Stance.cause, asStatement]

/-! A region's own end and a semicolon stop the parser in the same way. -/

section

variable {tail : List Token} {s : Stance}

theorem mark?_of_semicolon (h : t.kind = .semicolon) : t.mark? = none := by
  simp [Token.mark?, h]

theorem blocked_append (htail : EndsRegion tail) (hb : s.Blocked rest) :
    s.Blocked (rest ++ tail) := by
  intro t ht
  cases rest with
  | nil => exact Stance.step_eq_none_of_mark? (mark?_of_semicolon (htail t ht)) s
  | cons t' rest => exact hb t ht

theorem cause_append (htail : EndsRegion tail) : s.cause (rest ++ tail) = s.cause rest := by
  cases s with
  | operator d => cases d <;> rfl
  | operand d =>
    cases rest with
    | cons t rest => rfl
    | nil =>
      cases tail with
      | nil => rfl
      | cons semi more =>
        refine if_neg ?_
        rw [htail semi rfl]
        simp

theorem overshoot_append (htail : EndsRegion tail) :
    s.overshoot (rest ++ tail) = s.overshoot rest := by
  have hlen := length_overshoot s rest
  unfold Stance.overshoot at hlen ⊢
  rw [cause_append htail]
  split
  · next hc =>
    rw [if_pos hc, if_pos hc] at hlen
    cases rest with
    | nil => cases hlen
    | cons t rest => rfl
  · rfl

/-- What is taken beyond the place of a fault is the front of what is left there. -/
theorem append_overshoot (w : List Token) (s : Stance) (rest : List Token) :
    w ++ s.overshoot rest ++ rest.drop (s.overshoot rest).length = w ++ rest := by
  rw [List.append_assoc]
  unfold Stance.overshoot
  split
  · cases rest <;> rfl
  · rfl

/-- A region never goes on with an operator. -/
theorem closed_of_endsRegion {c : Category} (htail : EndsRegion tail) : Closed c tail := by
  intro t ht l _
  rw [htail t ht]
  cases l <;> rfl

end

/-! ### Recovery -/

/-- The state at the next boundary. -/
def atBoundary (p : Parser) : Parser :=
  { p with
    passed := (toBoundary p.passed p.ahead).1
    ahead := (toBoundary p.passed p.ahead).2 }

theorem synchronize_eq_atBoundary (p : Parser) : p.synchronize = p.advance.atBoundary := rfl

/-- A fault is forgotten with recovery. -/
theorem synchronize_failed (hp : p.fault = none) (f : Fault) :
    (p.failed f).synchronize.clearFault = p.synchronize := by
  obtain ⟨passed, ahead, finish, behind, fault⟩ := p
  cases hp
  cases ahead <;> rfl

theorem atBoundary_of_ahead_nil (h : p.ahead = []) : p.atBoundary = p := by
  obtain ⟨passed, ahead, finish, behind, fault⟩ := p
  cases h
  rfl

theorem atBoundary_of_endsStatement (h : endsStatement p.passed = true) : p.atBoundary = p := by
  obtain ⟨passed, ahead, finish, behind, fault⟩ := p
  cases ahead with
  | nil => rfl
  | cons t rest => simp_all [atBoundary, toBoundary]

theorem atBoundary_of_startsStatement (ha : p.ahead = t :: rest)
    (h : t.kind.startsStatement = true) : p.atBoundary = p := by
  obtain ⟨passed, ahead, finish, behind, fault⟩ := p
  cases ha
  simp [atBoundary, toBoundary, h]

theorem atBoundary_pass (ha : p.ahead = t :: rest) (hends : endsStatement p.passed = false)
    (h : t.kind.startsStatement = false) : p.atBoundary = (p.pass [t]).atBoundary := by
  obtain ⟨passed, ahead, finish, behind, fault⟩ := p
  cases ha
  dsimp only at hends
  simp [atBoundary, toBoundary, h, hends, pass]

/-! ### Lists of statements -/

theorem statements_of_ahead_nil (h : p.ahead = []) : p.statements = ([], p) := by
  rw [statements, dif_pos h]

theorem outcomes_of_ok (ha : p.ahead ≠ []) (h : (statement p).view = (.ok e, q)) :
    p.statements.1 = .ok e :: q.statements.1 := by
  obtain ⟨hle, ho⟩ := Outcome.eq_of_view h
  rw [statements, dif_neg ha]
  simp only [afterStatement, ho]

theorem outcomes_of_error (ha : p.ahead ≠ []) (h : (statement p).view = (.error f, q)) :
    p.statements.1 = .error f :: q.synchronize.clearFault.statements.1 := by
  obtain ⟨hle, ho⟩ := Outcome.eq_of_view h
  rw [statements, dif_neg ha]
  simp only [afterStatement, ho]

/-- The fault of a reserved word where a statement should start. -/
def strayFault (t : Token) : Except Fault Expr := .error (.parse ⟨t, .unexpectedToken⟩)

/-- A reserved word that starts a statement is no expression. -/
theorem view_statement_stray (hp : p.fault = none) (ha : p.ahead = t :: rest)
    (h : t.kind.startsStatement = true) :
    (statement p).view = (strayFault t, p.failed (.parse ⟨t, .unexpectedToken⟩)) := by
  have hmark : t.mark? = none := by
    unfold TokenKind.startsStatement at h
    unfold Token.mark?
    split at h <;> simp_all
  have hnumber : t.kind ≠ .number := fun hk => by rw [hk] at h; cases h
  have hcause : (Stance.operand 0).cause (t :: rest) = .unexpectedToken := if_neg hnumber
  rw [view_statement_of_halt (w := []) hp ha rfl
    (Stance.blocked_cons (Stance.step_eq_none_of_mark? hmark _) rest) fun h => nomatch h]
  simp [hcause, Stance.overshoot, asStatement, strayFault]

/-- **Behind a fault** every reserved word of the region that starts a statement gives one more
fault, and then the list goes on behind the region. -/
theorem outcomes_atBoundary {body tail : List Token} (hbody : ∀ t ∈ body, t.kind ≠ .semicolon)
    (htail : EndsRegion tail) (p : Parser) (hp : p.fault = none) (ha : p.ahead = body ++ tail)
    (hends : endsStatement p.passed = false) :
    p.atBoundary.statements.1
      = (body.filter fun t => t.kind.startsStatement).map strayFault
        ++ (p.pass (body ++ tail.take 1)).statements.1 := by
  induction body generalizing p with
  | nil =>
    cases tail with
    | nil => rw [atBoundary_of_ahead_nil ha]; rfl
    | cons semi more =>
      have hk : semi.kind = .semicolon := htail semi rfl
      have hends' : endsStatement (p.pass [semi]).passed = true := by simp [pass, endsStatement, hk]
      -- recovery takes the semicolon and stops behind it
      rw [atBoundary_pass ha hends (by rw [hk]; rfl), atBoundary_of_endsStatement hends']
      rfl
  | cons t body ih =>
    have ht : t.kind ≠ .semicolon := hbody t List.mem_cons_self
    have hends' : endsStatement (p.pass [t]).passed = false := by simp [pass, endsStatement, ht]
    have hrec := ih (fun t' ht' => hbody t' (List.mem_cons_of_mem t ht')) (p.pass [t]) hp
      (ahead_pass (w := [t]) ha) hends'
    rw [pass_pass] at hrec
    cases hs : t.kind.startsStatement with
    | false =>
      -- recovery goes on to the next token
      rw [atBoundary_pass ha hends hs, hrec, List.filter_cons_of_neg (by simp [hs])]
      rfl
    | true =>
      -- recovery stops here, and the next statement fails at once
      have hne : p.ahead ≠ [] := by simp [ha]
      rw [atBoundary_of_startsStatement ha hs,
        outcomes_of_error hne (view_statement_stray hp ha hs), synchronize_failed hp,
        synchronize_eq_atBoundary, advance_eq_pass ha, hrec,
        List.filter_cons_of_pos (by simp [hs])]
      rfl

/-- **Recovery from a fault in the middle of a region.** -/
theorem outcomes_synchronize {body tail : List Token} (hbody : ∀ t ∈ body, t.kind ≠ .semicolon)
    (htail : EndsRegion tail) (hp : p.fault = none) (ha : p.ahead = body ++ tail) :
    p.synchronize.statements.1
      = ((body.drop 1).filter fun t => t.kind.startsStatement).map strayFault
        ++ (p.pass (body ++ tail.take 1)).statements.1 := by
  rw [synchronize_eq_atBoundary]
  cases body with
  | nil =>
    cases tail with
    | nil =>
      have hadvance : p.advance = p := by simp [advance, ha]
      rw [hadvance, atBoundary_of_ahead_nil ha]
      rfl
    | cons semi more =>
      have hk : semi.kind = .semicolon := htail semi rfl
      have hends : endsStatement (p.pass [semi]).passed = true := by simp [pass, endsStatement, hk]
      rw [advance_eq_pass ha, atBoundary_of_endsStatement hends]
      rfl
  | cons t body =>
    have ht : t.kind ≠ .semicolon := hbody t List.mem_cons_self
    have hends : endsStatement (p.pass [t]).passed = false := by simp [pass, endsStatement, ht]
    have hrest : ∀ t' ∈ body, t'.kind ≠ .semicolon := fun t' ht' =>
      hbody t' (List.mem_cons_of_mem t ht')
    rw [advance_eq_pass ha, outcomes_atBoundary hrest htail (p.pass [t]) hp
      (ahead_pass (w := [t]) ha) hends, pass_pass]
    rfl

/-! ### Region by region -/

theorem inner_of_no_eof {body : List Token} (h : ∀ t ∈ body, t.kind ≠ .eof) : inner body = body :=
  List.takeWhile_eq_self_iff.mpr fun t ht => by simpa [isInner] using h t ht

theorem Region.outcomes_of_ok {r : Region} (h : (ofTokens r.body).parse.result = .ok e) :
    r.outcomes = [.ok e] := by
  simp [outcomes, h]

theorem Region.outcomes_of_error {r : Region} (h : (ofTokens r.body).parse.result = .error f) :
    r.outcomes = .error (r.relocate f) :: r.strays.map strayFault := by
  simp only [outcomes, faults, h, List.map_cons, List.map_map]
  rfl

theorem Region.cursor_of_view {r : Region} {v : Except Fault Expr} {u : List Token}
    (h : (ofTokens r.body).parse.view = (v, ((ofTokens r.body).pass u).failed f)) :
    r.cursor = u.length := by
  have hcursor : r.cursor = ((ofTokens r.body).pass u).position :=
    congrArg (fun v => v.2.position) h
  rw [hcursor, position_pass, position_ofTokens, Nat.zero_add]

/-- The stray words are among the tokens that the parser has not taken. -/
theorem Region.strays_eq {r : Region} {u v : List Token} (hbody : r.body = u ++ v)
    (hcursor : r.cursor = u.length) :
    r.strays = (v.drop 1).filter fun t => t.kind.startsStatement := by
  rw [strays, hcursor, hbody, List.drop_length_add_append]

/-- A fault names the same token in the list as alone, or the terminator in place of the end. -/
theorem Region.relocate_error (body tail : List Token) (s : Stance) (finish : Token)
    (heof : ∀ t ∈ rest, t.kind ≠ .eof) :
    (⟨body, tail.headD finish⟩ : Region).relocate (.parse (s.error rest (ofTokens body).finish))
      = .parse ⟨(rest ++ tail).headD finish, asStatement (s.cause rest)⟩ := by
  cases rest with
  | nil => simp [relocate, Stance.error, (closed_eq_ahead body).2]
  | cons t rest =>
    have hk : t.kind ≠ .eof := heof t List.mem_cons_self
    simp [relocate, Stance.error, hk]

/-- The statement of a region that is an expression. -/
theorem view_statement_of_derives {body tail : List Token} (htail : EndsRegion tail)
    (hp : p.fault = none) (ha : p.ahead = body ++ tail) (h : Derives (.level .equality) body e) :
    (statement p).view = (.ok e, p.pass (body ++ tail.take 1)) := by
  have hv := (finds_of_derives h).view_binary hp ha (closed_of_endsRegion htail)
  have hnext : (p.pass body).ahead = tail := ahead_pass ha
  cases tail with
  | nil => rw [view_statement_end hv hnext, List.take_nil, List.append_nil]
  | cons semi more =>
    rw [view_statement_semicolon hv hp hnext (htail semi rfl), pass_pass]
    rfl

/-- A region in which the walk halts has the fault there and one more for every stray word. -/
theorem outcomes_of_halt {body tail w : List Token} {s : Stance}
    (hbody : ∀ t ∈ body, t.kind ≠ .semicolon) (htail : EndsRegion tail) (hp : p.fault = none)
    (ha : p.ahead = body ++ tail) (hne : p.ahead ≠ []) (hsplit : body = w ++ rest)
    (hw : (Stance.operand 0).walk w = some s) (hb : s.Blocked rest)
    (hincomplete : rest = [] → s ≠ .operator 0) :
    p.statements.1
      = .error (.parse ⟨(rest ++ tail).headD p.finish, asStatement (s.cause rest)⟩)
        :: (((rest.drop (s.overshoot rest).length).drop 1).filter
            fun t => t.kind.startsStatement).map strayFault
        ++ (p.pass (body ++ tail.take 1)).statements.1 := by
  -- the statement halts where the region halts when it stands alone
  have hahead : p.ahead = w ++ (rest ++ tail) := by rw [ha, hsplit, List.append_assoc]
  have hstatement := view_statement_of_halt hp hahead hw (blocked_append htail hb) fun hs => by
    cases rest with
    | nil => exact absurd hs (hincomplete rfl)
    | cons t rest => exact ⟨t, rest ++ tail, rfl, hbody t (by simp [hsplit])⟩
  rw [cause_append htail, overshoot_append htail] at hstatement
  -- what the parser has taken by then, and what is left of the region
  have htaken : body = w ++ s.overshoot rest ++ rest.drop (s.overshoot rest).length :=
    hsplit.trans (append_overshoot w s rest).symm
  have hleft : (p.pass (w ++ s.overshoot rest)).ahead
      = rest.drop (s.overshoot rest).length ++ tail :=
    ahead_pass (by rw [ha, ← List.append_assoc, ← htaken])
  have hrest : ∀ t ∈ rest.drop (s.overshoot rest).length, t.kind ≠ .semicolon := by
    intro t ht
    refine hbody t ?_
    rw [hsplit]
    exact List.mem_append_right w (List.mem_of_mem_drop ht)
  have hsync := outcomes_synchronize (p := p.pass (w ++ s.overshoot rest)) hrest htail hp hleft
  rw [pass_pass, ← List.append_assoc, ← htaken] at hsync
  rw [outcomes_of_error hne hstatement,
    synchronize_failed (p := p.pass (w ++ s.overshoot rest)) hp, hsync]
  rfl

/-- **One region of a list**: its outcomes are those it has alone, and the list goes on behind its
terminator. -/
theorem outcomes_region {body tail : List Token} (hbody : ∀ t ∈ body, t.kind ≠ .semicolon)
    (heof : ∀ t ∈ body, t.kind ≠ .eof) (htail : EndsRegion tail) (hp : p.fault = none)
    (ha : p.ahead = body ++ tail) (hne : p.ahead ≠ []) :
    p.statements.1
      = (⟨body, tail.headD p.finish⟩ : Region).outcomes
        ++ (p.pass (body ++ tail.take 1)).statements.1 := by
  have halone : (ofTokens body).ahead = body := (ahead_ofTokens body).trans (inner_of_no_eof heof)
  cases parses (ofTokens body) rfl with
  | @tree e hder hv =>
    -- the expression is complete before the terminator, which is then taken
    rw [halone] at hder
    have hresult : (ofTokens body).parse.result = .ok e := congrArg Prod.fst hv
    rw [Lox.Parser.outcomes_of_ok hne (view_statement_of_derives htail hp ha hder),
      Region.outcomes_of_ok (r := ⟨body, tail.headD p.finish⟩) hresult]
    rfl
  | @fault w rest s hsplit hw hb hincomplete hv =>
    rw [halone] at hsplit
    have hresult : (ofTokens body).parse.result
        = .error (.parse (s.error rest (ofTokens body).finish)) := congrArg Prod.fst hv
    have hrelocate := Region.relocate_error body tail s p.finish
      fun t ht => heof t (by rw [hsplit]; exact List.mem_append_right w ht)
    have hstrays := Region.strays_eq (r := ⟨body, tail.headD p.finish⟩)
      (hsplit.trans (append_overshoot w s rest).symm) (Region.cursor_of_view hv)
    rw [outcomes_of_halt hbody htail hp ha hne hsplit hw hb hincomplete,
      Region.outcomes_of_error (r := ⟨body, tail.headD p.finish⟩) hresult, hrelocate, hstrays]

/-- **A list of statements has the outcomes of its regions** in order. -/
theorem outcomes_eq_flatMap (p : Parser) (hp : p.fault = none)
    (heof : ∀ t ∈ p.ahead, t.kind ≠ .eof) :
    p.statements.1 = (regions p.finish p.ahead).flatMap Region.outcomes := by
  by_cases hne : p.ahead = []
  · rw [statements_of_ahead_nil hne, hne]
    rfl
  · -- the first region with its terminator is not empty, so fewer tokens are ahead behind it
    obtain ⟨body, tail, ha, hbody, htail⟩ := exists_region p.ahead
    have hnext : (p.pass (body ++ tail.take 1)).ahead = tail.drop 1 :=
      ahead_pass (by rw [List.append_assoc, List.take_append_drop, ha])
    have hlt : (p.pass (body ++ tail.take 1)).ahead.length < p.ahead.length := by
      have hpos := List.length_pos_iff.mpr hne
      have hlen : p.ahead.length = body.length + tail.length := by rw [ha, List.length_append]
      rw [hnext, List.length_drop]
      cases tail with
      | nil => simpa using hpos
      | cons => simp only [List.length_cons] at hlen ⊢; omega
    have hinside : ∀ t ∈ body, t.kind ≠ .eof := fun t ht =>
      heof t (by rw [ha]; exact List.mem_append_left _ ht)
    have hbehind : ∀ t ∈ tail.drop 1, t.kind ≠ .eof := fun t ht =>
      heof t (by rw [ha]; exact List.mem_append_right _ (List.mem_of_mem_drop ht))
    have hrest := outcomes_eq_flatMap (p.pass (body ++ tail.take 1)) hp (by rwa [hnext])
    rw [outcomes_region hbody hinside htail hp ha hne, hrest, hnext, finish_pass]
    conv => rhs; rw [ha, regions_append hbody htail (by rwa [← ha]), List.flatMap_cons]
termination_by p.ahead.length

/-! ### All trees or all faults -/

theorem gather_eq (outcomes : List (Except Fault Expr)) :
    gather outcomes = if Parser.faults outcomes = [] then .ok (trees outcomes)
      else .error (.joined (Parser.faults outcomes)) := by
  rw [gather, Fault.join_map_some]
  cases Parser.faults outcomes <;> rfl

theorem Region.faults_outcomes (r : Region) : Parser.faults r.outcomes = r.faults := by
  unfold outcomes
  cases h : (ofTokens r.body).parse.result with
  | ok e => simp [Parser.faults, faults, h]
  | error f =>
    show (r.faults.map Except.error).filterMap _ = r.faults
    rw [List.filterMap_map]
    exact List.filterMap_some

theorem Region.faults_eq_nil_iff {r : Region} : r.faults = [] ↔ r.WellFormed := by
  unfold faults WellFormed
  cases (ofTokens r.body).parse.result with
  | ok e => simp
  | error f => simp

theorem faults_flatMap (rs : List Region) :
    Parser.faults (rs.flatMap Region.outcomes) = rs.flatMap Region.faults := by
  unfold Parser.faults
  rw [List.filterMap_flatMap]
  exact congrArg (fun g => rs.flatMap g) (funext Region.faults_outcomes)

/-- Without a fault the trees of the outcomes are those of the regions. -/
theorem map_result_eq (rs : List Region) (h : ∀ r ∈ rs, r.WellFormed) :
    rs.map (fun r => (ofTokens r.body).parse.result)
      = (trees (rs.flatMap Region.outcomes)).map .ok := by
  induction rs with
  | nil => rfl
  | cons r rs ih =>
    obtain ⟨e, he⟩ := h r List.mem_cons_self
    have hrest := ih fun r' hr' => h r' (List.mem_cons_of_mem r hr')
    rw [List.map_cons, hrest, he, List.flatMap_cons, Region.outcomes_of_ok he]
    rfl

/-- **The regions of a token list**, up to its first end token. -/
def regionsOf (tokens : List Token) : List Region :=
  regions (ofTokens tokens).finish (inner tokens)

theorem statements_ofTokens (tokens : List Token) :
    (ofTokens tokens).statements.1 = (regionsOf tokens).flatMap Region.outcomes := by
  rw [outcomes_eq_flatMap _ rfl, ahead_ofTokens]
  · rfl
  · intro t ht
    rw [ahead_ofTokens] at ht
    exact kind_ne_eof_of_mem_inner ht

theorem parseAll_eq (tokens : List Token) :
    (ofTokens tokens).parseAll.1
      = if (regionsOf tokens).flatMap Region.faults = []
        then .ok (trees ((regionsOf tokens).flatMap Region.outcomes))
        else .error (.joined ((regionsOf tokens).flatMap Region.faults)) := by
  show gather (ofTokens tokens).statements.1 = _
  rw [statements_ofTokens, gather_eq, faults_flatMap]

/-- **A list of statements is parsed region by region.** It has trees exactly if every region is an
expression, and then those are the trees of the regions in order. Otherwise the errors are those of
the regions in order. The parser's place in a faulty region is that of the token its error names,
and the next one if that token is a number. -/
theorem parseAll_by_regions (tokens : List Token) :
    ((∃ es, (ofTokens tokens).parseAll.1 = .ok es) ↔ ∀ r ∈ regionsOf tokens, r.WellFormed)
    ∧ (∀ es, (ofTokens tokens).parseAll.1 = .ok es →
        (regionsOf tokens).map (fun r => (ofTokens r.body).parse.result) = es.map .ok)
    ∧ ((∃ r ∈ regionsOf tokens, ¬ r.WellFormed) →
        (ofTokens tokens).parseAll.1 = .error (.joined ((regionsOf tokens).flatMap Region.faults)))
    ∧ ∀ r ∈ regionsOf tokens, ∀ f, (ofTokens r.body).parse.result = .error f →
        ∃ e i, f = .parse e ∧ (closed r.body)[i]? = some e.token
          ∧ r.cursor = if e.cause = .invalidNumber then i + 1 else i := by
  have hsound : (regionsOf tokens).flatMap Region.faults = [] ↔
      ∀ r ∈ regionsOf tokens, r.WellFormed := by
    rw [List.flatMap_eq_nil_iff]
    exact forall₂_congr fun r _ => Region.faults_eq_nil_iff
  rw [parseAll_eq]
  refine ⟨?_, fun es hes => ?_, fun ⟨r, hr, hbad⟩ => ?_, fun r _ f hf => ?_⟩
  · rw [← hsound]
    split <;> simp_all
  · split at hes
    · next hnil =>
      cases hes
      exact map_result_eq _ (hsound.mp hnil)
    · cases hes
  · exact if_neg fun hnil => hbad (hsound.mp hnil r hr)
  · obtain ⟨w, rest, s, ha, -, -, -, hfault, hposition⟩ := halt_of_parse_error hf
    exact ⟨s.error rest (ofTokens r.body).finish, w.length, hfault, getElem?_closed_of_halt ha,
      hposition⟩

/-- Two reserved words behind an open parenthesis: `nil ; ( print var ; nil`. -/
theorem parseAll_by_regions_stray_words :
    let word : Token := ⟨.nilWord, "nil", "", 1⟩
    let semi : Token := ⟨.semicolon, ";", "", 1⟩
    let opening : Token := ⟨.leftParen, "(", "", 1⟩
    let first : Token := ⟨.printWord, "print", "", 1⟩
    let second : Token := ⟨.varWord, "var", "", 1⟩
    let tokens : List Token := [word, semi, opening, first, second, semi, word]
    (∃ r ∈ regionsOf tokens, ¬ r.WellFormed) ∧ (ofTokens tokens).parseAll.1
      = .error (.joined [.parse ⟨first, .unexpectedToken⟩, .parse ⟨second, .unexpectedToken⟩]) := by
  intro word semi opening first second tokens
  have hregions : regionsOf tokens
      = [⟨[word], semi⟩, ⟨[opening, first, second], semi⟩, ⟨[word], .eof 1⟩] := by cbv
  have hbad : ∃ r ∈ regionsOf tokens, ¬ r.WellFormed := by
    have hresult : (ofTokens [opening, first, second]).parse.result
        = .error (.parse ⟨first, .unexpectedToken⟩) := by cbv
    refine ⟨⟨[opening, first, second], semi⟩, by simp [hregions], ?_⟩
    rintro ⟨e, he⟩
    cases hresult.symm.trans he
  have hfaults : (regionsOf tokens).flatMap Region.faults
      = [.parse ⟨first, .unexpectedToken⟩, .parse ⟨second, .unexpectedToken⟩] := by cbv
  exact ⟨hbad, hfaults ▸ (parseAll_by_regions tokens).2.2.1 hbad⟩

end Lox.Parser
