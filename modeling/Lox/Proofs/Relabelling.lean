import Lox.Proofs.Infix
import Lox.Proofs.Reports
import Lox.Proofs.Statements

/-!
# What parsing looks at

Of a token parsing looks at the kind and the literal only. Whatever else of the tokens is changed,
statements have the same trees with the changed tokens in them, or fail at the same places for the
same causes.

- `KeepsSense`: a change of tokens that leaves kinds and literals alone.
- `Expr.relabel`, `Fault.relabel`, `Parser.relabel`: the change carried out on trees, faults and
  parsers.
- `Grammar.Derives.relabel`, `Grammar.Stance.walk_map`: the grammar does not see the change.
- `Parser.statement_relabel`, `Parser.outcomes_relabel`: one statement, and a list of statements.
- `Parser.Alike`, `Parser.numbered`: tokens up to their lines, and with their positions for lines.
- `Parser.FailsAt`: the places and causes of all faults of a token list.
- `Parser.parseAll_alike`: token lists that are the same up to lines parse alike.
-/

namespace Lox

/-- **A change of tokens that parsing does not see.** -/
structure KeepsSense (f : Token → Token) : Prop where
  kind : ∀ t, (f t).kind = t.kind
  literal : ∀ t, (f t).literal = t.literal

/-- **A tree with its operator tokens changed.** -/
def Expr.relabel (f : Token → Token) (e : Expr) : Expr := e.mapTokens (fun _ => f) fun _ => f

/-- **A fault with the token it names changed.** -/
def Fault.relabel (f : Token → Token) : Fault → Fault
  | .parse e => .parse ⟨f e.token, e.cause⟩
  | other => other

/-! ### The grammar -/

namespace Grammar

variable {f : Token → Token} (hf : KeepsSense f)

include hf

theorem literalValue?_map (t : Token) : Parser.literalValue? (f t) = Parser.literalValue? t := by
  unfold Parser.literalValue?
  rw [hf.kind, hf.literal]

theorem Spells.map {t : Token} {v : Value} (h : Spells t v) : Spells (f t) v := by
  rw [spells_iff, literalValue?_map hf]
  exact spells_iff.mp h

/-- **Changed tokens derive the changed tree.** -/
theorem Derives.relabel {c : Category} {w : List Token} {e : Expr} (h : Derives c w e) :
    Derives c (w.map f) (e.relabel f) := by
  induction h with
  | operand _ ih => exact .operand ih
  | binary _ hop _ ihl ihr =>
    rw [List.map_append, List.map_cons]
    exact .binary ihl ((hf.kind _).symm ▸ hop) ihr
  | primary _ ih => exact .primary ih
  | unary hop _ ih => exact .unary ((hf.kind _).symm ▸ hop) ih
  | literal hv => exact .literal (hv.map hf)
  | grouping ho _ hc ih =>
    rw [List.map_cons, List.map_append]
    exact .grouping ((hf.kind _).trans ho) ih ((hf.kind _).trans hc)

namespace Stance

theorem step_map (s : Stance) (t : Token) : s.step (f t) = s.step t := by
  cases s <;> simp only [step, hf.kind, literalValue?_map hf]

theorem walk_map (s : Stance) (w : List Token) : s.walk (w.map f) = s.walk w := by
  induction w generalizing s with
  | nil => rfl
  | cons t w ih =>
    rw [List.map_cons, walk_cons, walk_cons, step_map hf]
    exact congrArg _ (funext ih)

theorem Blocked.map {s : Stance} {rest : List Token} (h : s.Blocked rest) :
    s.Blocked (rest.map f) := by
  cases rest with
  | nil => exact blocked_nil s
  | cons t rest => exact blocked_cons ((step_map hf s t).trans (h t rfl)) (rest.map f)

theorem cause_map (s : Stance) (rest : List Token) : s.cause (rest.map f) = s.cause rest := by
  cases s with
  | operand d => cases rest <;> simp [cause, hf.kind]
  | operator d => cases d <;> rfl

theorem overshoot_map (s : Stance) (rest : List Token) :
    s.overshoot (rest.map f) = (s.overshoot rest).map f := by
  unfold overshoot
  rw [cause_map hf]
  split
  · exact List.map_take.symm
  · rfl

end Stance

end Grammar

namespace Parser

open Grammar

/-! ### Parsers -/

/-- **The outcome of a statement with the tokens in it changed.** -/
def relabelOutcome (f : Token → Token) : Except Fault Expr → Except Fault Expr
  | .ok e => .ok (e.relabel f)
  | .error g => .error (g.relabel f)

/-- **A parser with its tokens changed.** -/
def relabel (f : Token → Token) (p : Parser) : Parser where
  passed := p.passed.map f
  ahead := p.ahead.map f
  finish := f p.finish
  behind := p.behind.map f
  fault := p.fault.map (Fault.relabel f)

section

variable (f : Token → Token) (p : Parser)

theorem pass_relabel (w : List Token) : (p.relabel f).pass (w.map f) = (p.pass w).relabel f := by
  simp [pass, relabel]

theorem advance_relabel : (p.relabel f).advance = p.advance.relabel f := by
  obtain ⟨passed, ahead, finish, behind, fault⟩ := p
  cases ahead <;> rfl

theorem headD_map (rest : List Token) (finish : Token) :
    (rest.map f).headD (f finish) = f (rest.headD finish) := by
  cases rest <;> rfl

theorem relabel_fault_eq_none {p : Parser} (hp : p.fault = none) : (p.relabel f).fault = none := by
  simp [relabel, hp]

end

section

variable {f : Token → Token} (hf : KeepsSense f)

include hf

theorem toBoundary_map (passed ahead : List Token) :
    toBoundary (passed.map f) (ahead.map f)
      = ((toBoundary passed ahead).1.map f, (toBoundary passed ahead).2.map f) := by
  have hends : ∀ passed : List Token, endsStatement (passed.map f) = endsStatement passed := by
    intro passed
    cases passed <;> simp [endsStatement, hf.kind]
  induction ahead generalizing passed with
  | nil => rfl
  | cons t rest ih =>
    rw [List.map_cons, toBoundary, toBoundary, hends, hf.kind]
    split
    · rfl
    · exact ih (t :: passed)

theorem synchronize_relabel (p : Parser) : (p.relabel f).synchronize = p.synchronize.relabel f := by
  unfold synchronize
  rw [advance_relabel]
  simp only [relabel, toBoundary_map hf]

/-! ### One statement -/

/-- **A statement does not see the change of its tokens.** -/
theorem statement_relabel (p : Parser) (hp : p.fault = none) :
    (statement (p.relabel f)).view
      = (relabelOutcome f (statement p).view.1, (statement p).view.2.relabel f) := by
  have hp' : (p.relabel f).fault = none := relabel_fault_eq_none f hp
  cases states p hp with
  | @tree body tail e hends ha hder hv =>
    have ha' : (p.relabel f).ahead = body.map f ++ tail.map f := by
      rw [← List.map_append, ← ha]
      rfl
    have hends' : EndsRegion (tail.map f) := by
      cases tail with
      | nil => exact hends
      | cons t tail =>
        intro t' ht'
        obtain rfl : f t = t' := Option.some.inj ht'
        exact (hf.kind t).trans (hends t rfl)
    rw [view_statement_of_derives hends' hp' ha' (hder.relabel hf), hv, ← List.map_take,
      ← List.map_append, pass_relabel]
    rfl
  | @fault w rest s ha hw hb hincomplete hv =>
    have ha' : (p.relabel f).ahead = w.map f ++ rest.map f := by
      rw [← List.map_append, ← ha]
      rfl
    have hincomplete' : s = .operator 0 →
        ∃ t rest', rest.map f = t :: rest' ∧ t.kind ≠ .semicolon := by
      intro hs
      obtain ⟨t, rest', rfl, hk⟩ := hincomplete hs
      exact ⟨f t, rest'.map f, rfl, by rwa [hf.kind]⟩
    rw [view_statement_of_halt hp' ha' (by rwa [Stance.walk_map hf]) (hb.map hf) hincomplete', hv,
      Stance.cause_map hf, Stance.overshoot_map hf, ← List.map_append, pass_relabel]
    simp only [relabel, headD_map]
    rfl

/-! ### A list of statements -/

theorem afterStatement_relabel (p : Parser) (hp : p.fault = none) :
    (p.relabel f).afterStatement = p.afterStatement.relabel f := by
  have hview := statement_relabel hf p hp
  cases states p hp with
  | tree _ _ _ hv =>
    rw [hv] at hview
    rw [afterStatement_of_ok hv, afterStatement_of_ok hview]
  | @fault w rest s _ _ _ _ hv =>
    rw [hv] at hview
    rw [afterStatement_of_error (q := p.pass (w ++ s.overshoot rest)) hp hv,
      afterStatement_of_error (q := (p.pass (w ++ s.overshoot rest)).relabel f)
        (relabel_fault_eq_none f hp) hview, synchronize_relabel hf]

/-- **A list of statements does not see the change of its tokens.** -/
theorem outcomes_relabel (p : Parser) (hp : p.fault = none) :
    (p.relabel f).statements.1 = p.statements.1.map (relabelOutcome f) := by
  induction p, hp using statements_induction with
  | done p hp hend =>
    have hend' : (p.relabel f).ahead = [] := List.map_eq_nil_iff.mpr hend
    rw [statements, dif_pos hend', statements, dif_pos hend]
    rfl
  | round p hp hahead ih =>
    have hahead' : (p.relabel f).ahead ≠ [] := fun h => hahead (List.map_eq_nil_iff.mp h)
    have hresult : (statement (p.relabel f)).result = relabelOutcome f (statement p).result :=
      congrArg Prod.fst (statement_relabel hf p hp)
    rw [statements_of_ahead_cons hahead', statements_of_ahead_cons hahead, hresult,
      afterStatement_relabel hf p hp, ih]
    rfl

end

section

variable (f : Token → Token) (outcomes : List (Except Fault Expr))

theorem faults_map_relabelOutcome :
    faults (outcomes.map (relabelOutcome f)) = (faults outcomes).map (Fault.relabel f) := by
  unfold faults
  rw [List.filterMap_map, List.map_filterMap]
  congr 1
  funext o
  cases o <;> rfl

theorem trees_map_relabelOutcome :
    trees (outcomes.map (relabelOutcome f)) = (trees outcomes).map (Expr.relabel f) := by
  unfold trees
  rw [List.filterMap_map, List.map_filterMap]
  congr 1
  funext o
  cases o <;> rfl

end

/-! ### Tokens with an end token -/

/-- **An end token closes the list**, and stands nowhere else in it. -/
def Sealed (tokens : List Token) : Prop :=
  ∃ lexemes finish, tokens = lexemes ++ [finish] ∧ (∀ t ∈ lexemes, t.kind ≠ .eof)
    ∧ finish.kind = .eof

theorem Sealed.closed_eq {tokens : List Token} (h : Sealed tokens) : closed tokens = tokens := by
  obtain ⟨lexemes, finish, rfl, -, hfinish⟩ := h
  simp [closed, hfinish]

theorem ofTokens_concat {lexemes : List Token} {finish : Token}
    (hlexemes : ∀ t ∈ lexemes, t.kind ≠ .eof) (hfinish : finish.kind = .eof) :
    ofTokens (lexemes ++ [finish]) = ⟨[], lexemes, finish, [], none⟩ := by
  have hinner : ∀ t ∈ lexemes, isInner t := fun t ht => by simpa [isInner] using hlexemes t ht
  have hclosed := Sealed.closed_eq ⟨lexemes, finish, rfl, hlexemes, hfinish⟩
  unfold ofTokens
  rw [hclosed, List.takeWhile_append_of_pos hinner, List.dropWhile_append_of_pos hinner]
  simp [isInner, hfinish]

theorem ofTokens_map {f : Token → Token} (hf : KeepsSense f) {tokens : List Token}
    (h : Sealed tokens) : ofTokens (tokens.map f) = (ofTokens tokens).relabel f := by
  obtain ⟨lexemes, finish, rfl, hlexemes, hfinish⟩ := h
  have hlexemes' : ∀ t ∈ lexemes.map f, t.kind ≠ .eof := by
    intro t ht
    obtain ⟨t', ht', rfl⟩ := List.mem_map.mp ht
    rw [hf.kind]
    exact hlexemes t' ht'
  rw [List.map_append, List.map_singleton,
    ofTokens_concat hlexemes' ((hf.kind finish).trans hfinish), ofTokens_concat hlexemes hfinish]
  rfl

/-! ### Tokens up to their lines -/

/-- **The tokens are the same up to their lines.** -/
def Alike (tokens tokens' : List Token) : Prop :=
  tokens.map Token.unplaced = tokens'.map Token.unplaced

/-- **The tokens with their positions for lines**, so that no two of them are the same. -/
def numbered (tokens : List Token) : List Token :=
  tokens.mapIdx fun i t => { t with line := i }

theorem Sealed.numbered {tokens : List Token} (h : Sealed tokens) : Sealed (numbered tokens) := by
  obtain ⟨lexemes, finish, rfl, hlexemes, hfinish⟩ := h
  refine ⟨Parser.numbered lexemes, { finish with line := lexemes.length }, ?_, ?_, hfinish⟩
  · exact List.mapIdx_concat
  · intro t ht
    obtain ⟨i, hi, rfl⟩ := List.mem_mapIdx.mp ht
    exact hlexemes lexemes[i] (List.getElem_mem hi)

/-- The token on the line that is given for its position. -/
def placed (lines : Nat → Int) (t : Token) : Token := { t with line := lines t.line.toNat }

theorem keepsSense_placed (lines : Nat → Int) : KeepsSense (placed lines) :=
  ⟨fun _ => rfl, fun _ => rfl⟩

theorem unplaced_relabel_placed (lines : Nat → Int) (e : Expr) :
    (e.relabel (placed lines)).unplaced = e.unplaced := by
  induction e with
  | literal v => rfl
  | grouping inner ih => exact congrArg Expr.grouping ih
  | unary op t right ih => exact congrArg (Expr.unary op t.unplaced) ih
  | binary left op t right ihl ihr =>
    exact congrArg₂ (fun l r => Expr.binary l op t.unplaced r) ihl ihr

/-- **Tokens that are the same up to lines are the numbered ones, put on lines of their own.** -/
theorem exists_eq_map_placed {tokens tokens' : List Token} (h : Alike tokens' tokens) :
    ∃ lines, tokens' = (numbered tokens).map (placed lines) := by
  refine ⟨fun i => ((tokens'[i]?).map Token.line).getD 0, List.ext_getElem? fun i => ?_⟩
  have hi : (tokens'.map Token.unplaced)[i]? = (tokens.map Token.unplaced)[i]? := by rw [h]
  rw [List.getElem?_map, List.getElem?_map] at hi
  rw [List.getElem?_map, numbered, List.getElem?_mapIdx]
  cases ht : tokens[i]? with
  | none =>
    rw [ht] at hi
    simpa using hi
  | some t =>
    rw [ht] at hi
    obtain ⟨⟨kind, lexeme, literal, line⟩, ht', hsame⟩ := Option.map_eq_some_iff.mp hi
    simp only [Token.unplaced, Token.mk.injEq] at hsame
    obtain ⟨rfl, rfl, rfl, -⟩ := hsame
    simp [ht', placed]

/-- A fault is the error for a cause at the token in a place. -/
def At (tokens : List Token) (place : Nat × Cause) (f : Fault) : Prop :=
  ∃ t, tokens[place.1]? = some t ∧ f = .parse ⟨t, place.2⟩

/-- **The tokens fail at places for causes**: parsing them as a list of statements returns the errors
at these tokens for these causes, and no others. -/
def FailsAt (places : List (Nat × Cause)) (tokens : List Token) : Prop :=
  ∃ fs, (ofTokens tokens).parseAll.1 = .error (.joined fs) ∧ List.Forall₂ (At tokens) places fs

/-- **Tokens that are the same up to lines have the same trees up to lines**, or fail at the same
places for the same causes. -/
theorem parseAll_alike {tokens : List Token} (h : Sealed tokens) :
    (∃ es, ∀ tokens', Alike tokens' tokens →
      ∃ es', (ofTokens tokens').parseAll.1 = .ok es' ∧ es'.map Expr.unplaced = es) ∨
    ∃ places, ∀ tokens', Alike tokens' tokens → FailsAt places tokens' := by
  obtain ⟨errors, herrors, hsub⟩ := exists_errors (numbered tokens)
  rw [h.numbered.closed_eq] at hsub
  generalize houtcomes : (ofTokens (numbered tokens)).statements.1 = outcomes at herrors
  have hrun : ∀ lines, (ofTokens ((numbered tokens).map (placed lines))).parseAll.1
      = gather (outcomes.map (relabelOutcome (placed lines))) := by
    intro lines
    rw [parseAll, ofTokens_map (keepsSense_placed lines) h.numbered,
      outcomes_relabel (keepsSense_placed lines) _ rfl, houtcomes]
  by_cases hnone : errors = []
  · left
    refine ⟨(trees outcomes).map Expr.unplaced, fun tokens' halike => ?_⟩
    obtain ⟨lines, rfl⟩ := exists_eq_map_placed halike
    refine ⟨(trees outcomes).map (Expr.relabel (placed lines)), ?_, ?_⟩
    · rw [hrun, gather_eq, faults_map_relabelOutcome, herrors, hnone, trees_map_relabelOutcome]
      rfl
    · rw [List.map_map]
      exact List.map_congr_left fun e _ => unplaced_relabel_placed lines e
  · right
    refine ⟨errors.map fun e => (e.token.line.toNat, e.cause), fun tokens' halike => ?_⟩
    obtain ⟨lines, rfl⟩ := exists_eq_map_placed halike
    refine ⟨(errors.map .parse).map (Fault.relabel (placed lines)), ?_, ?_⟩
    · rw [hrun, gather_eq, faults_map_relabelOutcome, herrors, if_neg (by simpa using hnone)]
    · rw [List.map_map, List.forall₂_map_left_iff, List.forall₂_map_right_iff, List.forall₂_same]
      intro e he
      -- the line of a numbered token is its position
      have hmem := hsub.subset (List.mem_map_of_mem he)
      obtain ⟨i, hi, htoken⟩ := List.mem_mapIdx.mp hmem
      refine ⟨placed lines e.token, ?_, rfl⟩
      rw [← htoken, List.getElem?_map, numbered]
      simp [hi]

end Parser

end Lox
