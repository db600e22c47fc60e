import Lox.Proofs.Operations

/-!
# No gaps in what is handed out

A rule in place has its operands in hand before it knows whether they are there, and it goes on
after a fault. Still no tree with a gap ever leaves a rule: where a rule returns a tree it is whole,
and where it returns none there is a fault.

- `Draft.Sound`: whole, and printed by every printer.
- `Indexed.Follows.sound`: a rule in place returns a sound tree, or none and a fault.
- `Parser.whole_of_parse_ok`, `Parser.whole_of_mem_statements`: the trees of whole inputs.
- `rules_return_sound_trees`: in every state that operations lead to, with any fault or none.
-/

namespace Lox

/-- **A tree that can be handed out**: it is whole, and every printer prints it. -/
structure Draft.Sound (d : Draft) : Prop where
  whole : d.Whole
  prints : ∀ printer : Printer, ∃ text, d.print printer = .ok text

theorem Draft.Whole.sound {d : Draft} (h : d.Whole) : d.Sound :=
  ⟨h, fun printer => h.exists_print printer⟩

theorem Draft.ofExpr_ne_missing (e : Expr) : ofExpr e ≠ missing := by
  cases e <;> exact nofun

/-! ### Trees of whole inputs -/

namespace Parser

variable {p : Parser}

/-- What parsing one expression returns is the tree of the expression, or a fault. -/
theorem expression_ok_of_parse_ok {e : Expr} (h : p.parse.result = .ok e) :
    p.expression.result = .ok e := by
  unfold parse at h
  generalize p.expression = o at h ⊢
  obtain ⟨_ | tree, q, hle⟩ := o
  · cases h
  · dsimp only at h
    split at h
    · exact h
    · exact absurd h (raise_ne_ok q _ e)

theorem whole_of_parse_ok {e : Expr} (hp : p.Proper) (h : p.parse.result = .ok e) :
    (Draft.ofExpr e).Whole :=
  (Indexed.follows_binary _ .equality p hp (Nat.lt_succ_self _)).whole (expression_ok_of_parse_ok h)

/-- **Every tree of the loop over statements is whole.** -/
theorem whole_of_mem_statements (hp : p.Proper) {e : Expr} (he : .ok e ∈ p.statements.1) :
    (Draft.ofExpr e).Whole := by
  induction p using log.induct with
  | case1 p h =>
    rw [statements_of_ahead_nil h] at he
    cases he
  | case2 p h ih =>
    rw [statements_of_ahead_cons h] at he
    rcases List.mem_cons.mp he with he | he
    · exact (Indexed.follows_statement _ p hp (Nat.lt_succ_self _)).whole he.symm
    · exact ih ((Indexed.reaches_afterStatement hp).proper hp) he

theorem whole_of_parseAll_ok {es : List Expr} (hp : p.Proper) (h : p.parseAll.1 = .ok es) :
    ∀ e ∈ es, (Draft.ofExpr e).Whole := by
  intro e he
  rw [eq_trees_of_parseAll_ok h, trees, List.mem_filterMap] at he
  obtain ⟨o, ho, he⟩ := he
  cases o with
  | error f => cases he
  | ok tree =>
    cases he
    exact whole_of_mem_statements hp ho

end Parser

/-! ### What runs in place return -/

namespace Indexed

variable {p : Parser}

/-- **A rule in place returns a sound tree, or none and a fault.** -/
theorem Follows.sound {run : Run Draft} {v : Except Fault Expr × Parser} (h : Follows run p v) :
    (Draft.ofResult v.1 = .missing ↔ v.2.fault ≠ none)
      ∧ (Draft.ofResult v.1 ≠ .missing → (Draft.ofResult v.1).Sound) := by
  cases h with
  | @tree e q hreach hq hwhole hrun =>
    refine ⟨?_, fun _ => hwhole.sound⟩
    exact iff_of_false (Draft.ofExpr_ne_missing e) (not_not_intro hq)
  | @fault f q hreach hq hrun =>
    refine ⟨?_, fun h => absurd rfl h⟩
    exact iff_of_true rfl (by simp [hq])

theorem sound_parse (hp : p.Proper) {d : Draft} {f : Option Fault}
    (h : Draft.handed p.parse.result = (d, f)) :
    (d = .missing ↔ f ≠ none) ∧ (d ≠ .missing → d.Sound) := by
  cases hresult : p.parse.result with
  | error f =>
    rw [hresult] at h
    cases h
    exact ⟨iff_of_true rfl nofun, fun h => absurd rfl h⟩
  | ok e =>
    rw [hresult] at h
    cases h
    refine ⟨?_, fun _ => (Parser.whole_of_parse_ok hp hresult).sound⟩
    exact iff_of_false (Draft.ofExpr_ne_missing e) (not_not_intro rfl)

theorem sound_parseAll (hp : p.Proper) {ds : List Draft} {f : Option Fault}
    (h : Draft.handedAll p.parseAll.1 = (ds, f)) : ∀ d ∈ ds, d.Sound := by
  cases hresult : p.parseAll.1 with
  | error f =>
    rw [hresult] at h
    cases h
    exact fun _ hd => nomatch hd
  | ok es =>
    rw [hresult] at h
    cases h
    intro d hd
    obtain ⟨e, he, rfl⟩ := List.mem_map.mp hd
    exact (Parser.whole_of_parseAll_ok hp hresult e he).sound

end Indexed

/-! ### Every state that operations lead to -/

open Indexed (Gives)

/-- **No tree with a gap is handed out.** After any operations on a new parser, with any operands
and in any order, and whatever the fault is then: a rule returns no tree if and only if there is a
fault when it returns, and a tree that it returns has nothing missing in it, each of its operators
is the one that its token denotes, and every printer prints it. The same holds of the tree of one
expression, and of every tree of a list of statements. -/
theorem rules_return_sound_trees (tokens : List Token) (ops : List (Operation Draft))
    (fault : Option Fault) :
    ∃ (answers : List Answer) (m : Indexed) (p : Parser) (behind : List Token),
      Gives (Operation.runAll ops) (Indexed.ofTokens tokens) (answers, m)
      ∧ { m with fault := fault } = p.indexed behind
      ∧ (∀ rule : Rule, ∃ d m', Gives rule.run { m with fault := fault } (d, m')
        ∧ d = .ofResult (rule.outcome p).result ∧ m' = (rule.outcome p).next.indexed behind
        ∧ (d = .missing ↔ m'.fault ≠ none) ∧ (d ≠ .missing → d.Sound))
      ∧ (∃ d f, Draft.handed p.parse.result = (d, f)
        ∧ Gives Indexed.parse { m with fault := fault } ((d, f), p.parse.next.indexed behind)
        ∧ (d = .missing ↔ f ≠ none) ∧ (d ≠ .missing → d.Sound))
      ∧ ∃ ds f, Draft.handedAll p.parseAll.1 = (ds, f)
        ∧ Gives Indexed.parseAll { m with fault := fault } ((ds, f), p.parseAll.2.indexed behind)
        ∧ ∀ d ∈ ds, d.Sound := by
  obtain ⟨answers, m, p, behind, hrun, hm, hp⟩ :=
    Operation.exists_gives_runAll_withFault tokens ops fault
  refine ⟨answers, m, p, behind, hrun, hm, fun rule => ?_, ⟨_, _, rfl, ?_⟩, _, _, rfl, ?_⟩
  · have hsound := (rule.follows hp (Nat.le_refl _)).sound
    exact ⟨_, _, hm ▸ rule.gives behind hp, rfl, rfl, hsound⟩
  · exact ⟨hm ▸ Indexed.gives_parse behind hp, Indexed.sound_parse hp rfl⟩
  · exact ⟨hm ▸ Indexed.gives_parseAll behind hp, Indexed.sound_parseAll hp rfl⟩

/-- The rule of operators in front, at `- nil`. -/
theorem rules_return_sound_trees_minus_nil :
    let minus : Token := ⟨.minus, "-", "", 1⟩
    let word : Token := ⟨.nilWord, "nil", "", 1⟩
    let tree : Draft := .unary UnaryOp.negate.code minus (.literal .nil)
    ∃ m, Gives (Rule.run .unary) (Indexed.ofTokens [minus, word]) (tree, m) ∧ tree.Sound := by
  intro minus word tree
  obtain ⟨answers, m, p, behind, hrun, -, hrules, -⟩ :=
    rules_return_sound_trees [minus, word] [] none
  obtain ⟨d, m', hgives, -, -, -, hsound⟩ := hrules .unary
  obtain rfl : Indexed.ofTokens [minus, word] = m :=
    congrArg Prod.snd (Gives.unique ⟨0, fun _ _ => rfl⟩ hrun)
  have hresult : (Rule.outcome .unary (Parser.ofTokens [minus, word])).result
      = .ok (.unary .negate minus (.literal .nil)) := by cbv
  have htree := Rule.gives .unary (Parser.ofTokens [minus, word]).behind
    (Parser.proper_ofTokens [minus, word])
  rw [Parser.ofTokens_indexed, hresult] at htree
  obtain rfl : tree = d := congrArg Prod.fst (htree.unique hgives)
  exact ⟨m', hgives, hsound (Draft.ofExpr_ne_missing (.unary .negate minus (.literal .nil)))⟩

end Lox
