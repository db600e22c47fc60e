import Lox.Proofs.Operations

/-!
# The first fault stays

A fault is handed up by nothing but the rules themselves: the callers of a rule that fails run on,
and each of them has to see the fault, take no token, make no node and raise no fault of its own. So
it is with every rule and in every state: once there is a fault the rules return nothing and change
nothing, and parsing again finds what was found before.

- `Parser.view_grouping_of_fault` to `Parser.view_parse_of_fault`: the rules one by one, from the
  tightest to whole inputs; `Rule.view_of_fault`: all of them.
- `Operation.refusal?`: what operations answer after a fault; `Operation.run_of_refusal`,
  `Operation.runAll_of_refusal`: one of them, and any number of them in any order.
- `Parser.fault_of_parse_error`: a parse that fails leaves its fault behind.
- `fault_stops_operations`: in every state that operations lead to, with any fault or none.
-/

namespace Lox

namespace Parser

variable {p : Parser} {f : Fault}

/-! ### Rules on a parser with a fault -/

theorem check_of_fault (hf : p.fault = some f) (wanted : TokenKind → Bool) :
    p.check wanted = false := by
  simp [check, isDone, hf]

theorem takeIf?_of_fault (hf : p.fault = some f) (wanted : TokenKind → Bool) :
    p.takeIf? wanted = none :=
  dif_neg (by simp [check_of_fault hf])

theorem view_raise_of_fault (hf : p.fault = some f) (later : Fault) :
    (p.raise later).view = (.error f, p) := by
  simp [raise, hf, Outcome.view]

theorem view_grouping_of_fault (hf : p.fault = some f) : (grouping p).view = (.error f, p) := by
  rw [grouping, takeIf?_of_fault hf]
  exact view_raise_of_fault hf _

theorem view_primary_of_fault (hf : p.fault = some f) : (primary p).view = (.error f, p) := by
  rw [primary, takeIf?_of_fault hf]
  exact view_grouping_of_fault hf

theorem view_unary_of_fault (hf : p.fault = some f) : (unary p).view = (.error f, p) := by
  rw [unary, takeIf?_of_fault hf]
  exact view_primary_of_fault hf

/-- A level fails with its first operand, which is an expression of the next tighter level. -/
theorem view_binary_of_fault (hf : p.fault = some f) (level : Level) :
    (binary level p).view = (.error f, p) := by
  have hfactor : (binary .factor p).view = (.error f, p) :=
    view_binary_error (by rw [operand]; exact view_unary_of_fault hf)
  have hterm : (binary .term p).view = (.error f, p) :=
    view_binary_error (by rw [operand]; exact hfactor)
  have hcomparison : (binary .comparison p).view = (.error f, p) :=
    view_binary_error (by rw [operand]; exact hterm)
  cases level with
  | equality => exact view_binary_error (by rw [operand]; exact hcomparison)
  | comparison => exact hcomparison
  | term => exact hterm
  | factor => exact hfactor

theorem view_statement_of_fault (hf : p.fault = some f) : (statement p).view = (.error f, p) :=
  view_statement_error (view_binary_of_fault hf .equality)

theorem view_parse_of_fault (hf : p.fault = some f) : p.parse.view = (.error f, p) :=
  view_parse_error (view_binary_of_fault hf .equality)

/-- **A parse that fails leaves its fault behind.** -/
theorem fault_of_parse_error (hp : p.Proper) (h : p.parse.result = .error f) :
    p.parse.next.fault = some f := by
  have hexpr := Indexed.follows_binary _ .equality p hp (Nat.lt_succ_self _)
  generalize hview : (binary .equality p).view = v at hexpr
  cases hexpr with
  | @fault found q hreach hq hrun =>
    obtain ⟨hle, ho⟩ := Outcome.eq_of_view (view_parse_error hview)
    rw [ho] at h ⊢
    cases h
    exact hq
  | @tree e q hreach hq hwhole hrun =>
    cases ha : q.ahead with
    | nil =>
      obtain ⟨hle, ho⟩ := Outcome.eq_of_view (view_parse_end hview ha)
      rw [ho] at h
      cases h
    | cons t rest =>
      obtain ⟨hle, ho⟩ := Outcome.eq_of_view (view_parse_more hview hq ha)
      rw [ho] at h ⊢
      cases h
      rfl

end Parser

/-- **After a fault every rule returns that fault** and leaves the parser as it is. -/
theorem Rule.view_of_fault (rule : Rule) {p : Parser} {f : Fault} (hf : p.fault = some f) :
    (rule.outcome p).view = (.error f, p) := by
  cases rule with
  | statement => exact Parser.view_statement_of_fault hf
  | expression => exact Parser.view_binary_of_fault hf .equality
  | level l => exact Parser.view_binary_of_fault hf l
  | unary => exact Parser.view_unary_of_fault hf
  | primary => exact Parser.view_primary_of_fault hf
  | grouping => exact Parser.view_grouping_of_fault hf

/-! ### Operations after a fault -/

namespace Operation

/-- **What an operation answers after the fault `f`**, if it is one that does nothing then: no token
is of a wanted kind, there is no tree, and a whole input has the fault. -/
def refusal? {Tree : Type} (f : Fault) : Operation Tree → Option Answer
  | check _ | accept _ | acceptAny _ => some (.bool false)
  | newBinary _ _ _ | newUnary _ _ | rule _ => some (.tree .missing)
  | parse => some (.one (.missing, some f))
  | peek | advance | isAtEnd | isDone | synchronize | clearFault | parseAll => none

variable {p : Parser} {f : Fault} {answer : Answer}

theorem take_of_fault (hf : p.fault = some f) (wanted : TokenKind → Bool) :
    take p wanted = (.bool false, p) := by
  rw [take, Parser.takeIf?_of_fault hf]

/-- The answer and the state of a tree that is not there. -/
theorem tree_of_view {o : Parser.Outcome p} (h : o.view = (.error f, p)) :
    (Answer.tree (.ofResult o.result), o.next) = (.tree .missing, p) := by
  obtain ⟨hle, rfl⟩ := Parser.Outcome.eq_of_view h
  rfl

theorem perform_of_refusal (op : Operation Expr) (hf : p.fault = some f)
    (h : op.refusal? f = some answer) : op.perform p = (answer, p) := by
  cases op with
  | check kind =>
    cases h
    rw [perform, Parser.check_of_fault hf]
  | accept kind =>
    cases h
    exact take_of_fault hf (· == kind)
  | acceptAny kinds =>
    cases h
    exact take_of_fault hf kinds.contains
  | newBinary left operator right =>
    cases h
    exact tree_of_view (Parser.view_newBinary_of_fault hf)
  | newUnary operator right =>
    cases h
    exact tree_of_view (Parser.view_newUnary_of_fault hf)
  | rule r =>
    cases h
    exact tree_of_view (r.view_of_fault hf)
  | parse =>
    cases h
    obtain ⟨hle, ho⟩ := Parser.Outcome.eq_of_view (Parser.view_parse_of_fault hf)
    rw [perform, ho]
    rfl
  | peek | advance | isAtEnd | isDone | synchronize | clearFault | parseAll => cases h

variable {n : Nat} (behind : List Token)

/-- **An operation in place that is refused changes nothing**, whatever its operands are. -/
theorem run_of_refusal (op : Operation Draft) (hp : p.Proper) (hf : p.fault = some f)
    (hn : p.depth ≤ n) (h : op.refusal? f = some answer) :
    op.run n (p.indexed behind) = some (answer, p.indexed behind) := by
  have hsame : ∀ op : Operation Expr, op.refusal? f = some answer →
      (op.map Draft.ofExpr).run n (p.indexed behind) = some (answer, p.indexed behind) := by
    intro op h
    rw [run_map_ofExpr behind op hp hn, perform_of_refusal op hf h]
  cases op with
  | check kind => exact hsame (.check kind) h
  | accept kind => exact hsame (.accept kind) h
  | acceptAny kinds => exact hsame (.acceptAny kinds) h
  | rule r => exact hsame (.rule r) h
  | parse => exact hsame .parse h
  | newBinary left operator right =>
    -- the operands may be missing, and are not looked at
    cases h
    exact run_answer (Indexed.newBinary_of_fault behind hf left right operator) .tree
  | newUnary operator right =>
    cases h
    exact run_answer (Indexed.newUnary_of_fault behind hf right operator) .tree
  | peek | advance | isAtEnd | isDone | synchronize | clearFault | parseAll => cases h

/-- **Nor do any number of them**, in any order. -/
theorem runAll_of_refusal (ops : List (Operation Draft)) (hp : p.Proper) (hf : p.fault = some f)
    (hn : p.depth ≤ n) (h : ∀ op ∈ ops, (op.refusal? f).isSome = true) :
    runAll ops n (p.indexed behind)
      = some (ops.filterMap (refusal? f), p.indexed behind) := by
  induction ops with
  | nil => rfl
  | cons op later ih =>
    obtain ⟨hop, hlater⟩ := List.forall_mem_cons.mp h
    obtain ⟨answer, hanswer⟩ := Option.isSome_iff_exists.mp hop
    rw [runAll, Indexed.bind_run (run_of_refusal behind op hp hf hn hanswer),
      Indexed.bind_run (ih hlater), List.filterMap_cons_some hanswer]
    rfl

/-- **Parsing again and again after a parse that fails** finds the same fault and changes nothing. -/
theorem parse_again (hp : p.Proper) (h : (Draft.handed p.parse.result).2 = some f) :
    (Draft.handed p.parse.result).1 = .missing ∧ (p.parse.next.indexed behind).fault = some f
      ∧ ∀ count, Indexed.Gives (runAll (List.replicate count .parse)) (p.parse.next.indexed behind)
        (List.replicate count (.one (Draft.handed p.parse.result)), p.parse.next.indexed behind) := by
  cases hresult : p.parse.result with
  | ok e =>
    rw [hresult] at h
    cases h
  | error found =>
    rw [hresult] at h
    cases h
    have hleft := Parser.fault_of_parse_error hp hresult
    have hproper := (Indexed.reaches_parse hp).proper hp
    have hrefusal : refusal? f (parse : Operation Draft) = some (.one (.missing, some f)) := rfl
    refine ⟨rfl, hleft, fun count => ⟨p.parse.next.depth, fun n hn => ?_⟩⟩
    have hall : ∀ op ∈ List.replicate count (parse : Operation Draft),
        (op.refusal? f).isSome = true := by
      intro op hop
      rw [List.eq_of_mem_replicate hop, hrefusal]
      rfl
    rw [runAll_of_refusal behind _ hproper hleft hn hall, List.filterMap_replicate_of_some hrefusal]
    rfl

end Operation

/-! ### Every state that operations lead to -/

open Indexed (Gives)
open Operation (runAll)

/-- **A fault stops the operations.** After any operations on a new parser, with any operands and in
any order, and whatever the fault is then: if there is a fault, no token is of a wanted kind and none
is taken, no node is made of any operands, no rule returns a tree, and the index, the tokens and the
fault stay as they are. So a parse that fails returns no tree and leaves its fault behind, and any
number of further parses return the same and change nothing. -/
theorem fault_stops_operations (tokens : List Token) (ops : List (Operation Draft)) :
    ∃ (answers : List Answer) (m : Indexed) (behind : List Token),
      Gives (runAll ops) (Indexed.ofTokens tokens) (answers, m)
      ∧ ∀ fault : Option Fault, ∃ p : Parser, { m with fault := fault } = p.indexed behind
        ∧ (∀ f, fault = some f →
          (∀ (op : Operation Draft) (answer : Answer), op.refusal? f = some answer →
            Gives op.run { m with fault := fault } (answer, { m with fault := fault }))
          ∧ ∀ (op : Operation Expr) (answer : Answer), op.refusal? f = some answer →
            op.perform p = (answer, p))
        ∧ ∃ d found m', Gives Indexed.parse { m with fault := fault } ((d, found), m')
          ∧ ∀ f, found = some f → d = .missing ∧ m'.fault = some f
            ∧ ∀ count, Gives (runAll (List.replicate count .parse)) m'
              (List.replicate count (.one (d, found)), m') := by
  obtain ⟨answers, m, behind, hrun, hany⟩ := Operation.exists_gives_runAll_anyFault tokens ops
  refine ⟨answers, m, behind, hrun, ?_⟩
  intro fault
  obtain ⟨p, hm, hfault, hp⟩ := hany fault
  rw [hm]
  refine ⟨p, rfl, ?_, _, _, _, Indexed.gives_parse behind hp, fun f hfound =>
    Operation.parse_again behind hp hfound⟩
  intro f hf
  constructor
  · intro op answer h
    exact ⟨p.depth, fun n hn => op.run_of_refusal behind hp (hfault.trans hf) hn h⟩
  · intro op answer h
    exact op.perform_of_refusal (hfault.trans hf) h

/-- A parenthesis that closes nothing, `)`: it is the fault of the first parse and of three more, and
after it no operator in front is looked for. -/
theorem fault_stops_operations_stray_paren :
    let paren : Token := ⟨.rightParen, ")", "", 1⟩
    let f : Fault := .parse ⟨paren, .unexpectedToken⟩
    let failed : Indexed := { Indexed.ofTokens [paren] with fault := some f }
    Gives (Operation.run (.rule .unary)) failed (.tree .missing, failed)
      ∧ ∃ m, Gives Indexed.parse (Indexed.ofTokens [paren]) ((.missing, some f), m)
        ∧ Gives (runAll (List.replicate 3 .parse)) m
          (List.replicate 3 (.one (.missing, some f)), m) := by
  intro paren f failed
  obtain ⟨answers, m, behind, hrun, hall⟩ := fault_stops_operations [paren] []
  obtain rfl : Indexed.ofTokens [paren] = m :=
    congrArg Prod.snd (Gives.unique ⟨0, fun _ _ => rfl⟩ hrun)
  obtain ⟨p, -, hrefused, -⟩ := hall (some f)
  obtain ⟨p', -, -, d, found, m, hparse, hagain⟩ := hall none
  have hresult : (Parser.ofTokens [paren]).parse.result = .error f := by cbv
  have hfirst := Indexed.gives_parse (Parser.ofTokens [paren]).behind
    (Parser.proper_ofTokens [paren])
  rw [Parser.ofTokens_indexed, hresult] at hfirst
  obtain ⟨rfl, rfl⟩ := Prod.mk.inj (congrArg Prod.fst (hfirst.unique hparse))
  exact ⟨(hrefused f rfl).1 (.rule .unary) _ rfl, m, hparse, (hagain f rfl).2.2 3⟩

end Lox
