import Lox.Proofs.Numerals
import Lox.Proofs.Respacing
import Lox.Proofs.Script

/-!
# What can be wrong

An error among tokens tells that something else was expected, or that a number cannot be read. Other
causes are there in the rules, but no token list leads to them; and the numbers that scanning cuts
off can all be read. So whatever stops a unit of input lies in its text.

- `ParseError.Arises`: the causes of an error among tokens.
- `Parser.arises_of_parse_error`, `Parser.arises_of_parseAll_error`: what parsing fails with.
- `read?_of_mem_lexemes`: the numbers of a scan.
- `faults_lie_in_text`: no internal fault, no unread number, and only faults of the text.
-/

namespace Lox

/-- The numbers that scanning cuts off are read. -/
theorem read?_of_mem_lexemes {source : String} {t : Token} (ht : t ∈ (scan source).lexemes)
    (hkind : t.kind = .number) : (Number.read? t.literal).isSome := by
  obtain ⟨form, hform, hdenotes⟩ := lexes_of_mem_lexemes ht
  generalize t.lexeme.toList = text at hform hdenotes
  cases hdenotes with
  | mark hspelling =>
    cases hkind
    cases hspelling
  | string => cases hkind
  | number => exact Number.read?_of_belongs hform
  | reserved hword =>
    cases hkind
    have hmem := Segment.mem_reservedWords hword
    simp [TokenKind.reservedWords] at hmem
  | identifier _ => cases hkind

/-! ### The causes of errors among tokens -/

/-- **The causes that an error among tokens can have**: something else was expected in its place, or
its token is a number that cannot be read. -/
inductive ParseError.Arises (tokens : List Token) (e : ParseError) : Prop
  | expected : e.cause ∈ [.unexpectedToken, .expectedRightParen, .expectedEnd, .expectedSemicolon] →
      Arises tokens e
  | unread : e.token ∈ tokens → e.token.kind = .number → Number.read? e.token.literal = none →
      e.cause = .invalidNumber → Arises tokens e

theorem ParseError.Arises.mono {tokens tokens' : List Token} {e : ParseError}
    (h : e.Arises tokens) (hsub : ∀ t ∈ tokens, t ∈ tokens') : e.Arises tokens' := by
  cases h with
  | expected hcause => exact .expected hcause
  | unread htoken hkind hread hcause => exact .unread (hsub _ htoken) hkind hread hcause

theorem ParseError.Arises.cause_ne_internal {tokens : List Token} {e : ParseError}
    (h : e.Arises tokens) : e.cause ≠ .internal := by
  cases h with
  | expected hcause =>
    intro heq
    simp [heq] at hcause
  | unread _ _ _ hcause =>
    intro heq
    cases heq.symm.trans hcause

theorem ParseError.Arises.cause_ne_invalidNumber {tokens : List Token} {e : ParseError}
    (h : e.Arises tokens)
    (hnumbers : ∀ t ∈ tokens, t.kind = .number → (Number.read? t.literal).isSome) :
    e.cause ≠ .invalidNumber := by
  cases h with
  | expected hcause =>
    intro heq
    simp [heq] at hcause
  | unread htoken hkind hread _ =>
    have hsome := hnumbers _ htoken hkind
    rw [hread] at hsome
    cases hsome

namespace Parser

open Grammar

/-- **What parsing an expression fails with.** -/
theorem arises_of_parse_error {tokens : List Token} {f : Fault}
    (h : (ofTokens tokens).parse.result = .error f) :
    ∃ e : ParseError, f = .parse e ∧ e.Arises (inner tokens) := by
  obtain ⟨w, rest, s, ha, -, hb, -, hf, -⟩ := halt_of_parse_error h
  refine ⟨s.error rest (ofTokens tokens).finish, hf, ?_⟩
  have hfinish : (ofTokens tokens).finish.kind = .eof := (closed_eq_ahead tokens).2
  rcases cause_cases s rest with hc | hc | hc | hc
  · exact .expected (by simp [Stance.error, hc])
  · exact .expected (by simp [Stance.error, hc])
  · -- a number is at fault, and the end token is none
    obtain ⟨-, hkind, hread⟩ := (cause_eq_invalidNumber_iff hb hfinish).mp hc
    cases rest with
    | nil => cases hfinish.symm.trans hkind
    | cons t rest => exact .unread (ha ▸ by simp [Stance.error]) hkind hread hc
  · exact .expected (by simp [Stance.error, hc])

/-- What a region fails with. -/
theorem Region.arises {r : Region} (hbody : ∀ t ∈ r.body, t.kind ≠ .eof) {f : Fault}
    (hf : f ∈ r.faults) : ∃ e : ParseError, f = .parse e ∧ e.Arises r.body := by
  cases hresult : (ofTokens r.body).parse.result with
  | ok e => simp [faults, hresult] at hf
  | error g =>
    obtain ⟨e, rfl, he⟩ := arises_of_parse_error hresult
    rw [inner_of_no_eof hbody] at he
    simp only [faults, hresult] at hf
    rcases List.mem_cons.mp hf with rfl | hf
    · refine ⟨_, rfl, ?_⟩
      cases he with
      | expected hcause =>
        refine .expected ?_
        simp only [List.mem_cons, List.not_mem_nil, or_false] at hcause
        rcases hcause with hc | hc | hc | hc <;> simp [hc, asStatement]
      | unread htoken hkind hread hcause =>
        have hne : e.token.kind ≠ .eof := by simp [hkind]
        rw [if_neg hne]
        exact .unread htoken hkind hread (by rw [hcause]; rfl)
    · obtain ⟨t, -, rfl⟩ := List.mem_map.mp hf
      exact ⟨_, rfl, .expected (by simp)⟩

/-- **What parsing a list of statements fails with.** -/
theorem arises_of_parseAll_error {tokens : List Token} {f : Fault}
    (h : (ofTokens tokens).parseAll.1 = .error f) :
    ∃ es : List ParseError, es ≠ [] ∧ f = .joined (es.map .parse)
      ∧ ∀ e ∈ es, e.Arises (inner tokens) := by
  obtain ⟨es, hes, -⟩ := exists_errors tokens
  rw [statements_ofTokens, faults_flatMap] at hes
  rw [parseAll_eq, hes] at h
  split at h
  · cases h
  · next hne =>
    refine ⟨es, by simpa using hne, (Except.error.inj h).symm, fun e he => ?_⟩
    have hmem : Fault.parse e ∈ (regionsOf tokens).flatMap Region.faults :=
      hes ▸ List.mem_map_of_mem he
    obtain ⟨r, hr, hfault⟩ := List.mem_flatMap.mp hmem
    have hsub : ∀ t ∈ r.body, t ∈ inner tokens := mem_of_mem_regions hr
    obtain ⟨e', heq, harises⟩ :=
      Region.arises (fun t ht => kind_ne_eof_of_mem_inner (hsub t ht)) hfault
    cases heq
    exact harises.mono hsub

theorem inner_scan (source : String) : inner (scan source).tokens = (scan source).lexemes := by
  rw [tokens_scan]
  exact inner_append_eof Scan.kind_ne_eof_of_mem_lexemes _

end Parser

/-! ### Causes of faults -/

theorem Fault.hasCause_parse (e : ParseError) (c : Cause) :
    (Fault.parse e).hasCause c ↔ e.cause = c := by
  simp [hasCause, causes, eq_comm]

theorem Fault.listCauses_map_parse (es : List ParseError) :
    listCauses (es.map .parse) = es.map ParseError.cause := by
  induction es with
  | nil => rfl
  | cons e es ih =>
    rw [List.map_cons, listCauses, ih]
    rfl

theorem Fault.hasCause_joined (es : List ParseError) (c : Cause) :
    (Fault.joined (es.map .parse)).hasCause c ↔ ∃ e ∈ es, e.cause = c := by
  rw [hasCause, causes, listCauses_map_parse, List.contains_iff_mem, List.mem_map]

/-- **Whatever stops a unit of input lies in its text.** Parsing any tokens fails with errors at
tokens, never with an internal fault; parsing the tokens of a source text never fails with a number
that cannot be read; and running a unit of input ends without a fault or with one of its text. -/
theorem faults_lie_in_text :
    (∀ tokens f, (Parser.ofTokens tokens).parse.result = .error f →
      (∃ e, f = .parse e) ∧ ¬ f.hasCause .internal)
    ∧ (∀ tokens f, (Parser.ofTokens tokens).parseAll.1 = .error f →
      (∃ es, es ≠ [] ∧ f = .joined (es.map .parse)) ∧ ¬ f.hasCause .internal)
    ∧ (∀ source f, (Parser.ofTokens (scan source).tokens).parse.result = .error f
        ∨ (Parser.ofTokens (scan source).tokens).parseAll.1 = .error f →
      ¬ f.hasCause .invalidNumber)
    ∧ ∀ (app : App) source, (app.run source).fault = none
      ∨ ∃ f, (app.run source).fault = some f ∧ f.isStatic := by
  have hnumbers : ∀ source, ∀ t ∈ Parser.inner (scan source).tokens, t.kind = .number →
      (Number.read? t.literal).isSome := by
    intro source t ht hkind
    rw [Parser.inner_scan] at ht
    exact read?_of_mem_lexemes ht hkind
  refine ⟨?_, ?_, ?_, ?_⟩
  · intro tokens f h
    obtain ⟨e, rfl, he⟩ := Parser.arises_of_parse_error h
    rw [Fault.hasCause_parse]
    exact ⟨⟨e, rfl⟩, he.cause_ne_internal⟩
  · intro tokens f h
    obtain ⟨es, hne, rfl, hes⟩ := Parser.arises_of_parseAll_error h
    rw [Fault.hasCause_joined]
    refine ⟨⟨es, hne, rfl⟩, ?_⟩
    rintro ⟨e, he, hcause⟩
    exact (hes e he).cause_ne_internal hcause
  · rintro source f (h | h)
    · obtain ⟨e, rfl, he⟩ := Parser.arises_of_parse_error h
      rw [Fault.hasCause_parse]
      exact he.cause_ne_invalidNumber (hnumbers source)
    · obtain ⟨es, -, rfl, hes⟩ := Parser.arises_of_parseAll_error h
      rw [Fault.hasCause_joined]
      rintro ⟨e, he, hcause⟩
      exact (hes e he).cause_ne_invalidNumber (hnumbers source) hcause
  · intro app source
    rw [App.run_fault]
    cases h : sourceFault? source with
    | none => exact .inl rfl
    | some f => exact .inr ⟨f, rfl, isStatic_of_sourceFault? h⟩

/-- A number where an operator or a parenthesis has to stand: `(nil 08.50`. -/
theorem faults_lie_in_text_stray_number :
    let tokens := (scan "(nil 08.50").tokens
    let f := Fault.parse ⟨⟨.number, "08.50", "08.50", 1⟩, .expectedRightParen⟩
    (Parser.ofTokens tokens).parse.result = .error f
      ∧ ¬ f.hasCause .internal ∧ ¬ f.hasCause .invalidNumber := by
  intro tokens f
  have htokens : tokens = [⟨.leftParen, "(", "", 1⟩, ⟨.nilWord, "nil", "", 1⟩,
      ⟨.number, "08.50", "08.50", 1⟩, .eof 1] := by
    decide +kernel
  have h : (Parser.ofTokens tokens).parse.result = .error f := by
    rw [htokens]
    cbv
  obtain ⟨hparse, -, hscan, -⟩ := faults_lie_in_text
  exact ⟨h, (hparse tokens f h).2, hscan _ f (.inl h)⟩

end Lox
