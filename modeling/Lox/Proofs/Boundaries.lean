import Mathlib.Order.Bounds.Basic
import Lox.Proofs.Operations

/-!
# Where recovery stops

Behind a fault the parser passes over tokens up to the next likely start of a statement. It takes one
step whatever stands there, and then looks back for a semicolon and ahead for a reserved word at
every token. All this comes to one rule: it stops at the first boundary behind the place where it
starts.

- `Indexed.IsBoundary`: the boundaries among tokens, said without the parser.
- `Parser.isBoundary_of_ahead_nil`, `Parser.isBoundary_of_endsStatement`,
  `Parser.isBoundary_of_startsStatement`, `Parser.not_isBoundary`: whether a parser stands at one.
- `Parser.isLeast_atBoundary`: going on to a boundary; `Parser.isLeast_synchronize`: recovery.
- `synchronize_to_least_boundary`: in every state that operations lead to, with any fault or none.
-/

namespace Lox

/-- **A boundary among tokens**: an end token, the place behind a semicolon, or a reserved word that
starts a statement. -/
inductive Indexed.IsBoundary (tokens : List Token) : Nat → Prop
  | finish {k : Nat} {t : Token} (get : tokens[k]? = some t) (kind : t.kind = .eof) :
      IsBoundary tokens k
  | behindSemicolon {k : Nat} {t : Token} (get : tokens[k]? = some t) (kind : t.kind = .semicolon) :
      IsBoundary tokens (k + 1)
  | word {k : Nat} {t : Token} (get : tokens[k]? = some t) (kind : t.kind.startsStatement = true) :
      IsBoundary tokens k

namespace Parser

open Indexed (IsBoundary)

variable {p : Parser} {t : Token} {rest : List Token} (behind : List Token)

/-! ### Whether a parser stands at a boundary -/

theorem getElem?_indexed_of_ahead_cons (ha : p.ahead = t :: rest) :
    (p.indexed behind).tokens[p.position]? = some t := by
  rw [Indexed.getElem?_position, peek, ha]
  rfl

theorem getElem?_indexed_of_passed_cons {last : Token} {passed : List Token}
    (h : p.passed = last :: passed) : (p.indexed behind).tokens[passed.length]? = some last := by
  simp [indexed, h]

theorem peek_kind_eq_eof_iff (hp : p.Proper) : p.peek.kind = .eof ↔ p.ahead = [] := by
  cases ha : p.ahead with
  | nil => simp [peek, ha, hp.finish]
  | cons t rest => simp [peek, ha, hp.ahead t (by simp [ha])]

theorem isBoundary_of_ahead_nil (hp : p.Proper) (ha : p.ahead = []) :
    IsBoundary (p.indexed behind).tokens p.position :=
  .finish (Indexed.getElem?_position behind p) ((peek_kind_eq_eof_iff hp).mpr ha)

theorem isBoundary_of_endsStatement (h : endsStatement p.passed = true) :
    IsBoundary (p.indexed behind).tokens p.position := by
  cases hpassed : p.passed with
  | nil =>
    rw [hpassed] at h
    cases h
  | cons last passed =>
    rw [hpassed] at h
    rw [position, hpassed]
    exact .behindSemicolon (getElem?_indexed_of_passed_cons behind hpassed) (eq_of_beq h)

theorem isBoundary_of_startsStatement (ha : p.ahead = t :: rest)
    (h : t.kind.startsStatement = true) : IsBoundary (p.indexed behind).tokens p.position :=
  .word (getElem?_indexed_of_ahead_cons behind ha) h

/-- **No boundary is passed over**: where recovery takes a token there is none. -/
theorem not_isBoundary (hp : p.Proper) (ha : p.ahead = t :: rest)
    (hends : endsStatement p.passed = false) (hstart : t.kind.startsStatement = false) :
    ¬ IsBoundary (p.indexed behind).tokens p.position := by
  have hnext := getElem?_indexed_of_ahead_cons behind ha
  intro h
  generalize hk : p.position = k at h hnext
  cases h with
  | finish hget heof =>
    rw [hnext] at hget
    cases hget
    exact hp.ahead t (by simp [ha]) heof
  | word hget hword =>
    rw [hnext] at hget
    cases hget
    rw [hstart] at hword
    cases hword
  | @behindSemicolon k t' hget hsemicolon =>
    -- a token was passed, and the semicolon is that token
    obtain ⟨last, passed, hpassed⟩ := List.exists_cons_of_length_eq_add_one hk
    obtain rfl : passed.length = k := by simpa [position, hpassed] using hk
    rw [getElem?_indexed_of_passed_cons behind hpassed] at hget
    cases hget
    rw [hpassed, endsStatement, hsemicolon] at hends
    cases hends

/-! ### The first boundary -/

/-- **The parser goes on to the first boundary**, which may be where it stands. -/
theorem isLeast_atBoundary (hp : p.Proper) :
    IsLeast {k | p.position ≤ k ∧ IsBoundary (p.indexed behind).tokens k}
      p.atBoundary.position := by
  -- along the tokens ahead, as recovery goes
  obtain ⟨ahead, ha⟩ : ∃ ahead, p.ahead = ahead := ⟨_, rfl⟩
  induction ahead generalizing p with
  | nil =>
    rw [atBoundary_of_ahead_nil ha]
    exact ⟨⟨Nat.le_refl _, isBoundary_of_ahead_nil behind hp ha⟩, fun _ hk => hk.1⟩
  | cons t rest ih =>
    cases hends : endsStatement p.passed with
    | true =>
      rw [atBoundary_of_endsStatement hends]
      exact ⟨⟨Nat.le_refl _, isBoundary_of_endsStatement behind hends⟩, fun _ hk => hk.1⟩
    | false =>
      cases hstart : t.kind.startsStatement with
      | true =>
        rw [atBoundary_of_startsStatement ha hstart]
        exact ⟨⟨Nat.le_refl _, isBoundary_of_startsStatement behind ha hstart⟩, fun _ hk => hk.1⟩
      | false =>
        have hpass := reaches_pass_cons ha
        have hlater := ih (hpass.proper hp) (ahead_pass (w := [t]) ha)
        rw [hpass.tokens_indexed, position_pass, List.length_singleton] at hlater
        rw [atBoundary_pass ha hends hstart]
        obtain ⟨⟨hle, hboundary⟩, hleast⟩ := hlater
        refine ⟨⟨Nat.le_of_succ_le hle, hboundary⟩, ?_⟩
        rintro k ⟨hk, hbound⟩
        -- the place that is left is no boundary
        have hne : p.position ≠ k := by
          rintro rfl
          exact not_isBoundary behind hp ha hends hstart hbound
        exact hleast ⟨Nat.lt_of_le_of_ne hk hne, hbound⟩

/-- At the end recovery stays where it is. -/
theorem synchronize_of_ahead_nil (ha : p.ahead = []) : p.synchronize = p := by
  have hsame : p.advance = p := by simp [advance, ha]
  rw [synchronize_eq_atBoundary, hsame, atBoundary_of_ahead_nil ha]

/-- **Recovery goes on to the first boundary behind the place where it starts.** -/
theorem isLeast_synchronize (hp : p.Proper) (ha : p.ahead = t :: rest) :
    IsLeast {k | p.position < k ∧ IsBoundary (p.indexed behind).tokens k}
      p.synchronize.position := by
  have hpass := reaches_pass_cons ha
  have hleast := isLeast_atBoundary behind (hpass.proper hp)
  rw [hpass.tokens_indexed, position_pass] at hleast
  rw [synchronize_eq_atBoundary, advance_eq_pass ha]
  exact hleast

end Parser

/-! ### Every state that operations lead to -/

open Indexed (Gives IsBoundary)
open Operation (runAll)

theorem Indexed.gives_synchronize {p : Parser} (behind : List Token) (hp : p.Proper) :
    Gives synchronize (p.indexed behind) ((), p.synchronize.indexed behind) :=
  ⟨p.ahead.length + 1, fun _ hn => synchronize_indexed behind hp hn⟩

/-- **Recovery stops at the first boundary.** After any operations on a new parser, with any operands
and in any order, and whatever the fault is then: recovery leaves the tokens and the fault as they
are. At an end token the index stays; anywhere else it moves to the least index behind it at which
there is an end token, or a token behind a semicolon, or a reserved word that starts a statement. -/
theorem synchronize_to_least_boundary (tokens : List Token) (ops : List (Operation Draft)) :
    ∃ (answers : List Answer) (m : Indexed) (behind : List Token),
      Gives (runAll ops) (Indexed.ofTokens tokens) (answers, m)
      ∧ ∀ fault : Option Fault, ∃ (p : Parser) (t : Token) (m' : Indexed),
        { m with fault := fault } = p.indexed behind
        ∧ m.tokens[m.current]? = some t
        ∧ Gives Indexed.synchronize { m with fault := fault } ((), m')
        ∧ m' = p.synchronize.indexed behind
        ∧ m'.tokens = m.tokens ∧ m'.fault = fault
        ∧ (t.kind = .eof → m'.current = m.current)
        ∧ (t.kind ≠ .eof → IsLeast {k | m.current < k ∧ IsBoundary m.tokens k} m'.current) := by
  obtain ⟨answers, m, behind, hrun, hany⟩ := Operation.exists_gives_runAll_anyFault tokens ops
  refine ⟨answers, m, behind, hrun, ?_⟩
  intro fault
  obtain ⟨p, hm, hfault, hp⟩ := hany fault
  have htokens : m.tokens = (p.indexed behind).tokens := (congrArg Indexed.tokens hm :)
  have hcurrent : m.current = p.position := (congrArg Indexed.current hm :)
  rw [hm, htokens, hcurrent]
  refine ⟨p, p.peek, _, rfl, Indexed.getElem?_position behind p, Indexed.gives_synchronize behind hp,
    rfl, (Parser.reaches_synchronize p).tokens_indexed behind,
    (Parser.fault_synchronize p).trans hfault, ?_, ?_⟩
  · intro heof
    rw [Parser.synchronize_of_ahead_nil ((Parser.peek_kind_eq_eof_iff hp).mp heof)]
    rfl
  · intro hne
    obtain ⟨t, rest, ha⟩ := List.exists_cons_of_ne_nil (mt (Parser.peek_kind_eq_eof_iff hp).mpr hne)
    exact Parser.isLeast_synchronize behind hp ha

/-- From the parenthesis of `( nil print nil` recovery goes to the word `print`; without tokens it
stays at the end token. -/
theorem synchronize_to_least_boundary_print :
    let word : Token := ⟨.nilWord, "nil", "", 1⟩
    let tokens : List Token := [⟨.leftParen, "(", "", 1⟩, word, ⟨.printWord, "print", "", 1⟩, word]
    (∃ m, Gives Indexed.synchronize (Indexed.ofTokens tokens) ((), m) ∧ m.current = 2
      ∧ IsLeast {k | 0 < k ∧ IsBoundary (Indexed.ofTokens tokens).tokens k} m.current)
    ∧ ∃ m, Gives Indexed.synchronize (Indexed.ofTokens []) ((), m) ∧ m.current = 0 := by
  intro word tokens
  have hfresh : ∀ {tokens : List Token} {answers : List Answer} {m : Indexed},
      Gives (runAll []) (Indexed.ofTokens tokens) (answers, m) → Indexed.ofTokens tokens = m :=
    fun hrun => congrArg Prod.snd (Gives.unique ⟨0, fun _ _ => rfl⟩ hrun)
  constructor
  · obtain ⟨answers, m, behind, hrun, hall⟩ := synchronize_to_least_boundary tokens []
    obtain rfl := hfresh hrun
    obtain ⟨p, t, m', -, hget, hgives, -, -, -, -, hleast⟩ := hall none
    have hmoves := Indexed.gives_synchronize (Parser.ofTokens tokens).behind
      (Parser.proper_ofTokens tokens)
    rw [Parser.ofTokens_indexed] at hmoves
    obtain rfl := congrArg Prod.snd (hmoves.unique hgives)
    cases hget
    exact ⟨_, hgives, rfl, hleast (by decide)⟩
  · obtain ⟨answers, m, behind, hrun, hall⟩ := synchronize_to_least_boundary [] []
    obtain rfl := hfresh hrun
    obtain ⟨p, t, m', -, hget, hgives, -, -, -, hstays, -⟩ := hall none
    cases hget
    exact ⟨m', hgives, hstays rfl⟩

end Lox
