import Mathlib.Data.List.Forall2
import Lox.Proofs.Operations

/-!
# Every round moves on

The loop over statements has no measure of its own: a statement may fail without taking a token, or
because of a fault that was there before it. What moves the loop on is recovery, which passes over a
token before it looks for a boundary. So no two rounds start at one place, the loop reaches the
first end token in no more rounds than there are tokens before it, and the errors it finds are about
different tokens, in the order of the tokens.

- `Parser.pairwise_start_log`, `Parser.length_log_le`: where rounds start, and how many there are.
- `Parser.round_error`: the token that the fault of a round is about.
- `Parser.pairwise_places_log`, `Parser.forall₂_faults_places`: the places of the faults.
- `Indexed.Advances`, `Indexed.OrderedFaults`: the same of the loop in place.
- `rounds_make_progress`: in every state that operations lead to, with any fault or none.
-/

namespace Lox

namespace Parser

open Grammar
open Indexed (Round places)

variable {p q : Parser}

/-! ### Where rounds start -/

/-- Fewer tokens ahead means further on. -/
theorem Reaches.position_lt (h : p.Reaches q) (hlt : q.ahead.length < p.ahead.length) :
    p.position < q.position := by
  have := h.position_add
  omega

/-- **Every round moves on.** -/
theorem position_lt_afterStatement (hp : p.Proper) (h : p.ahead ≠ []) :
    p.position < p.afterStatement.position :=
  (Indexed.reaches_afterStatement hp).position_lt (length_afterStatement_lt h)

/-- The loop stops at the end only. -/
theorem ahead_statements (p : Parser) : p.statements.2.ahead = [] := by
  induction p using log.induct with
  | case1 p h =>
    rw [statements_of_ahead_nil h]
    exact h
  | case2 p h ih =>
    rw [statements_snd_of_ahead_cons h]
    exact ih

theorem position_statements (hp : p.Proper) :
    p.statements.2.position = p.position + p.ahead.length := by
  have hadd := (Indexed.reaches_statements hp).position_add
  rwa [ahead_statements, List.length_nil, Nat.add_zero] at hadd

/-- No round starts before the first one, and the loop does not stop before it. -/
theorem position_le_of_mem_starts (hp : p.Proper) {i : Nat}
    (hi : i ∈ p.log.map Round.start ++ [p.statements.2.position]) : p.position ≤ i := by
  induction p using log.induct with
  | case1 p h =>
    rw [log_of_ahead_nil h, statements_of_ahead_nil h] at hi
    exact Nat.le_of_eq (List.mem_singleton.mp hi).symm
  | case2 p h ih =>
    have hlt := position_lt_afterStatement hp h
    rw [log_of_ahead_cons h, statements_snd_of_ahead_cons h, List.map_cons, List.cons_append] at hi
    rcases List.mem_cons.mp hi with rfl | hi
    · exact Nat.le_refl _
    · have := ih ((Indexed.reaches_afterStatement hp).proper hp) hi
      omega

/-- **No two rounds start at one place**, and the last one starts before the end. -/
theorem pairwise_start_log (hp : p.Proper) :
    (p.log.map Round.start ++ [p.statements.2.position]).Pairwise (· < ·) := by
  induction p using log.induct with
  | case1 p h =>
    rw [log_of_ahead_nil h]
    exact List.pairwise_singleton _ _
  | case2 p h ih =>
    have hproper := (Indexed.reaches_afterStatement hp).proper hp
    have hlt := position_lt_afterStatement hp h
    rw [log_of_ahead_cons h, statements_snd_of_ahead_cons h, List.map_cons, List.cons_append]
    refine List.Pairwise.cons (fun i hi => ?_) (ih hproper)
    exact Nat.lt_of_lt_of_le hlt (position_le_of_mem_starts hproper hi)

theorem length_log_le (p : Parser) : p.log.length ≤ p.ahead.length := by
  induction p using log.induct with
  | case1 p h =>
    rw [log_of_ahead_nil h]
    exact Nat.zero_le _
  | case2 p h ih =>
    have hlt := length_afterStatement_lt h
    rw [log_of_ahead_cons h, List.length_cons]
    omega

/-! ### Which tokens the faults are about -/

theorem asStatement_eq_invalidNumber_iff (c : Cause) :
    asStatement c = .invalidNumber ↔ c = .invalidNumber := by
  cases c <;> simp [asStatement]

/-- What a statement returns where a walk through the tokens ahead halts behind `w`. -/
def FailsBehind (p : Parser) (w rest : List Token) (s : Stance) : Prop :=
  (statement p).view = (.error (.parse ⟨rest.headD p.finish, asStatement (s.cause rest)⟩),
    (p.pass (w ++ s.overshoot rest)).failed
      (.parse ⟨rest.headD p.finish, asStatement (s.cause rest)⟩))

variable {w rest : List Token} {s : Stance}

theorem FailsBehind.outcome_eq (h : p.FailsBehind w rest s) :
    p.round.outcome = .error (.parse ⟨rest.headD p.finish, asStatement (s.cause rest)⟩) :=
  round_outcome_of_error (congrArg Prod.fst h)

/-- **The place of a fault is where the walk halts**, also if a number was taken there. -/
theorem FailsBehind.place_eq (h : p.FailsBehind w rest s) :
    p.round.place = p.position + w.length := by
  obtain ⟨hle, ho⟩ := Outcome.eq_of_view h
  have hhalt : p.round.halt = p.position + w.length + (s.overshoot rest).length := by
    show (statement p).next.position = _
    rw [ho]
    show (p.pass (w ++ s.overshoot rest)).position = _
    rw [position_pass, List.length_append, Nat.add_assoc]
  rw [length_overshoot] at hhalt
  simp only [Round.place, h.outcome_eq, asStatement_eq_invalidNumber_iff]
  split at hhalt
  · next hc =>
    rw [if_pos hc]
    omega
  · next hc =>
    rw [if_neg hc]
    omega

/-- The token at that place is the one that the fault names. -/
theorem getElem?_place (ha : p.ahead = w ++ rest) (behind : List Token) :
    (p.indexed behind).tokens[p.position + w.length]? = some (rest.headD p.finish) := by
  have hpeek : (p.pass w).peek = rest.headD p.finish := by
    rw [peek, ahead_pass ha, finish_pass]
  rw [← (reaches_pass ha).tokens_indexed, ← position_pass, Indexed.getElem?_position, hpeek]

/-- **Recovery goes on behind the place of the fault**, unless it comes to the end. -/
theorem FailsBehind.place_lt (h : p.FailsBehind w rest s) (hf : p.fault = none)
    (hmore : p.afterStatement.ahead ≠ []) : p.round.place < p.afterStatement.position := by
  obtain ⟨q, hq⟩ : ∃ q, p.pass (w ++ s.overshoot rest) = q := ⟨_, rfl⟩
  have hafter : p.afterStatement = q.synchronize := by
    subst hq
    exact afterStatement_of_error hf h
  have hplace : p.round.place ≤ q.position := by
    rw [h.place_eq, ← hq, position_pass, List.length_append]
    omega
  have hlt : q.synchronize.ahead.length < q.ahead.length := by
    have hle := length_synchronize_le q
    have hpos := List.length_pos_iff.mpr (hafter ▸ hmore)
    omega
  have := (reaches_synchronize q).position_lt hlt
  rw [hafter]
  omega

/-- **The fault of a round that starts without one is about a token of the round**, and the next
round starts behind that token. -/
theorem round_error (hf : p.fault = none) {f : Fault} (h : p.round.outcome = .error f) :
    ∃ e, f = .parse e ∧ p.position ≤ p.round.place
      ∧ (∀ behind, (p.indexed behind).tokens[p.round.place]? = some e.token)
      ∧ (p.afterStatement.ahead ≠ [] → p.round.place < p.afterStatement.position) := by
  cases states p hf with
  | tree _ _ _ hv =>
    rw [round_outcome_of_ok (congrArg Prod.fst hv)] at h
    cases h
  | @fault w rest s ha _ _ _ hv =>
    have hfails : p.FailsBehind w rest s := hv
    rw [hfails.outcome_eq] at h
    cases h
    refine ⟨_, rfl, ?_, fun behind => ?_, hfails.place_lt hf⟩
    · rw [hfails.place_eq]
      omega
    · rw [hfails.place_eq]
      exact getElem?_place ha behind

/-- The faults of a log with their places, in order. -/
theorem places_log_of_ahead_cons (h : p.ahead ≠ []) :
    (∃ f, p.round.outcome = .error f ∧ places p.log = p.round.place :: places p.afterStatement.log
      ∧ Indexed.faults p.log = f :: Indexed.faults p.afterStatement.log)
    ∨ (places p.log = places p.afterStatement.log
      ∧ Indexed.faults p.log = Indexed.faults p.afterStatement.log) := by
  rw [log_of_ahead_cons h]
  cases ho : p.round.outcome with
  | ok d => exact .inr ⟨Indexed.places_cons_of_ok ho, Indexed.faults_cons_of_ok ho⟩
  | error f =>
    exact .inl ⟨f, rfl, Indexed.places_cons_of_error ho, Indexed.faults_cons_of_error ho⟩

theorem position_le_of_mem_places (hp : p.Proper) (hf : p.fault = none) {i : Nat}
    (hi : i ∈ places p.log) : p.position ≤ i := by
  induction p using log.induct with
  | case1 p h =>
    rw [log_of_ahead_nil h] at hi
    cases hi
  | case2 p h ih =>
    have hlt := position_lt_afterStatement hp h
    have ih := ih ((Indexed.reaches_afterStatement hp).proper hp) (fault_afterStatement hf)
    obtain ⟨f, ho, hplaces, -⟩ | ⟨hplaces, -⟩ := places_log_of_ahead_cons h
    · rw [hplaces] at hi
      rcases List.mem_cons.mp hi with rfl | hi
      · obtain ⟨e, -, hle, -⟩ := round_error hf ho
        exact hle
      · have := ih hi
        omega
    · rw [hplaces] at hi
      have := ih hi
      omega

/-- **The places of the faults are further and further on.** -/
theorem pairwise_places_log (hp : p.Proper) (hf : p.fault = none) :
    (places p.log).Pairwise (· < ·) := by
  induction p using log.induct with
  | case1 p h =>
    rw [log_of_ahead_nil h]
    exact .nil
  | case2 p h ih =>
    have hproper := (Indexed.reaches_afterStatement hp).proper hp
    have hfault := fault_afterStatement hf
    obtain ⟨f, ho, hplaces, -⟩ | ⟨hplaces, -⟩ := places_log_of_ahead_cons h
    · rw [hplaces]
      refine .cons (fun i hi => ?_) (ih hproper hfault)
      have hmore : p.afterStatement.ahead ≠ [] := by
        -- at the end there is no later fault
        intro hnil
        rw [log_of_ahead_nil hnil] at hi
        cases hi
      obtain ⟨e, -, -, -, hlt⟩ := round_error hf ho
      exact Nat.lt_of_lt_of_le (hlt hmore) (position_le_of_mem_places hproper hfault hi)
    · rw [hplaces]
      exact ih hproper hfault

/-- **Each fault is an error about the token at its place.** -/
theorem forall₂_faults_places (hp : p.Proper) (hf : p.fault = none) (behind : List Token) :
    List.Forall₂ (fun f i => ∃ e, f = .parse e ∧ (p.indexed behind).tokens[i]? = some e.token)
      (Indexed.faults p.log) (places p.log) := by
  induction p using log.induct with
  | case1 p h =>
    rw [log_of_ahead_nil h]
    exact .nil
  | case2 p h ih =>
    have hreach := Indexed.reaches_afterStatement hp
    have ih := ih (hreach.proper hp) (fault_afterStatement hf)
    rw [hreach.tokens_indexed] at ih
    obtain ⟨f, ho, hplaces, hfaults⟩ | ⟨hplaces, hfaults⟩ := places_log_of_ahead_cons h
    · rw [hplaces, hfaults]
      obtain ⟨e, he, -, hget, -⟩ := round_error hf ho
      exact .cons ⟨e, he, hget behind⟩ ih
    · rw [hplaces, hfaults]
      exact ih

theorem fault_statements (hf : p.fault = none) : p.statements.2.fault = none := by
  induction p using log.induct with
  | case1 p h =>
    rw [statements_of_ahead_nil h]
    exact hf
  | case2 p h ih =>
    rw [statements_snd_of_ahead_cons h]
    exact ih (fault_afterStatement hf)

end Parser

/-! ### The loop in place -/

namespace Indexed

/-- **The loop moves on in every round**: run from `m` with the rounds `log`, it ends in `m'`. -/
structure Advances (m : Indexed) (log : List Round) (m' : Indexed) : Prop where
  tokens_eq : m'.tokens = m.tokens
  current_eq : m'.current = m.firstEnd
  /-- The first round starts at the index; without a round the index is at the end token. -/
  head?_starts : (log.map Round.start ++ [m'.current]).head? = some m.current
  /-- Each round starts further on than the one before it, and the last one before the end token. -/
  pairwise_starts : (log.map Round.start ++ [m'.current]).Pairwise (· < ·)
  length_le : log.length ≤ m.firstEnd - m.current

/-- **The faults of a log are errors about different tokens**, in the order of the tokens. -/
structure OrderedFaults (m : Indexed) (log : List Round) : Prop where
  pairwise_places : (places log).Pairwise (· < ·)
  about_tokens : List.Forall₂ (fun f i => ∃ e, f = .parse e ∧ m.tokens[i]? = some e.token)
    (faults log) (places log)

variable {p : Parser} (behind : List Token)

theorem advances_log (hp : p.Proper) :
    Advances (p.indexed behind) p.log (p.statements.2.indexed behind) where
  tokens_eq := (reaches_statements hp).tokens_indexed behind
  current_eq := (Parser.position_statements hp).trans (hp.firstEnd_indexed behind).symm
  head?_starts := by
    show (p.log.map Round.start ++ [p.statements.2.position]).head? = some p.position
    by_cases h : p.ahead = []
    · rw [Parser.log_of_ahead_nil h, Parser.statements_of_ahead_nil h]
      rfl
    · rw [Parser.log_of_ahead_cons h]
      rfl
  pairwise_starts := Parser.pairwise_start_log hp
  length_le := by
    have hlog := p.length_log_le
    have hcurrent : (p.indexed behind).current = p.position := rfl
    rw [hp.firstEnd_indexed, hcurrent]
    omega

theorem orderedFaults_log (hp : p.Proper) (hf : p.fault = none) :
    OrderedFaults (p.indexed behind) p.log where
  pairwise_places := Parser.pairwise_places_log hp hf
  about_tokens := Parser.forall₂_faults_places hp hf behind

end Indexed

/-! ### Every state that operations lead to -/

open Indexed (Gives)

/-- **The loop over statements makes progress.** After any operations on a new parser, with any
operands and in any order, and whatever the fault is then: the loop comes to an end at the first end
token, each of its rounds starts further on than the one before it, and so there are no more rounds,
no more trees and no more faults than tokens from the index to the end token. If there is no fault
at first there is none at last, and the faults are errors about tokens further and further on. -/
theorem rounds_make_progress (tokens : List Token) (ops : List (Operation Draft))
    (fault : Option Fault) :
    ∃ (answers : List Answer) (m : Indexed) (p : Parser) (behind : List Token),
      Gives (Operation.runAll ops) (Indexed.ofTokens tokens) (answers, m)
      ∧ { m with fault := fault } = p.indexed behind
      ∧ Gives Indexed.rounds { m with fault := fault } (p.log, p.parseAll.2.indexed behind)
      ∧ Gives Indexed.parseAll { m with fault := fault }
        (Draft.handedAll p.parseAll.1, p.parseAll.2.indexed behind)
      ∧ Indexed.Advances { m with fault := fault } p.log (p.parseAll.2.indexed behind)
      ∧ (∀ es, p.parseAll.1 = .ok es → es.length ≤ m.firstEnd - m.current)
      ∧ (∀ f, p.parseAll.1 = .error f →
        f = .joined (Indexed.faults p.log)
        ∧ (Indexed.faults p.log).length ≤ m.firstEnd - m.current)
      ∧ (fault = none → p.parseAll.2.fault = none
        ∧ Indexed.OrderedFaults { m with fault := fault } p.log) := by
  obtain ⟨answers, m, p, behind, hrun, hm, hp⟩ :=
    Operation.exists_gives_runAll_withFault tokens ops fault
  have hfault : fault = p.fault := congrArg Indexed.fault hm
  have hadvances : Indexed.Advances { m with fault := fault } p.log
      (p.parseAll.2.indexed behind) := hm ▸ Indexed.advances_log behind hp
  have hlength : p.log.length ≤ m.firstEnd - m.current := hadvances.length_le
  have hlog := p.length_log
  refine ⟨answers, m, p, behind, hrun, hm, hm ▸ Indexed.gives_rounds behind hp,
    hm ▸ Indexed.gives_parseAll behind hp, hadvances, fun es h => ?_, fun f h => ?_,
    fun hnone => ⟨?_, ?_⟩⟩
  · rw [Parser.eq_trees_of_parseAll_ok h]
    have htrees : (Parser.trees p.statements.1).length ≤ p.statements.1.length :=
      List.length_filterMap_le _ _
    omega
  · rw [Parser.faults_log]
    have hfaults : (Parser.faults p.statements.1).length ≤ p.statements.1.length :=
      List.length_filterMap_le _ _
    exact ⟨Parser.eq_joined_of_parseAll_error h, by omega⟩
  · exact Parser.fault_statements (hfault.symm.trans hnone)
  · rw [hm]
    exact Indexed.orderedFaults_log behind hp (hfault.symm.trans hnone)

/-- Two tokens that start no expression, `; )`: a fault at each of them. -/
theorem rounds_make_progress_stray_marks :
    let tokens : List Token := [⟨.semicolon, ";", "", 1⟩, ⟨.rightParen, ")", "", 1⟩]
    ∃ log m, Gives Indexed.rounds (Indexed.ofTokens tokens) (log, m)
      ∧ Indexed.places log = [0, 1] ∧ m.fault = none
      ∧ Indexed.OrderedFaults (Indexed.ofTokens tokens) log := by
  intro tokens
  obtain ⟨answers, m, p, behind, hrun, -, hrounds, -, -, -, -, hnone⟩ :=
    rounds_make_progress tokens [] none
  obtain rfl : Indexed.ofTokens tokens = m :=
    congrArg Prod.snd (Gives.unique ⟨0, fun _ _ => rfl⟩ hrun)
  have hp := Parser.proper_ofTokens tokens
  have hgives := Indexed.gives_rounds (Parser.ofTokens tokens).behind hp
  have hlog := Indexed.rounds_indexed (n := 52) (Parser.ofTokens tokens).behind hp (by decide)
  rw [Parser.ofTokens_indexed] at hgives hlog
  have heq : (Parser.ofTokens tokens).log = p.log := congrArg Prod.fst (hgives.unique hrounds)
  have hplaces : (Indexed.rounds 52 (Indexed.ofTokens tokens)).map (Indexed.places ·.1)
      = some [0, 1] := rfl
  rw [hlog, heq] at hplaces
  exact ⟨p.log, _, hrounds, Option.some.inj hplaces, hnone rfl⟩

end Lox
