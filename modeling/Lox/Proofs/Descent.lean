import Lox.Proofs.Moves
import Lox.Proofs.Stance

/-!
# The rules read the grammar

What a rule of the parser returns, for every state without a fault:

- either a tree that the grammar derives from exactly the tokens taken, where the next token could
  not have been taken as well (`Reads.tree`),
- or the fault at the place where the walk through the tokens halts (`Reads.fault`, `Halts`).

Conversely a rule that starts at tokens of its category returns their tree (`finds_of_derives`), so
the grammar gives a token list at most one tree (`Derives.unique`), and a token list is an
expression exactly if the walk through it completes an operand with no parenthesis open
(`sentence_iff_walk`).
-/

namespace Lox.Parser

open Grammar

/-! ### Where a category ends -/

/-- The looser a category, the higher its rank. -/
def rank : Category → Nat
  | .level l => l.rank
  | .unary => 0
  | .primary => 0

theorem rank_level_eq (l : Level) : rank (.level l) = rank (operands l) + 1 := by
  cases l <;> rfl

theorem level_eq_of_rank_eq {l l' : Level} (h : l.rank = l'.rank) : l = l' := by
  cases l <;> cases l' <;> simp_all [Level.rank]

/-- The next of the tokens `rest` does not go on with something of category `c`: it is no operator
of the category's level or of a tighter one. -/
def Closed (c : Category) (rest : List Token) : Prop :=
  ∀ t ∈ rest.head?, ∀ l : Level, l.rank ≤ rank c → operator? l t.kind = none

theorem closed_nil (c : Category) : Closed c [] := fun _ h => nomatch h

theorem closed_cons {c : Category} {t : Token} (h : ∀ l, operator? l t.kind = none)
    (rest : List Token) : Closed c (t :: rest) := by
  intro t' ht' l _
  cases ht'
  exact h l

theorem closed_level {l : Level} {rest : List Token} (h : Closed (operands l) rest)
    (hl : ∀ t ∈ rest.head?, operator? l t.kind = none) : Closed (.level l) rest := by
  intro t ht l' hle
  rw [rank_level_eq] at hle
  rcases Nat.le_succ_iff.mp hle with hle | heq
  · exact h t ht l' hle
  · rw [level_eq_of_rank_eq (heq.trans (rank_level_eq l).symm)]
    exact hl t ht

theorem Closed.operands {l : Level} {rest : List Token} (h : Closed (.level l) rest) :
    Closed (operands l) rest :=
  fun t ht l' hle => h t ht l' (by rw [rank_level_eq]; omega)

theorem Closed.operator? {l : Level} {rest : List Token} (h : Closed (.level l) rest) :
    ∀ t ∈ rest.head?, Grammar.operator? l t.kind = none :=
  fun t ht => h t ht l (Nat.le_refl _)

/-- An operator of a level ends its left operand. -/
theorem closed_operands_of_operator? {l : Level} {t : Token} {op : BinaryOp}
    (h : Grammar.operator? l t.kind = some op) (rest : List Token) :
    Closed (operands l) (t :: rest) := by
  intro t' ht' l' hle
  cases ht'
  refine Option.eq_none_iff_forall_not_mem.mpr fun op' hop' => ?_
  -- it is an operator of no other level, and its own is looser than its operands
  obtain rfl := level_unique h hop'
  have hrank : l.rank = rank (operands l) + 1 := rank_level_eq l
  omega

/-- Behind an operand any operator is looser. -/
theorem closed_of_rank_eq_zero {c : Category} (h : rank c = 0) (rest : List Token) :
    Closed c rest := by
  intro t _ l hle
  cases l <;> simp [h, Level.rank] at hle

/-- Behind a whole expression no operator can stand. -/
theorem Closed.forall_level {rest : List Token} (h : Closed (.level .equality) rest) :
    ∀ t ∈ rest.head?, ∀ l, Grammar.operator? l t.kind = none := by
  intro t ht l
  refine h t ht l ?_
  cases l <;> simp [rank, Level.rank]

/-! ### What a rule can return -/

/-- **The rule returns the fault at the place where the walk from `start` halts**, which is inside
more than `d` parentheses unless an operand is due there. -/
def Halts (start : Stance) (d : Nat) (p : Parser) (v : Except Fault Expr × Parser) : Prop :=
  ∃ w s rest, p.ahead = w ++ rest ∧ start.walk w = some s ∧ s.Blocked rest ∧ s.Within d ∧
    v = (.error (.parse (s.error rest p.finish)),
      (p.pass (w ++ s.overshoot rest)).failed (.parse (s.error rest p.finish)))

theorem Halts.view_eq {start : Stance} {d : Nat} {p : Parser} {v : Except Fault Expr × Parser}
    (h : Halts start d p v) : ∃ f q, v = (.error f, q) := by
  obtain ⟨w, s, rest, -, -, -, -, hv⟩ := h
  exact ⟨_, _, hv⟩

/-- A fault behind tokens that are passed first. -/
theorem Halts.after {start s₁ : Stance} {d d' : Nat} {p : Parser} {u rest : List Token}
    {v : Except Fault Expr × Parser} (h : Halts s₁ d' (p.pass u) v) (ha : p.ahead = u ++ rest)
    (hu : start.walk u = some s₁) (hd : d ≤ d') : Halts start d p v := by
  obtain ⟨w, s, rest', ha', hw, hb, hin, hv⟩ := h
  rw [ahead_pass ha] at ha'
  refine ⟨u ++ w, s, rest', ?_, ?_, hb, hin.mono hd, ?_⟩
  · rw [ha, ha', List.append_assoc]
  · rw [Stance.walk_append_of_eq hu, hw]
  · rw [hv, pass_pass, List.append_assoc]
    rfl

/-- **What a rule for category `c` returns** inside `d` parentheses. -/
inductive Reads (c : Category) (d : Nat) (p : Parser) (v : Except Fault Expr × Parser) : Prop
  | tree {w rest : List Token} {e : Expr} (ahead : p.ahead = w ++ rest) (derives : Derives c w e)
      (closed : Closed c rest) (view : v = (.ok e, p.pass w))
  | fault (halts : Halts (.operand d) d p v)

/-- **What the rest of a level returns** behind the tree `left`. -/
inductive Continues (l : Level) (left : Expr) (d : Nat) (p : Parser)
    (v : Except Fault Expr × Parser) : Prop
  | tree {w rest : List Token} {e : Expr} (ahead : p.ahead = w ++ rest)
      (derives : ∀ u, Derives (.level l) u left → Derives (.level l) (u ++ w) e)
      (closed : Closed (.level l) rest) (view : v = (.ok e, p.pass w))
  | fault (halts : Halts (.operator d) d p v)

/-! ### One lemma for each rule -/

/-- The next token has a property, if there is one, or it is there and lacks it. -/
theorem next_cases (P : Token → Prop) (ahead : List Token) :
    (∀ t ∈ ahead.head?, P t) ∨ ∃ t rest, ahead = t :: rest ∧ ¬ P t := by
  cases ahead with
  | nil => exact .inl fun t ht => nomatch ht
  | cons t rest =>
    by_cases h : P t
    · refine .inl fun t' ht' => ?_
      cases ht'
      exact h
    · exact .inr ⟨t, rest, rfl, h⟩

/-- A level, from its first operand and its rest. -/
theorem reads_binary_of {l : Level} {d : Nat} {p : Parser}
    (hoperand : Reads (operands l) d p (operand l p).view)
    (hmore : ∀ (w : List Token) (left : Expr) (rest : List Token), p.ahead = w ++ rest →
      Closed (operands l) rest → Continues l left d (p.pass w) (more l left (p.pass w)).view) :
    Reads (.level l) d p (binary l p).view := by
  cases hoperand with
  | fault h =>
    obtain ⟨f, q, hv⟩ := h.view_eq
    rw [view_binary_error hv, ← hv]
    exact .fault h
  | @tree w rest left ha hder hclosed hv =>
    rw [view_binary_more hv]
    cases hmore w left rest ha hclosed with
    | fault h => exact .fault (h.after ha (hder.walk d) (Nat.le_refl d))
    | @tree w' rest' e ha' hder' hclosed' hv' =>
      rw [ahead_pass ha] at ha'
      refine .tree ?_ (hder' w (.operand hder)) hclosed' ?_
      · rw [ha, ha', List.append_assoc]
      · rw [hv', pass_pass]

/-- The rest of a level, from the operand behind its next operator and the rest after that. -/
theorem continues_more_of {l : Level} {left : Expr} {d : Nat} {p : Parser} (hp : p.fault = none)
    (hclosed : Closed (operands l) p.ahead)
    (hoperand : ∀ (t : Token) (rest : List Token), p.ahead = t :: rest →
      Reads (operands l) d (p.pass [t]) (operand l (p.pass [t])).view)
    (hmore : ∀ (t : Token) (w : List Token) (e : Expr) (rest : List Token),
      p.ahead = t :: (w ++ rest) → Closed (operands l) rest →
      Continues l e d (p.pass (t :: w)) (more l e (p.pass (t :: w))).view) :
    Continues l left d p (more l left p).view := by
  obtain hno | ⟨t, rest, ha, hop⟩ := next_cases (fun t => operator? l t.kind = none) p.ahead
  · -- without an operator of the level the tree is the one read so far
    exact .tree (List.nil_append _).symm (fun u hu => by rwa [List.append_nil])
      (closed_level hclosed hno) (view_more_stop hno left)
  obtain ⟨op, hop⟩ := Option.ne_none_iff_exists'.mp hop
  have hstep : (Stance.operator d).walk [t] = some (.operand d) := by
    rw [Stance.walk_cons, Stance.step_operator_of_operator hop]
    rfl
  cases hoperand t rest ha with
  | fault h =>
    obtain ⟨f, q, hv⟩ := h.view_eq
    rw [view_more_error hp ha hop left hv, ← hv]
    exact .fault (h.after ha hstep (Nat.le_refl d))
  | @tree w rest' right ha' hder hclosed' hv =>
    rw [ahead_pass (w := [t]) ha] at ha'
    subst ha'
    rw [view_more_step hp ha hop left hv hp, pass_pass]
    have hwalk : (Stance.operator d).walk (t :: w) = some (.operator d) :=
      (Stance.walk_append_of_eq hstep w).trans (hder.walk d)
    cases hmore t w (.binary left op t right) rest' ha hclosed' with
    | fault h => exact .fault (h.after ha hwalk (Nat.le_refl d))
    | @tree w' rest'' e ha'' hder' hclosed'' hv' =>
      rw [ahead_pass (w := t :: w) ha] at ha''
      rw [pass_pass] at hv'
      refine .tree ?_ (fun u hu => ?_) hclosed'' hv'
      · rw [ha, ha'', ← List.cons_append, List.append_assoc]
      · -- the operator takes the tree read so far as its left operand
        rw [← List.append_assoc]
        exact hder' _ (.binary hu hop hder)

/-- Operators in front, from the operand behind them. -/
theorem reads_unary_of {d : Nat} {p : Parser} (hp : p.fault = none)
    (hunary : ∀ (t : Token) (rest : List Token), p.ahead = t :: rest →
      Reads .unary d (p.pass [t]) (unary (p.pass [t])).view)
    (hprimary : (∀ t ∈ p.ahead.head?, frontOperator? t.kind = none) →
      Reads .primary d p (primary p).view) :
    Reads .unary d p (unary p).view := by
  obtain hno | ⟨t, rest, ha, hop⟩ := next_cases (fun t => frontOperator? t.kind = none) p.ahead
  · rw [view_unary_primary hno]
    cases hprimary hno with
    | fault h => exact .fault h
    | tree ha hder _ hv => exact .tree ha (.primary hder) (closed_of_rank_eq_zero rfl _) hv
  obtain ⟨op, hop⟩ := Option.ne_none_iff_exists'.mp hop
  have hstep : (Stance.operand d).walk [t] = some (.operand d) := by
    rw [Stance.walk_cons, Stance.step_operand_of_front hop]
    rfl
  cases hunary t rest ha with
  | fault h =>
    obtain ⟨f, q, hv⟩ := h.view_eq
    rw [view_unary_error hp ha hop hv, ← hv]
    exact .fault (h.after ha hstep (Nat.le_refl d))
  | @tree w rest' right ha' hder _ hv =>
    rw [ahead_pass (w := [t]) ha] at ha'
    rw [pass_pass] at hv
    refine .tree ?_ (.unary hop hder) (closed_of_rank_eq_zero rfl rest')
      (view_unary_step hp ha hop hv hp)
    rw [ha, ha', List.cons_append]

theorem kind_eq_number {t : Token} (hk : isLiteral t.kind = true)
    (hv : literalValue? t = none) : t.kind = .number := by
  unfold isLiteral at hk
  split at hk <;> simp_all [literalValue?]

/-- Literals, from what stands in parentheses. -/
theorem reads_primary_of {d : Nat} {p : Parser} (hp : p.fault = none)
    (hgrouping : (∀ t ∈ p.ahead.head?, isLiteral t.kind = false) →
      Reads .primary d p (grouping p).view) :
    Reads .primary d p (primary p).view := by
  obtain hno | ⟨t, rest, ha, hk⟩ := next_cases (fun t => isLiteral t.kind = false) p.ahead
  · rw [view_primary_grouping hno]
    exact hgrouping hno
  rw [Bool.not_eq_false] at hk
  cases hv : literalValue? t with
  | some v =>
    exact .tree ha (.literal (spells_iff.mpr hv)) (closed_of_rank_eq_zero rfl rest)
      (view_primary_literal hp ha (spells_iff.mpr hv))
  | none =>
    -- a number that cannot be read: taken, and named by the fault
    have hnumber : t.kind = .number := kind_eq_number hk hv
    have hstep : (Stance.operand d).step t = none := by
      simp [Stance.step, hv, hnumber, frontOperator?]
    have hblocked : (Stance.operand d).Blocked (t :: rest) := Stance.blocked_cons hstep rest
    refine .fault ⟨[], .operand d, t :: rest, ha, rfl, hblocked, trivial, ?_⟩
    rw [view_primary_invalid hp ha hk hv]
    simp [Stance.error, Stance.overshoot, Stance.cause, hnumber]

/-- Where an operand is due and none starts, the walk halts at once. -/
theorem reads_grouping_of_unexpected {d : Nat} {p : Parser} (hp : p.fault = none)
    (hfront : ∀ t ∈ p.ahead.head?, frontOperator? t.kind = none)
    (hliteral : ∀ t ∈ p.ahead.head?, isLiteral t.kind = false)
    (hno : ∀ t ∈ p.ahead.head?, t.kind ≠ .leftParen) :
    Reads .primary d p (grouping p).view := by
  have hvalue : ∀ t ∈ p.ahead.head?, literalValue? t = none := by
    refine fun t ht => Option.eq_none_iff_forall_not_mem.mpr fun v hv => ?_
    have hk := isLiteral_of_literalValue? hv
    rw [hliteral t ht] at hk
    cases hk
  have hcause : (Stance.operand d).cause p.ahead = .unexpectedToken := by
    cases ha : p.ahead with
    | nil => rfl
    | cons t rest =>
      refine if_neg fun hk => ?_
      have hnumber := hliteral t (by rw [ha]; rfl)
      rw [hk] at hnumber
      cases hnumber
  refine .fault ⟨[], .operand d, p.ahead, rfl, rfl, fun t ht => ?_, trivial, ?_⟩
  · simp [Stance.step, hfront t ht, hvalue t ht, hno t ht]
  · rw [view_grouping_unexpected hp hno]
    simp [Stance.error, Stance.overshoot, hcause, peek]

/-- Behind the expression inside, a parenthesis is closed or the walk halts. -/
theorem reads_grouping_of_inner {d : Nat} {p : Parser} {t : Token} {w rest : List Token}
    {inner : Expr} (hp : p.fault = none) (ha : p.ahead = [t] ++ w ++ rest)
    (hk : t.kind = .leftParen) (hder : Derives (.level .equality) w inner)
    (hclosed : Closed (.level .equality) rest)
    (hv : (binary .equality (p.pass [t])).view = (.ok inner, p.pass ([t] ++ w))) :
    Reads .primary d p (grouping p).view := by
  have hnext : (p.pass ([t] ++ w)).ahead = rest := ahead_pass ha
  obtain hno | ⟨t', rest', hrest, hk'⟩ := next_cases (fun t => t.kind ≠ .rightParen) rest
  · have hpeek : (p.pass ([t] ++ w)).peek = rest.headD p.finish := by
      rw [peek, hnext, finish_pass]
    refine .fault ⟨[t] ++ w, .operator (d + 1), rest, ha, ?_, fun t' ht' => ?_,
      Nat.lt_succ_self d, ?_⟩
    · rw [List.singleton_append, Stance.walk_cons, Stance.step_operand_of_leftParen hk]
      exact hder.walk (d + 1)
    · exact Stance.step_operator_eq_none (hclosed.forall_level t' ht') fun _ => hno t' ht'
    · rw [view_grouping_unclosed hp ha hk hv hp (by rwa [hnext]), hpeek]
      simp [Stance.error, Stance.overshoot, Stance.cause]
  · have hk' := Decidable.of_not_not hk'
    rw [hrest] at ha hnext
    refine .tree ?_ (.grouping hk hder hk') (closed_of_rank_eq_zero rfl rest')
      ((view_grouping_close hp ha hk hv hp hnext hk').trans ?_)
    · rw [ha]
      simp
    · rw [pass_pass]
      simp

/-- Parentheses, from the expression inside them. -/
theorem reads_grouping_of {d : Nat} {p : Parser} (hp : p.fault = none)
    (hfront : ∀ t ∈ p.ahead.head?, frontOperator? t.kind = none)
    (hliteral : ∀ t ∈ p.ahead.head?, isLiteral t.kind = false)
    (hinner : ∀ (t : Token) (rest : List Token), p.ahead = t :: rest →
      Reads (.level .equality) (d + 1) (p.pass [t]) (binary .equality (p.pass [t])).view) :
    Reads .primary d p (grouping p).view := by
  obtain hno | ⟨t, rest, ha, hk⟩ := next_cases (fun t => t.kind ≠ .leftParen) p.ahead
  · exact reads_grouping_of_unexpected hp hfront hliteral hno
  have hk := Decidable.of_not_not hk
  cases hinner t rest ha with
  | fault h =>
    obtain ⟨f, q, hv⟩ := h.view_eq
    rw [view_grouping_error hp ha hk hv, ← hv]
    refine .fault (h.after ha ?_ (Nat.le_succ d))
    rw [Stance.walk_cons, Stance.step_operand_of_leftParen hk]
    rfl
  | @tree w rest' inner ha' hder hclosed hv =>
    rw [ahead_pass (w := [t]) ha] at ha'
    rw [pass_pass] at hv
    refine reads_grouping_of_inner hp ?_ hk hder hclosed hv
    rw [ha, ha', List.singleton_append, List.cons_append]

/-! ### All rules together -/

mutual

-- The recursion is that of the rules: over the tokens ahead, then over how loose the rule is.

/-- **A level of binary operators reads its category.** -/
theorem reads_binary (l : Level) (d : Nat) (p : Parser) (hp : p.fault = none) :
    Reads (.level l) d p (binary l p).view :=
  reads_binary_of (reads_operand l d p hp) fun w left rest ha hclosed =>
    continues_more l left d (p.pass w) hp (by rwa [ahead_pass ha])
termination_by 20 * p.ahead.length + 2 * l.rank + 2
decreasing_by
  · omega
  · rw [length_ahead_pass]
    omega

theorem reads_operand (l : Level) (d : Nat) (p : Parser) (hp : p.fault = none) :
    Reads (operands l) d p (operand l p).view := by
  match l with
  | .equality => rw [operand]; exact reads_binary .comparison d p hp
  | .comparison => rw [operand]; exact reads_binary .term d p hp
  | .term => rw [operand]; exact reads_binary .factor d p hp
  | .factor => rw [operand]; exact reads_unary d p hp
termination_by 20 * p.ahead.length + 2 * l.rank + 1
decreasing_by all_goals simp [Level.rank]

theorem continues_more (l : Level) (left : Expr) (d : Nat) (p : Parser) (hp : p.fault = none)
    (hclosed : Closed (operands l) p.ahead) : Continues l left d p (more l left p).view :=
  continues_more_of hp hclosed
    (fun t rest ha => reads_operand l d (p.pass [t]) hp)
    fun t w e rest ha hclosed' =>
      continues_more l e d (p.pass (t :: w)) hp (by rwa [ahead_pass (w := t :: w) ha])
termination_by 20 * p.ahead.length
decreasing_by
  · cases l <;> simp only [Level.rank, length_ahead_pass, ha, List.length_cons, List.length_nil]
      <;> omega
  · simp only [length_ahead_pass, ha, List.length_cons, List.length_append]
    omega

theorem reads_unary (d : Nat) (p : Parser) (hp : p.fault = none) :
    Reads .unary d p (unary p).view :=
  reads_unary_of hp (fun t rest _ha => reads_unary d (p.pass [t]) hp)
    fun hfront => reads_primary d p hp hfront
termination_by 20 * p.ahead.length + 2
decreasing_by
  · simp only [length_ahead_pass, _ha, List.length_cons, List.length_nil]
    omega
  · omega

theorem reads_primary (d : Nat) (p : Parser) (hp : p.fault = none)
    (hfront : ∀ t ∈ p.ahead.head?, frontOperator? t.kind = none) :
    Reads .primary d p (primary p).view :=
  reads_primary_of hp fun hliteral => reads_grouping d p hp hfront hliteral
termination_by 20 * p.ahead.length + 1
decreasing_by omega

theorem reads_grouping (d : Nat) (p : Parser) (hp : p.fault = none)
    (hfront : ∀ t ∈ p.ahead.head?, frontOperator? t.kind = none)
    (hliteral : ∀ t ∈ p.ahead.head?, isLiteral t.kind = false) :
    Reads .primary d p (grouping p).view :=
  reads_grouping_of hp hfront hliteral fun t rest _ha =>
    reads_binary .equality (d + 1) (p.pass [t]) hp
termination_by 20 * p.ahead.length
decreasing_by
  simp only [Level.rank, length_ahead_pass, _ha, List.length_cons, List.length_nil]
  omega

end

/-! ### Every derivation is found -/

/-- **A parser at the tokens `w` finds the tree `e`.** A level is left behind its last operand,
where it still looks for operators: that is what a longer derivation of the level starts from. -/
def Finds (c : Category) (w : List Token) (e : Expr) : Prop :=
  ∀ (p : Parser) (rest : List Token), p.fault = none → p.ahead = w ++ rest →
    match c with
    | .level l => Closed (operands l) rest → (binary l p).view = (more l e (p.pass w)).view
    | .unary | .primary => (unary p).view = (.ok e, p.pass w)

theorem Finds.view_binary {l : Level} {w rest : List Token} {e : Expr} {p : Parser}
    (h : Finds (.level l) w e) (hp : p.fault = none) (ha : p.ahead = w ++ rest)
    (hclosed : Closed (.level l) rest) : (binary l p).view = (.ok e, p.pass w) := by
  rw [h p rest hp ha hclosed.operands]
  exact view_more_stop (by rw [ahead_pass ha]; exact hclosed.operator?) e

theorem Finds.view_operand {l : Level} {w rest : List Token} {e : Expr} {p : Parser}
    (h : Finds (operands l) w e) (hp : p.fault = none) (ha : p.ahead = w ++ rest)
    (hclosed : Closed (operands l) rest) : (operand l p).view = (.ok e, p.pass w) := by
  cases l with
  | equality => rw [operand]; exact Finds.view_binary h hp ha hclosed
  | comparison => rw [operand]; exact Finds.view_binary h hp ha hclosed
  | term => rw [operand]; exact Finds.view_binary h hp ha hclosed
  | factor => rw [operand]; exact h p rest hp ha

/-- One more operator of a level. -/
theorem Finds.binary {l : Level} {u v : List Token} {left right : Expr} {t : Token} {op : BinaryOp}
    (hleft : Finds (.level l) u left) (hop : operator? l t.kind = some op)
    (hright : Finds (operands l) v right) :
    Finds (.level l) (u ++ t :: v) (.binary left op t right) := by
  intro p rest hp ha hclosed
  have ha' : p.ahead = u ++ t :: (v ++ rest) := by rw [ha, List.append_assoc, List.cons_append]
  have hnext : (p.pass u).ahead = t :: (v ++ rest) := ahead_pass ha'
  have hoperand : (operand l ((p.pass u).pass [t])).view
      = (.ok right, ((p.pass u).pass [t]).pass v) :=
    hright.view_operand hp (ahead_pass (w := [t]) hnext) hclosed
  -- up to the operator it is the derivation on the left, then one more turn of the level
  rw [hleft p (t :: (v ++ rest)) hp ha' (closed_operands_of_operator? hop _),
    view_more_step (p := p.pass u) hp hnext hop left hoperand hp, pass_pass, pass_pass]
  simp

theorem Finds.grouping {w : List Token} {inner : Expr} {opening closing : Token}
    (ho : opening.kind = .leftParen) (hinner : Finds (.level .equality) w inner)
    (hc : closing.kind = .rightParen) :
    Finds .primary (opening :: (w ++ [closing])) (.grouping inner) := by
  intro p rest hp ha
  have ha' : p.ahead = opening :: (w ++ closing :: rest) := by rw [ha]; simp
  have hhead : ∀ t ∈ p.ahead.head?, t = opening := by
    intro t ht
    rw [ha'] at ht
    cases ht
    rfl
  have hclosed : Closed (.level .equality) (closing :: rest) :=
    closed_cons (fun l => by rw [hc]; cases l <;> rfl) rest
  have hv := hinner.view_binary (p := p.pass [opening]) hp (ahead_pass (w := [opening]) ha') hclosed
  have hnext : ((p.pass [opening]).pass w).ahead = closing :: rest :=
    ahead_pass (ahead_pass (w := [opening]) ha')
  rw [view_unary_primary fun t ht => by rw [hhead t ht, ho]; rfl,
    view_primary_grouping fun t ht => by rw [hhead t ht, ho]; rfl,
    view_grouping_close hp ha' ho hv hp hnext hc, pass_pass, pass_pass]
  rfl

/-- **The parser finds every tree of the grammar.** -/
theorem finds_of_derives {c : Category} {w : List Token} {e : Expr} (h : Derives c w e) :
    Finds c w e := by
  induction h with
  | operand _ ih =>
    intro p rest hp ha hclosed
    exact view_binary_more (ih.view_operand hp ha hclosed)
  | binary _ hop _ ihl ihr => exact ihl.binary hop ihr
  | primary _ ih => exact ih
  | unary hop _ ih =>
    intro p rest hp ha
    have hv := ih (p.pass [_]) rest hp (ahead_pass (w := [_]) ha)
    rw [pass_pass] at hv
    exact view_unary_step hp ha hop hv hp
  | @literal t v hv =>
    intro p rest hp ha
    have hfront : ∀ t' ∈ p.ahead.head?, frontOperator? t'.kind = none := by
      intro t' ht'
      rw [ha] at ht'
      cases ht'
      cases hv <;> simp [frontOperator?, *]
    exact (view_unary_primary hfront).trans (view_primary_literal hp ha hv)
  | grouping ho _ hc ih => exact ih.grouping ho hc

end Lox.Parser

namespace Lox.Grammar

open Lox.Parser

/-- A parser before given tokens. -/
def before (w : List Token) : Parser :=
  { passed := [], ahead := w, finish := .eof 1, behind := [], fault := none }

/-- **The grammar gives a token list at most one tree.** -/
theorem Derives.unique {l : Level} {w : List Token} {e e' : Expr} (h : Derives (.level l) w e)
    (h' : Derives (.level l) w e') : e = e' := by
  have hv : ∀ {e}, Derives (.level l) w e →
      (Parser.binary l (before w)).view = (.ok e, (before w).pass w) :=
    fun h => (finds_of_derives h).view_binary (p := before w) rfl (List.append_nil w).symm
      (closed_nil _)
  have heq := (hv h).symm.trans (hv h')
  cases heq
  rfl

/-- Behind a whole expression the walk is blocked. -/
theorem blocked_of_closed {rest : List Token} (h : Closed (.level .equality) rest) :
    (Stance.operator 0).Blocked rest :=
  fun t ht => Stance.step_operator_eq_none (h.forall_level t ht) (absurd · (Nat.lt_irrefl 0))

/-- **A token list is an expression exactly if the walk through it completes an operand** with no
parenthesis open. -/
theorem sentence_iff_walk {w : List Token} :
    Sentence w ↔ (Stance.operand 0).walk w = some (.operator 0) := by
  constructor
  · rintro ⟨e, h⟩
    exact h.walk 0
  · intro hw
    have hend : (Stance.operator 0).Blocked [] := Stance.blocked_nil _
    cases reads_binary .equality 0 (before w) rfl with
    | @tree u rest e ha hder hclosed _ =>
      obtain ⟨rfl, -, -⟩ := Stance.halt_unique ((List.append_nil w).trans ha) hw hend (hder.walk 0)
        (blocked_of_closed hclosed)
      exact ⟨e, hder⟩
    | fault h =>
      -- the walk would have to halt inside a parenthesis
      obtain ⟨u, s, rest, ha, hu, hb, hin, -⟩ := h
      obtain ⟨-, rfl, -⟩ := Stance.halt_unique ((List.append_nil w).trans ha) hw hend hu hb
      exact absurd hin (Nat.lt_irrefl 0)

/-- **Every reachable stance lies on the way to an expression.** -/
theorem sentence_completion {w : List Token} {s : Stance}
    (h : (Stance.operand 0).walk w = some s) :
    Sentence (w ++ s.completion) :=
  sentence_iff_walk.mpr ((Stance.walk_append_of_eq h _).trans s.walk_completion)

/-- Where the walk ends no expression goes on. -/
theorem not_sentence_of_walk_eq_none {w : List Token} (h : (Stance.operand 0).walk w = none)
    (rest : List Token) : ¬ Sentence (w ++ rest) := by
  intro hs
  have hwalk := sentence_iff_walk.mp hs
  rw [Stance.walk_append, h] at hwalk
  cases hwalk

end Lox.Grammar
