import Lox.Proofs.Grammar

/-!
# How far a reader has got

Reading an expression from left to right, all that decides which tokens may come next is whether an
operand is due or has just been completed, and how many parentheses are open. The levels of the
operators matter for the tree but not for this, so a machine with a single counter tells for every
token list how far it can be the beginning of an expression.

- `Stance`: what is due next, inside how many parentheses.
- `Stance.step`, `Stance.walk`: the stance after one token and after several, `none` once no
  expression goes on that way.
- `Derives.walk`: a token list of any category leads from an operand that is due to its completion.
- `Stance.walk_completion`: every stance that can be reached can also be brought to the end.
- `Stance.halt_unique`: there is only one place where a walk through a token list halts.
- `Stance.cause`, `Stance.overshoot`: what is wrong where a walk halts, and which tokens have been
  taken by then although they do not fit.
-/

namespace Lox.Grammar

open Lox.Parser (Level)

/-- **What may come next** inside `depth` open parentheses. -/
inductive Stance where
  /-- An operand has to come. -/
  | operand (depth : Nat)
  /-- An operand is complete; an operator or a closing parenthesis may come. -/
  | operator (depth : Nat)
  deriving DecidableEq, Repr

namespace Stance

/-- **The stance after one more token.** -/
def step : Stance → Token → Option Stance
  | operand d, t =>
    if (frontOperator? t.kind).isSome then some (operand d)
    else if (Parser.literalValue? t).isSome then some (operator d)
    else if t.kind = .leftParen then some (operand (d + 1))
    else none
  | operator d, t =>
    if (BinaryOp.ofKind? t.kind).isSome then some (operand d)
    else if t.kind = .rightParen then
      match d with
      | 0 => none
      | d + 1 => some (operator d)
    else none

/-- **The stance after several tokens.** -/
def walk (s : Stance) : List Token → Option Stance
  | [] => some s
  | t :: rest => (s.step t).bind fun s' => s'.walk rest

@[simp] theorem walk_nil (s : Stance) : s.walk [] = some s := rfl

theorem walk_cons (s : Stance) (t : Token) (rest : List Token) :
    s.walk (t :: rest) = (s.step t).bind fun s' => s'.walk rest := rfl

theorem walk_append (s : Stance) (u v : List Token) :
    s.walk (u ++ v) = (s.walk u).bind fun s' => s'.walk v := by
  induction u generalizing s with
  | nil => rfl
  | cons t u ih =>
    rw [List.cons_append, walk_cons, walk_cons]
    cases s.step t with
    | none => rfl
    | some s' => exact ih s'

theorem walk_append_of_eq {s s' : Stance} {u : List Token} (h : s.walk u = some s')
    (v : List Token) : s.walk (u ++ v) = s'.walk v := by
  rw [walk_append, h]
  rfl

/-! ### One step for each kind of token -/

theorem step_operand_of_front {t : Token} {op : UnaryOp} (h : frontOperator? t.kind = some op)
    (d : Nat) : (operand d).step t = some (operand d) := by
  simp [step, h]

theorem step_operand_of_spells {t : Token} {v : Value} (h : Spells t v) (d : Nat) :
    (operand d).step t = some (operator d) := by
  have hv : Parser.literalValue? t = some v := spells_iff.mp h
  have hfront : frontOperator? t.kind = none := by
    cases h <;> rename_i hk <;> simp [frontOperator?, *]
  simp [step, hfront, hv]

theorem step_operand_of_leftParen {t : Token} (h : t.kind = .leftParen) (d : Nat) :
    (operand d).step t = some (operand (d + 1)) := by
  simp [step, h, frontOperator?, Parser.literalValue?]

theorem step_operator_of_operator {l : Level} {t : Token} {op : BinaryOp}
    (h : operator? l t.kind = some op) (d : Nat) :
    (operator d).step t = some (operand d) := by
  simp [step, ofKind?_of_operator? h]

theorem step_operator_of_rightParen {t : Token} (h : t.kind = .rightParen) (d : Nat) :
    (operator (d + 1)).step t = some (operator d) := by
  simp [step, h, BinaryOp.ofKind?]

/-- Nothing but an operator or a parenthesis goes on behind an operand. -/
theorem step_operator_eq_none {t : Token} (hop : ∀ l, operator? l t.kind = none) {d : Nat}
    (hclose : 0 < d → t.kind ≠ .rightParen) : (operator d).step t = none := by
  have hkind : BinaryOp.ofKind? t.kind = none := by
    refine Option.eq_none_iff_forall_not_mem.mpr fun op h => ?_
    obtain ⟨l, hl⟩ := exists_operator?_of_ofKind? h
    rw [hop l] at hl
    cases hl
  cases d with
  | zero => simp [step, hkind]
  | succ d => simp [step, hkind, hclose (Nat.succ_pos d)]

/-- A token without a mark goes on nowhere. -/
theorem step_eq_none_of_mark? {t : Token} (h : t.mark? = none) (s : Stance) : s.step t = none := by
  cases s with
  | operand d =>
    have hfront : frontOperator? t.kind = none := by
      refine Option.eq_none_iff_forall_not_mem.mpr fun op hop => ?_
      rw [mark?_of_frontOperator? hop] at h
      cases h
    have hvalue : Parser.literalValue? t = none := by
      refine Option.eq_none_iff_forall_not_mem.mpr fun v hv => ?_
      rw [mark?_of_spells (spells_iff.mpr hv)] at h
      cases h
    have hopen : t.kind ≠ .leftParen := fun hk => by simp [Token.mark?, hk] at h
    simp [step, hfront, hvalue, hopen]
  | operator d =>
    refine step_operator_eq_none (fun l => ?_) fun _ hk => by simp [Token.mark?, hk] at h
    refine Option.eq_none_iff_forall_not_mem.mpr fun op hop => ?_
    rw [mark?_of_operator? hop] at h
    cases h

end Stance

/-! ### Derivations and walks -/

/-- **A token list of any category completes an operand** and leaves no parenthesis open. -/
theorem Derives.walk {c : Category} {w : List Token} {e : Expr} (h : Derives c w e) (d : Nat) :
    (Stance.operand d).walk w = some (.operator d) := by
  induction h generalizing d with
  | operand _ ih => exact ih d
  | binary _ hop _ ihl ihr =>
    rw [Stance.walk_append_of_eq (ihl d), Stance.walk_cons, Stance.step_operator_of_operator hop]
    exact ihr d
  | primary _ ih => exact ih d
  | unary hop _ ih =>
    rw [Stance.walk_cons, Stance.step_operand_of_front hop]
    exact ih d
  | literal hv => rw [Stance.walk_cons, Stance.step_operand_of_spells hv]; rfl
  | grouping ho _ hc ih =>
    -- inside, the walk is one parenthesis deeper, and the closing one takes it back
    rw [Stance.walk_cons, Stance.step_operand_of_leftParen ho]
    show Stance.walk _ _ = _
    rw [Stance.walk_append_of_eq (ih (d + 1)), Stance.walk_cons,
      Stance.step_operator_of_rightParen hc]
    rfl

namespace Stance

/-- A closing parenthesis. -/
def closing : Token := { kind := .rightParen, lexeme := ")", literal := "", line := 1 }

/-- The simplest operand. -/
def filler : Token := { kind := .nilWord, lexeme := "nil", literal := "", line := 1 }

/-- **Tokens that bring an expression to its end** from a stance: an operand if one is due, then the
parentheses that are missing. -/
def completion : Stance → List Token
  | operand d => filler :: List.replicate d closing
  | operator d => List.replicate d closing

theorem walk_closings {parens : List Token} (h : ∀ t ∈ parens, t.kind = .rightParen) (d : Nat) :
    (operator (parens.length + d)).walk parens = some (operator d) := by
  induction parens with
  | nil => rw [List.length_nil, Nat.zero_add]; rfl
  | cons t parens ih =>
    rw [List.length_cons, Nat.add_right_comm, walk_cons,
      step_operator_of_rightParen (h t List.mem_cons_self)]
    exact ih fun t' ht' => h t' (List.mem_cons_of_mem t ht')

/-- **Every stance can be brought to the end.** -/
theorem walk_completion (s : Stance) : s.walk s.completion = some (operator 0) := by
  have hclose : ∀ d, (operator d).walk (List.replicate d closing) = some (operator 0) := by
    intro d
    have hkind : ∀ t ∈ List.replicate d closing, t.kind = .rightParen :=
      fun t ht => by rw [List.eq_of_mem_replicate ht]; rfl
    have h := walk_closings hkind 0
    rwa [List.length_replicate, Nat.add_zero] at h
  cases s with
  | operand d =>
    show (operand d).walk (filler :: List.replicate d closing) = _
    rw [walk_cons, step_operand_of_spells (.nothing rfl : Spells filler .nil)]
    exact hclose d
  | operator d => exact hclose d

/-! ### Where a walk halts -/

/-- **The stance goes no further**: there is no token left, or the next one does not fit. -/
def Blocked (s : Stance) (rest : List Token) : Prop :=
  ∀ t ∈ rest.head?, s.step t = none

theorem blocked_nil (s : Stance) : s.Blocked [] := fun _ h => nomatch h

theorem blocked_cons {s : Stance} {t : Token} (h : s.step t = none) (rest : List Token) :
    s.Blocked (t :: rest) := by
  intro t' ht'
  cases ht'
  exact h

/-- **A walk halts in one place only.** -/
theorem halt_unique {s s₁ s₂ : Stance} {w₁ w₂ rest₁ rest₂ : List Token}
    (h : w₁ ++ rest₁ = w₂ ++ rest₂) (h₁ : s.walk w₁ = some s₁) (hb₁ : s₁.Blocked rest₁)
    (h₂ : s.walk w₂ = some s₂) (hb₂ : s₂.Blocked rest₂) :
    w₁ = w₂ ∧ s₁ = s₂ ∧ rest₁ = rest₂ := by
  induction w₁ generalizing s w₂ with
  | nil =>
    cases h₁
    cases w₂ with
    | nil => cases h₂; exact ⟨rfl, rfl, h⟩
    | cons t w₂ =>
      -- the second walk would take the token at which the first is blocked
      subst h
      rw [walk_cons, hb₁ t rfl] at h₂
      cases h₂
  | cons t w₁ ih =>
    cases w₂ with
    | nil =>
      cases h₂
      subst h
      rw [walk_cons, hb₂ t rfl] at h₁
      cases h₁
    | cons t' w₂ =>
      -- both take the same token and are in the same stance behind it
      obtain ⟨rfl, hw⟩ := List.cons.inj h
      rw [walk_cons] at h₁ h₂
      cases hs : s.step t with
      | none => rw [hs] at h₁; cases h₁
      | some s' =>
        rw [hs] at h₁ h₂
        obtain ⟨rfl, hrest⟩ := ih hw h₁ h₂
        exact ⟨rfl, hrest⟩

/-! ### What is wrong there -/

/-- **What is wrong** where a walk through a whole expression halts at `rest`. -/
def cause : Stance → List Token → Cause
  | operand _, t :: _ => if t.kind = .number then .invalidNumber else .unexpectedToken
  | operand _, [] => .unexpectedToken
  | operator 0, _ => .expectedEnd
  | operator (_ + 1), _ => .expectedRightParen

/-- **The tokens taken beyond the place where the walk halts**: a number is taken before its text is
looked at, every other token is only looked at. -/
def overshoot (s : Stance) (rest : List Token) : List Token :=
  if s.cause rest = .invalidNumber then rest.take 1 else []

/-- **The error** where a walk halts at `rest`: it names the next token, or `finish` behind the last
one. -/
def error (s : Stance) (rest : List Token) (finish : Token) : ParseError :=
  ⟨rest.headD finish, s.cause rest⟩

/-- The walk halts where an operand is due, or inside more than `d` parentheses. -/
def Within (d : Nat) : Stance → Prop
  | operand _ => True
  | operator d' => d < d'

theorem Within.mono {s : Stance} {d d' : Nat} (h : s.Within d') (hle : d ≤ d') : s.Within d := by
  cases s with
  | operand => trivial
  | operator => exact Nat.lt_of_le_of_lt hle h

end Stance

end Lox.Grammar
