import Mathlib.Data.List.TakeWhile
import Lox.Parser.Program
import Lox.Proofs.Descent

/-!
# Parsing one expression

What parsing a whole token list as one expression returns. The list is read up to its first end
token.

- `parse_ok_iff_derives`: the trees returned are exactly those of the grammar.
- `parse_error_earliest`: a fault names the first token with which no expression goes on, and its
  cause tells what could have stood there instead.

Both are read off `parses`, which says for every state without a fault what parsing returns and
where it leaves the parser.
-/

namespace Lox.Parser

open Grammar

/-! ### The tokens that are read -/

/-- **The tokens before the first end token**, all of them if there is none. -/
def inner (tokens : List Token) : List Token := tokens.takeWhile isInner

@[simp] theorem fault_ofTokens (tokens : List Token) : (ofTokens tokens).fault = none := rfl

@[simp] theorem position_ofTokens (tokens : List Token) : (ofTokens tokens).position = 0 := rfl

theorem closed_eq (tokens : List Token) : closed tokens = tokens ∨
    ∃ line, closed tokens = tokens ++ [.eof line] := by
  unfold closed
  cases h : tokens.getLast? with
  | none =>
    rw [List.getLast?_eq_none_iff.mp h]
    exact .inr ⟨1, rfl⟩
  | some last =>
    dsimp only
    split
    · exact .inl rfl
    · exact .inr ⟨last.line, rfl⟩

/-- An added end token is never before the first one. -/
theorem ahead_ofTokens (tokens : List Token) : (ofTokens tokens).ahead = inner tokens := by
  show (closed tokens).takeWhile isInner = tokens.takeWhile isInner
  obtain h | ⟨line, h⟩ := closed_eq tokens
  · rw [h]
  · have heof : [Token.eof line].takeWhile isInner = [] := rfl
    rw [h, List.takeWhile_append]
    -- the added token is reached only from a list without an end token
    split
    · next hall =>
      have hself : tokens.takeWhile isInner = tokens :=
        (List.takeWhile_sublist isInner).eq_of_length hall
      rw [heof, hself, List.append_nil]
    · rfl

/-- There is an end token among the tokens. -/
theorem exists_eof_mem_closed (tokens : List Token) : ∃ t ∈ closed tokens, t.kind = .eof := by
  unfold closed
  cases h : tokens.getLast? with
  | none => exact ⟨.eof 1, List.mem_singleton.mpr rfl, rfl⟩
  | some last =>
    dsimp only
    split
    · next hlast => exact ⟨last, List.mem_of_getLast? h, hlast⟩
    · exact ⟨.eof last.line, List.mem_append_right _ (List.mem_singleton.mpr rfl), rfl⟩

/-- The tokens are those ahead, the first end token and those behind it. -/
theorem closed_eq_ahead (tokens : List Token) :
    closed tokens
      = inner tokens ++ (ofTokens tokens).finish :: (ofTokens tokens).behind
    ∧ (ofTokens tokens).finish.kind = .eof := by
  obtain ⟨t, ht, hk⟩ := exists_eof_mem_closed tokens
  have hsplit := List.takeWhile_append_dropWhile (p := isInner) (l := closed tokens)
  cases htail : (closed tokens).dropWhile isInner with
  | nil =>
    have hall := List.dropWhile_eq_nil_iff.mp htail t ht
    simp [isInner, hk] at hall
  | cons finish behind =>
    have hfinish : (ofTokens tokens).finish = finish := by simp [ofTokens, htail]
    have hbehind : (ofTokens tokens).behind = behind := by simp [ofTokens, htail]
    have hno : isInner finish = false := by
      have := List.head?_dropWhile_not isInner (closed tokens)
      rw [htail] at this
      simpa using this
    rw [← ahead_ofTokens, hfinish, hbehind]
    refine ⟨?_, by simpa [isInner] using hno⟩
    rw [← htail]
    exact hsplit.symm

theorem take_inner {tokens : List Token} {i : Nat} (h : i ≤ (inner tokens).length) :
    tokens.take i = (inner tokens).take i := by
  have hsplit := List.takeWhile_append_dropWhile (p := isInner) (l := tokens)
  conv => lhs; rw [← hsplit]
  exact List.take_append_of_le_length h

theorem kind_ne_eof_of_mem_inner {tokens : List Token} {t : Token} (h : t ∈ inner tokens) :
    t.kind ≠ .eof := by
  have := List.mem_takeWhile_imp h
  simpa [isInner] using this

/-! ### What the place of a fault tells -/

/-- **Closing parentheses are all that is missing.** -/
def Closable (w : List Token) : Prop :=
  ∃ parens, parens ≠ [] ∧ (∀ t ∈ parens, t.kind = .rightParen) ∧ Sentence (w ++ parens)

/-- **An operand may stand behind the tokens.** -/
def ExpectsOperand (w : List Token) : Prop :=
  ∃ u rest e, Derives .primary u e ∧ Sentence (w ++ u ++ rest)

section

variable {w rest : List Token} {s : Stance}

theorem sentence_iff_stance (hw : (Stance.operand 0).walk w = some s) :
    Sentence w ↔ s = .operator 0 := by
  rw [sentence_iff_walk, hw, Option.some.injEq]

theorem closable_iff_stance (hw : (Stance.operand 0).walk w = some s) :
    Closable w ↔ ∃ d, s = .operator (d + 1) := by
  constructor
  · rintro ⟨parens, hne, hkind, hs⟩
    have hwalk : s.walk parens = some (.operator 0) := by
      rw [← Stance.walk_append_of_eq hw]
      exact sentence_iff_walk.mp hs
    obtain ⟨t, parens, rfl⟩ := List.exists_cons_of_ne_nil hne
    have ht : t.kind = .rightParen := hkind t List.mem_cons_self
    rw [Stance.walk_cons] at hwalk
    -- the first parenthesis fits only where an operand is complete and one is open
    cases s with
    | operand d =>
      simp [Stance.step, ht, frontOperator?, literalValue?] at hwalk
    | operator d =>
      cases d with
      | zero => simp [Stance.step, ht, BinaryOp.ofKind?] at hwalk
      | succ d => exact ⟨d, rfl⟩
  · rintro ⟨d, rfl⟩
    refine ⟨List.replicate (d + 1) Stance.closing, by simp, fun t ht => ?_, sentence_completion hw⟩
    rw [List.eq_of_mem_replicate ht]
    rfl

/-- Behind a complete operand no other operand can start. -/
theorem walk_operator_of_primary {u : List Token} {e : Expr} (h : Derives .primary u e) (d : Nat)
    (v : List Token) : (Stance.operator d).walk (u ++ v) = none := by
  have hstep : ∀ t, (BinaryOp.ofKind? t.kind = none) → t.kind ≠ .rightParen →
      ∀ v, (Stance.operator d).walk (t :: v) = none := by
    intro t hop hk v
    rw [Stance.walk_cons]
    simp [Stance.step, hop, hk]
  cases h with
  | literal hv =>
    refine hstep _ ?_ ?_ v
    · cases hv <;> simp [BinaryOp.ofKind?, *]
    · cases hv <;> simp [*]
  | grouping ho _ _ => exact hstep _ (by rw [ho]; rfl) (by rw [ho]; simp) _

theorem expectsOperand_iff_stance (hw : (Stance.operand 0).walk w = some s) :
    ExpectsOperand w ↔ ∃ d, s = .operand d := by
  constructor
  · rintro ⟨u, v, e, hder, hs⟩
    have hwalk : s.walk (u ++ v) = some (.operator 0) := by
      rw [← Stance.walk_append_of_eq hw, ← List.append_assoc]
      exact sentence_iff_walk.mp hs
    cases s with
    | operand d => exact ⟨d, rfl⟩
    | operator d =>
      rw [walk_operator_of_primary hder] at hwalk
      cases hwalk
  · rintro ⟨d, rfl⟩
    refine ⟨[Stance.filler], List.replicate d Stance.closing, .literal .nil, ?_, ?_⟩
    · exact .literal (.nothing rfl)
    · rw [List.append_assoc]
      exact sentence_completion hw

/-! The cause of a fault tells the stance at its place and the other way round. -/

/-- Where an operand is due only the next token can be wrong. -/
theorem cause_operand (d : Nat) (rest : List Token) :
    (Stance.operand d).cause rest = .invalidNumber
      ∨ (Stance.operand d).cause rest = .unexpectedToken := by
  cases rest with
  | nil => exact .inr rfl
  | cons t rest =>
    by_cases hk : t.kind = .number
    · exact .inl (if_pos hk)
    · exact .inr (if_neg hk)

theorem cause_eq_expectedEnd_iff : s.cause rest = .expectedEnd ↔ s = .operator 0 := by
  cases s with
  | operand d => obtain hc | hc := cause_operand d rest <;> simp [hc]
  | operator d => cases d <;> simp [Stance.cause]

theorem cause_eq_expectedRightParen_iff :
    s.cause rest = .expectedRightParen ↔ ∃ d, s = .operator (d + 1) := by
  cases s with
  | operand d => obtain hc | hc := cause_operand d rest <;> simp [hc]
  | operator d => cases d <;> simp [Stance.cause]

/-- Only a number whose text cannot be read stops a walk where an operand is due. -/
theorem read?_eq_none_of_blocked {d : Nat} {t : Token}
    (hb : (Stance.operand d).Blocked (t :: rest)) (hk : t.kind = .number) :
    Number.read? t.literal = none := by
  have hstep : (Stance.operand d).step t = none := hb t rfl
  refine Option.eq_none_iff_forall_not_mem.mpr fun n hn => ?_
  rw [Stance.step_operand_of_spells (.number hk hn)] at hstep
  cases hstep

theorem cause_eq_invalidNumber_iff {finish : Token} (hb : s.Blocked rest)
    (hfinish : finish.kind = .eof) :
    s.cause rest = .invalidNumber ↔ (∃ d, s = .operand d)
      ∧ (rest.headD finish).kind = .number ∧ Number.read? (rest.headD finish).literal = none := by
  cases s with
  | operator d => cases d <;> simp [Stance.cause]
  | operand d =>
    cases rest with
    | nil => simp [Stance.cause, hfinish]
    | cons t rest =>
      constructor
      · intro hc
        have hk : t.kind = .number := by
          by_contra hk
          simp [Stance.cause, hk] at hc
        exact ⟨⟨d, rfl⟩, hk, read?_eq_none_of_blocked hb hk⟩
      · rintro ⟨-, hk, -⟩
        exact if_pos hk

theorem length_overshoot (s : Stance) (rest : List Token) :
    (s.overshoot rest).length = if s.cause rest = .invalidNumber then 1 else 0 := by
  unfold Stance.overshoot
  split
  · next hc =>
    cases rest with
    | nil => cases s with
      | operand d => cases hc
      | operator d => cases d <;> cases hc
    | cons t rest => rfl
  · rfl

theorem cause_cases (s : Stance) (rest : List Token) :
    s.cause rest = .expectedEnd ∨ s.cause rest = .expectedRightParen
      ∨ s.cause rest = .invalidNumber ∨ s.cause rest = .unexpectedToken := by
  cases s with
  | operand d => exact .inr (.inr (cause_operand d rest))
  | operator d =>
    cases d with
    | zero => exact .inl rfl
    | succ d => exact .inr (.inl rfl)

/-- **The cause of a fault tells what could have stood at its place.** -/
theorem cause_classified {finish : Token} (hw : (Stance.operand 0).walk w = some s)
    (hb : s.Blocked rest) (hfinish : finish.kind = .eof) :
    (s.cause rest = .expectedEnd ↔ Sentence w)
      ∧ (s.cause rest = .expectedRightParen ↔ ¬ Sentence w ∧ Closable w)
      ∧ (s.cause rest = .invalidNumber ↔ ExpectsOperand w ∧ (rest.headD finish).kind = .number
        ∧ Number.read? (rest.headD finish).literal = none)
      ∧ (s.cause rest = .unexpectedToken ↔ ¬ Sentence w ∧ ¬ Closable w
        ∧ ¬ (ExpectsOperand w ∧ (rest.headD finish).kind = .number
          ∧ Number.read? (rest.headD finish).literal = none)) := by
  have hend : s.cause rest = .expectedEnd ↔ Sentence w :=
    cause_eq_expectedEnd_iff.trans (sentence_iff_stance hw).symm
  have hparen : s.cause rest = .expectedRightParen ↔ Closable w :=
    cause_eq_expectedRightParen_iff.trans (closable_iff_stance hw).symm
  have hnumber := cause_eq_invalidNumber_iff hb hfinish
  rw [← expectsOperand_iff_stance hw] at hnumber
  rw [← hend, ← hparen, ← hnumber]
  -- what is left is that the four causes differ and that there are no others
  obtain hc | hc | hc | hc := cause_cases s rest <;> simp [hc]

end

/-! ### What parsing returns -/

theorem view_parse_error {p q : Parser} {f : Fault}
    (h : (binary .equality p).view = (.error f, q)) : p.parse.view = (.error f, q) := by
  obtain ⟨hle, ho⟩ := Outcome.eq_of_view h
  rw [parse, expression, ho]
  rfl

theorem view_parse_end {p q : Parser} {e : Expr} (h : (binary .equality p).view = (.ok e, q))
    (hq : q.ahead = []) : p.parse.view = (.ok e, q) := by
  obtain ⟨hle, ho⟩ := Outcome.eq_of_view h
  rw [parse, expression, ho]
  simp [atEnd, hq, Outcome.view]

/-- Tokens behind the expression are a fault. -/
theorem view_parse_more {p q : Parser} {e : Expr} {t : Token} {rest : List Token}
    (h : (binary .equality p).view = (.ok e, q)) (hq : q.fault = none) (ha : q.ahead = t :: rest) :
    p.parse.view
      = (.error (.parse ⟨t, .expectedEnd⟩), q.failed (.parse ⟨t, .expectedEnd⟩)) := by
  obtain ⟨hle, ho⟩ := Outcome.eq_of_view h
  have hpeek : q.peek = t := by simp [peek, ha]
  rw [parse, expression, ho]
  simp only [atEnd, ha, List.isEmpty_cons, Bool.false_eq_true, ↓reduceIte, view_since, raiseHere,
    hpeek]
  exact view_raiseAt hq t .expectedEnd

/-- **What parsing one expression returns.** -/
inductive Parses (p : Parser) (v : Except Fault Expr × Parser) : Prop
  | tree {e : Expr} (derives : Derives (.level .equality) p.ahead e)
      (view : v = (.ok e, p.pass p.ahead))
  | fault {w rest : List Token} {s : Stance} (ahead : p.ahead = w ++ rest)
      (walk : (Stance.operand 0).walk w = some s) (blocked : s.Blocked rest)
      (incomplete : rest = [] → s ≠ .operator 0)
      (view : v = (.error (.parse (s.error rest p.finish)),
        (p.pass (w ++ s.overshoot rest)).failed (.parse (s.error rest p.finish))))

theorem parses (p : Parser) (hp : p.fault = none) : Parses p p.parse.view := by
  cases reads_binary .equality 0 p hp with
  | fault h =>
    obtain ⟨w, s, rest, ha, hw, hb, hin, hv⟩ := h
    refine .fault ha hw hb (fun _ hs => ?_) (view_parse_error hv)
    subst hs
    exact Nat.lt_irrefl 0 hin
  | @tree w rest e ha hder hclosed hv =>
    have hnext : (p.pass w).ahead = rest := ahead_pass ha
    -- a tree is the answer only if nothing is left behind its tokens
    cases rest with
    | nil =>
      obtain rfl : p.ahead = w := ha.trans (List.append_nil w)
      exact .tree hder (view_parse_end hv hnext)
    | cons t rest =>
      refine .fault ha (hder.walk 0) (blocked_of_closed hclosed) (fun h => nomatch h) ?_
      rw [view_parse_more hv hp hnext]
      simp [Stance.error, Stance.overshoot, Stance.cause]

/-! The place where a walk halts is the one that the error names, and the parser stands there. -/

theorem getElem?_closed_of_halt {tokens w rest : List Token} (ha : inner tokens = w ++ rest) :
    (closed tokens)[w.length]? = some (rest.headD (ofTokens tokens).finish) := by
  rw [(closed_eq_ahead tokens).1, ha, List.append_assoc,
    List.getElem?_append_right (Nat.le_refl _), Nat.sub_self]
  cases rest <;> rfl

/-- **A fault comes from the place where the walk halts.** -/
theorem halt_of_parse_error {tokens : List Token} {f : Fault}
    (h : (ofTokens tokens).parse.result = .error f) :
    ∃ w rest s, inner tokens = w ++ rest ∧ (Stance.operand 0).walk w = some s ∧ s.Blocked rest
      ∧ (rest = [] → s ≠ .operator 0) ∧ f = .parse (s.error rest (ofTokens tokens).finish)
      ∧ (ofTokens tokens).parse.next.position
        = if s.cause rest = .invalidNumber then w.length + 1 else w.length := by
  have hfst : (ofTokens tokens).parse.view.1 = .error f := h
  cases parses (ofTokens tokens) rfl with
  | tree _ hv =>
    rw [hv] at hfst
    cases hfst
  | @fault w rest s ha hw hb hincomplete hv =>
    rw [ahead_ofTokens] at ha
    rw [hv] at hfst
    refine ⟨w, rest, s, ha, hw, hb, hincomplete, (Except.error.inj hfst).symm, ?_⟩
    have hnext : (ofTokens tokens).parse.next.position
        = ((ofTokens tokens).pass (w ++ s.overshoot rest)).position :=
      congrArg (fun v => v.2.position) hv
    rw [hnext, position_pass, position_ofTokens, List.length_append, length_overshoot,
      Nat.zero_add]
    split <;> rfl

/-- The tokens of an expression are parsed to its tree. -/
theorem view_parse_of_derives {p : Parser} {e : Expr} (hp : p.fault = none)
    (h : Derives (.level .equality) p.ahead e) : p.parse.view = (.ok e, p.pass p.ahead) := by
  have ha : p.ahead = p.ahead ++ [] := (List.append_nil _).symm
  exact view_parse_end ((finds_of_derives h).view_binary hp ha (closed_nil _)) (ahead_pass ha)

theorem derives_of_parse_ok {p : Parser} {e : Expr} (hp : p.fault = none)
    (h : p.parse.result = .ok e) : Derives (.level .equality) p.ahead e := by
  have hfst : p.parse.view.1 = .ok e := h
  cases parses p hp with
  | tree hder hv =>
    rw [hv] at hfst
    cases hfst
    exact hder
  | fault _ _ _ _ hv =>
    rw [hv] at hfst
    cases hfst

/-- **Parsing computes the grammar.** A token list is parsed to a tree exactly if its tokens before
the first end token stand for that tree; they stand for at most one, and the tree says from left to
right what they say, so that every token is used once and in its place. The parser then stands
behind the last of them. -/
theorem parse_ok_iff_derives (tokens : List Token) :
    (∀ e, (ofTokens tokens).parse.result = .ok e ↔ Derives (.level .equality) (inner tokens) e)
    ∧ (∀ e e', Derives (.level .equality) (inner tokens) e →
        Derives (.level .equality) (inner tokens) e' → e = e')
    ∧ ∀ e, (ofTokens tokens).parse.result = .ok e →
        (inner tokens).map Token.mark? = e.marks.map some
        ∧ (ofTokens tokens).parse.next.position = (inner tokens).length := by
  have hsound : ∀ e, (ofTokens tokens).parse.result = .ok e →
      Derives (.level .equality) (inner tokens) e := by
    intro e h
    rw [← ahead_ofTokens]
    exact derives_of_parse_ok rfl h
  have hview : ∀ e, Derives (.level .equality) (inner tokens) e →
      (ofTokens tokens).parse.view = (.ok e, (ofTokens tokens).pass (inner tokens)) := by
    intro e h
    rw [← ahead_ofTokens] at h ⊢
    exact view_parse_of_derives rfl h
  refine ⟨fun e => ⟨hsound e, fun h => ?_⟩, fun e e' h h' => h.unique h', fun e h => ⟨?_, ?_⟩⟩
  · exact congrArg Prod.fst (hview e h)
  · exact (hsound e h).map_mark?
  · have hnext : (ofTokens tokens).parse.next = (ofTokens tokens).pass (inner tokens) :=
      congrArg Prod.snd (hview e (hsound e h))
    rw [hnext, position_pass, position_ofTokens, Nat.zero_add]

/-- A binary and a unary minus: `nil - - nil`. -/
theorem parse_ok_iff_derives_minus_minus :
    let word : Token := ⟨.nilWord, "nil", "", 1⟩
    let minus : Token := ⟨.minus, "-", "", 1⟩
    let tree : Expr :=
      .binary (.literal .nil) .subtract minus (.unary .negate minus (.literal .nil))
    (ofTokens [word, minus, minus, word]).parse.result = .ok tree
      ∧ Derives (.level .equality) [word, minus, minus, word] tree := by
  have h : (ofTokens [⟨.nilWord, "nil", "", 1⟩, ⟨.minus, "-", "", 1⟩, ⟨.minus, "-", "", 1⟩,
      ⟨.nilWord, "nil", "", 1⟩]).parse.result
      = .ok (.binary (.literal .nil) .subtract ⟨.minus, "-", "", 1⟩
        (.unary .negate ⟨.minus, "-", "", 1⟩ (.literal .nil))) := by cbv
  exact ⟨h, ((parse_ok_iff_derives _).1 _).mp h⟩

/-- **The error `e` is about the earliest token that is wrong**, the one at place `i`. -/
structure Earliest (tokens : List Token) (e : ParseError) (i : Nat) : Prop where
  /-- The place is not behind the first end token. -/
  le_length : i ≤ (inner tokens).length
  token_eq : (closed tokens)[i]? = some e.token
  /-- Some expression begins with the tokens before it. -/
  viable : ∃ rest, Sentence (tokens.take i ++ rest)
  /-- None begins with that token as well. -/
  stuck : e.token.kind ≠ .eof → ∀ rest, ¬ Sentence (tokens.take (i + 1) ++ rest)
  /-- At the end the tokens are not an expression. -/
  incomplete : e.token.kind = .eof → ¬ Sentence (tokens.take i)
  expectedEnd_iff : e.cause = .expectedEnd ↔ Sentence (tokens.take i)
  expectedRightParen_iff : e.cause = .expectedRightParen ↔
    ¬ Sentence (tokens.take i) ∧ Closable (tokens.take i)
  invalidNumber_iff : e.cause = .invalidNumber ↔
    ExpectsOperand (tokens.take i) ∧ e.token.kind = .number ∧ Number.read? e.token.literal = none
  /-- In all remaining cases the token is called unexpected. -/
  unexpectedToken_iff : e.cause = .unexpectedToken ↔
    ¬ Sentence (tokens.take i) ∧ ¬ Closable (tokens.take i) ∧
      ¬ (ExpectsOperand (tokens.take i) ∧ e.token.kind = .number
        ∧ Number.read? e.token.literal = none)

/-- The token at which a walk halts is the earliest that is wrong. -/
theorem earliest_of_halt {tokens w rest : List Token} {s : Stance}
    (ha : inner tokens = w ++ rest) (hw : (Stance.operand 0).walk w = some s)
    (hb : s.Blocked rest) (hincomplete : rest = [] → s ≠ .operator 0) :
    Earliest tokens (s.error rest (ofTokens tokens).finish) w.length := by
  have heof : (ofTokens tokens).finish.kind = .eof := (closed_eq_ahead tokens).2
  have hi : w.length ≤ (inner tokens).length := by simp [ha]
  have htake : tokens.take w.length = w := by rw [take_inner hi, ha, List.take_left]
  obtain ⟨hend, hparen, hnumber, hother⟩ := cause_classified hw hb heof
  refine ⟨hi, ?_, ?_, fun hkind => ?_, fun hkind => ?_, ?_, ?_, ?_, ?_⟩
  · exact getElem?_closed_of_halt ha
  · exact ⟨s.completion, by rw [htake]; exact sentence_completion hw⟩
  · cases rest with
    | nil => exact absurd heof hkind
    | cons t rest =>
      -- the walk has no step for the token, so no expression has one either
      have htake' : tokens.take (w.length + 1) = w ++ [t] := by
        rw [take_inner (by simp [ha]), ha, List.take_length_add_append]
        rfl
      rw [htake']
      refine not_sentence_of_walk_eq_none ?_
      rw [Stance.walk_append_of_eq hw, Stance.walk_cons, hb t rfl]
      rfl
  · cases rest with
    | nil =>
      rw [htake, sentence_iff_stance hw]
      exact hincomplete rfl
    | cons t rest =>
      have ht : t ∈ inner tokens := by simp [ha]
      exact absurd hkind (kind_ne_eof_of_mem_inner ht)
  · rwa [htake]
  · rwa [htake]
  · rwa [htake]
  · rwa [htake]

/-- **A fault is about the earliest token that is wrong.** The parser then stands at that token, and
behind it if the token is a number. -/
theorem parse_error_earliest (tokens : List Token) (f : Fault)
    (h : (ofTokens tokens).parse.result = .error f) :
    ∃ e i, f = .parse e ∧ Earliest tokens e i
      ∧ (ofTokens tokens).parse.next.position = if e.cause = .invalidNumber then i + 1 else i := by
  obtain ⟨w, rest, s, ha, hw, hb, hincomplete, hf, hposition⟩ := halt_of_parse_error h
  exact ⟨s.error rest (ofTokens tokens).finish, w.length, hf,
    earliest_of_halt ha hw hb hincomplete, hposition⟩

/-- An operand too many inside parentheses: `( nil nil`. -/
theorem parse_error_earliest_in_parentheses :
    let tokens : List Token :=
      [⟨.leftParen, "(", "", 1⟩, ⟨.nilWord, "nil", "", 1⟩, ⟨.nilWord, "nil", "", 1⟩]
    let e : ParseError := ⟨⟨.nilWord, "nil", "", 1⟩, .expectedRightParen⟩
    (ofTokens tokens).parse.result = .error (.parse e) ∧ ∃ i, Earliest tokens e i := by
  have h : (ofTokens [⟨.leftParen, "(", "", 1⟩, ⟨.nilWord, "nil", "", 1⟩,
      ⟨.nilWord, "nil", "", 1⟩]).parse.result
      = .error (.parse ⟨⟨.nilWord, "nil", "", 1⟩, .expectedRightParen⟩) := by cbv
  obtain ⟨e, i, he, hi, -⟩ := parse_error_earliest _ _ h
  cases he
  exact ⟨h, i, hi⟩

end Lox.Parser
