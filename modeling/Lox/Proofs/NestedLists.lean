import Lox.Proofs.PrintedValues

/-!
# Trees as nested lists

A tree printed as nested lists puts strings in without quotes, so a string may look like anything.
Without strings the tree can be told from its text: an opening parenthesis tells a list from a
literal, a blank ends the head of a list, and the number of operands tells negation from subtraction.

- `Ends`: what may follow a printed tree inside a list.
- `Expr.Listed`: the head and the operands of a tree; `Expr.Listed.alike`: they make the tree.
- `Expr.Told`, `Expr.told_of_stringless`: a printed tree before such a text can be told, and so can
  the text.
- `ast_print_eq_iff`: trees without strings print the same if and only if they are alike.
-/

namespace Lox

/-! ### Literals -/

/-- The characters that end a literal. -/
def endsLiteral (c : Char) : Bool := c == ' ' || c == ')'

/-- **What may follow a printed tree**: nothing, a blank or a closing parenthesis. -/
def Ends (rest : List Char) : Prop := ∀ c ∈ rest.head?, endsLiteral c

theorem ends_nil : Ends [] := nofun

theorem ends_blank (rest : List Char) : Ends (' ' :: rest) := by
  rintro c ⟨⟩
  rfl

theorem ends_close (rest : List Char) : Ends (')' :: rest) := by
  rintro c ⟨⟩
  rfl

theorem Value.endsLiteral_of_mem_text {v : Value} (hv : v.isString = false) :
    ∀ c ∈ v.text.toList, endsLiteral c = false := by
  intro c hc
  by_contra hends
  simp only [endsLiteral, Bool.not_eq_false, Bool.or_eq_true, beq_iff_eq] at hends
  rcases hends with rfl | rfl
  · exact spelling_text.notMem hv rfl (by decide) hc
  · exact spelling_text.notMem hv rfl (by decide) hc

/-- The opening parenthesis tells a list from a literal. -/
theorem Value.text_append_ne_open {v : Value} (hv : v.isString = false) {rest : List Char}
    (hrest : Ends rest) (more : List Char) : v.text.toList ++ rest ≠ '(' :: more := by
  have hopen : '(' ∉ v.text.toList := spelling_text.notMem hv rfl (by decide)
  intro h
  cases htext : v.text.toList with
  | nil =>
    rw [htext, List.nil_append] at h
    rw [h] at hrest
    exact absurd (hrest '(' rfl) (by decide)
  | cons c text =>
    rw [htext] at h hopen
    obtain ⟨rfl, -⟩ := List.cons.inj h
    exact hopen List.mem_cons_self

/-! ### Lists -/

/-- The word for parentheses is no operator. -/
theorem IsSign.ne_group {sign : String} (h : IsSign sign) : sign ≠ "group" := by
  rintro rfl
  exact absurd (h.chars 'g' (by decide)).2 (by decide)

namespace Expr

/-- **The tree is printed as a list** of a head and operands. -/
inductive Listed : Expr → String → List Expr → Prop
  | grouping {inner : Expr} : Listed (.grouping inner) "group" [inner]
  | unary {op : UnaryOp} {t : Token} {right : Expr} : Listed (.unary op t right) op.symbol [right]
  | binary {left right : Expr} {op : BinaryOp} {t : Token} :
      Listed (.binary left op t right) op.symbol [left, right]

theorem literal_or_listed (e : Expr) :
    (∃ v, e = literal v) ∨ ∃ head operands, e.Listed head operands := by
  cases e with
  | literal v => exact .inl ⟨v, rfl⟩
  | grouping inner => exact .inr ⟨_, _, .grouping⟩
  | unary op t right => exact .inr ⟨_, _, .unary⟩
  | binary left op t right => exact .inr ⟨_, _, .binary⟩

/-- The text of operands, each behind a blank, of the closing parenthesis and of what follows. -/
def operandsText (rest : List Char) : List Expr → List Char
  | [] => ')' :: rest
  | x :: more => ' ' :: ((x.render .ast).toList ++ operandsText rest more)

theorem ends_operandsText (rest : List Char) (operands : List Expr) :
    Ends (operandsText rest operands) := by
  cases operands with
  | nil => exact ends_close rest
  | cons x more => exact ends_blank _

namespace Listed

variable {e e' : Expr} {head head' : String} {operands operands' : List Expr}

theorem ast_append (h : e.Listed head operands) (rest : List Char) :
    (e.render .ast).toList ++ rest = '(' :: (head.toList ++ operandsText rest operands) := by
  cases h <;> simp [render, Style.ast, Style.parenthesize, operandsText]

/-- There is an operand, so a blank stands behind the head and none in it. -/
theorem operandsText_eq (h : e.Listed head operands) (rest : List Char) :
    ' ' ∉ head.toList ∧ ∃ more, operandsText rest operands = ' ' :: more := by
  cases h with
  | grouping => exact ⟨by decide, _, rfl⟩
  | @unary op _ _ => exact ⟨op.isSign_symbol.space_notMem, _, rfl⟩
  | @binary _ _ op _ => exact ⟨op.isSign_symbol.space_notMem, _, rfl⟩

theorem stringless (h : e.Listed head operands) (he : e.Stringless) :
    ∀ x ∈ operands, x.Stringless := by
  cases h with
  | grouping => exact List.forall_mem_singleton.mpr he
  | unary => exact List.forall_mem_singleton.mpr he
  | binary =>
    obtain ⟨hleft, hright⟩ := List.forall_mem_append.mp he
    exact List.forall_mem_cons.mpr ⟨hleft, List.forall_mem_singleton.mpr hright⟩

/-- **Head and operands make the tree.** Where one head is that of two operators, the number of
operands tells which it is. -/
theorem alike (h : e.Listed head operands) (h' : e'.Listed head' operands') (hhead : head = head')
    (hoperands : List.Forall₂ Alike operands operands') : e.Alike e' := by
  cases h with
  | grouping =>
    cases h' with
    | grouping =>
      obtain ⟨hinner, -⟩ := List.forall₂_cons.mp hoperands
      exact .grouping hinner
    | @unary op _ _ => exact absurd hhead.symm op.isSign_symbol.ne_group
    | @binary _ _ op _ => exact absurd hhead.symm op.isSign_symbol.ne_group
  | @unary op _ _ =>
    cases h' with
    | grouping => exact absurd hhead op.isSign_symbol.ne_group
    | unary =>
      obtain rfl := UnaryOp.symbol_inj hhead
      obtain ⟨hright, -⟩ := List.forall₂_cons.mp hoperands
      exact .unary hright
    | binary => cases hoperands.length_eq
  | @binary _ _ op _ =>
    cases h' with
    | grouping => exact absurd hhead op.isSign_symbol.ne_group
    | unary => cases hoperands.length_eq
    | binary =>
      obtain rfl := BinaryOp.symbol_inj hhead
      obtain ⟨hleft, hmore⟩ := List.forall₂_cons.mp hoperands
      obtain ⟨hright, -⟩ := List.forall₂_cons.mp hmore
      exact .binary hleft hright

end Listed

/-! ### Trees -/

/-- **The tree can be told from its text**, and so can what follows it. -/
def Told (e : Expr) : Prop :=
  ∀ (e' : Expr) (rest rest' : List Char), e'.Stringless → Ends rest → Ends rest' →
    (e.render .ast).toList ++ rest = (e'.render .ast).toList ++ rest' → e.Alike e' ∧ rest = rest'

theorem operandsText_inj {operands operands' : List Expr} (htold : ∀ x ∈ operands, x.Told)
    (hstrings : ∀ x ∈ operands', x.Stringless) {rest rest' : List Char}
    (h : operandsText rest operands = operandsText rest' operands') :
    List.Forall₂ Alike operands operands' ∧ rest = rest' := by
  induction operands generalizing operands' with
  | nil =>
    cases operands' with
    | nil => exact ⟨.nil, (List.cons.inj h).2⟩
    | cons x' more' => cases h
  | cons x more ih =>
    cases operands' with
    | nil => cases h
    | cons x' more' =>
      obtain ⟨hx, hmore⟩ := List.forall_mem_cons.mp htold
      obtain ⟨hx', hmore'⟩ := List.forall_mem_cons.mp hstrings
      obtain ⟨halike, hbehind⟩ := hx x' _ _ hx' (ends_operandsText rest more)
        (ends_operandsText rest' more') (List.cons.inj h).2
      obtain ⟨hall, hrest⟩ := ih hmore hmore' hbehind
      exact ⟨.cons halike hall, hrest⟩

theorem told_literal {v : Value} (hv : v.isString = false) : (literal v).Told := by
  intro e' rest rest' he' hrest hrest' h
  rcases e'.literal_or_listed with ⟨w, rfl⟩ | ⟨head', operands', hlisted'⟩
  · have hw : w.isString = false := he' w List.mem_cons_self
    obtain ⟨htext, hsame⟩ := append_stop_inj (Value.endsLiteral_of_mem_text hv)
      (Value.endsLiteral_of_mem_text hw) hrest hrest' h
    have halike := (Value.spelling_text.eq_iff hv hw).mp (String.toList_inj.mp htext)
    exact ⟨.literal halike, hsame⟩
  · rw [hlisted'.ast_append] at h
    exact absurd h (Value.text_append_ne_open hv hrest _)

theorem told_of_listed {e : Expr} {head : String} {operands : List Expr}
    (hlisted : e.Listed head operands) (htold : ∀ x ∈ operands, x.Told) : e.Told := by
  intro e' rest rest' he' hrest hrest' h
  rw [hlisted.ast_append] at h
  rcases e'.literal_or_listed with ⟨w, rfl⟩ | ⟨head', operands', hlisted'⟩
  · have hw : w.isString = false := he' w List.mem_cons_self
    exact absurd h.symm (Value.text_append_ne_open hw hrest' _)
  · rw [hlisted'.ast_append, List.cons.injEq] at h
    -- the first blank ends the head on both sides
    obtain ⟨hblank, more, hmore⟩ := hlisted.operandsText_eq rest
    obtain ⟨hblank', more', hmore'⟩ := hlisted'.operandsText_eq rest'
    have hheads := h.2
    rw [hmore, hmore'] at hheads
    obtain ⟨hhead, htail⟩ := append_mark_inj hblank hblank' hheads
    have hoperands : operandsText rest operands = operandsText rest' operands' := by
      rw [hmore, hmore', htail]
    obtain ⟨halike, hsame⟩ := operandsText_inj htold (hlisted'.stringless he') hoperands
    exact ⟨hlisted.alike hlisted' (String.toList_inj.mp hhead) halike, hsame⟩

/-- **Every tree without strings can be told.** -/
theorem told_of_stringless {e : Expr} (he : e.Stringless) : e.Told := by
  induction e with
  | literal v => exact told_literal (he v List.mem_cons_self)
  | grouping inner ih => exact told_of_listed .grouping (List.forall_mem_singleton.mpr (ih he))
  | unary op t right ih => exact told_of_listed .unary (List.forall_mem_singleton.mpr (ih he))
  | binary left op t right ihl ihr =>
    obtain ⟨hleft, hright⟩ := List.forall_mem_append.mp he
    refine told_of_listed .binary (List.forall_mem_cons.mpr ⟨ihl hleft, ?_⟩)
    exact List.forall_mem_singleton.mpr (ihr hright)

end Expr

/-- **Trees without strings printed as nested lists are the same text if and only if they are
alike.** -/
theorem ast_print_eq_iff (e e' : Expr) (he : e.Stringless) (he' : e'.Stringless) :
    Printer.ast.print e = Printer.ast.print e' ↔ e.Alike e' := by
  constructor
  · intro h
    have htext := congrArg (·.toList ++ []) h
    exact (Expr.told_of_stringless he e' [] [] he' ends_nil ends_nil htext).1
  · intro h
    exact h.print_eq .ast

/-- Parentheses, both marks with `!` and a minus, with operator tokens from different lines. -/
theorem ast_print_eq_iff_other_lines :
    let tree : Int → Expr := fun line =>
      .unary .negate ⟨.minus, "-", "", line⟩
        (.grouping (.binary (.literal .nil) .notEqual ⟨.bangEqual, "!=", "", line⟩
          (.unary .not ⟨.bang, "!", "", line⟩ (.literal (.bool true)))))
    (tree 1).Stringless ∧ (tree 7).Stringless
      ∧ Printer.ast.print (tree 1) = "(- (group (!= nil (! true))))" ∧ (tree 1).Alike (tree 7) := by
  intro tree
  have hfirst : (tree 1).Stringless := by decide
  have hsecond : (tree 7).Stringless := by decide
  refine ⟨hfirst, hsecond, rfl, ?_⟩
  exact (ast_print_eq_iff (tree 1) (tree 7) hfirst hsecond).mp rfl

end Lox
