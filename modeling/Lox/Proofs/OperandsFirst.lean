import Lox.Proofs.PrintedValues

/-!
# Trees with operands before operators

Printed with operands before operators a tree is a row of words with single spaces between them.
Parentheses leave no word, so a tree prints as it does without them, whatever its strings are. Without
strings no word has a space in it, and then the words can be read back from the last one on: it tells
whether it is a literal or an operator, and with how many operands.

- `Expr.erase`, `Expr.Ungrouped`: a tree without its parentheses.
- `Expr.words`, `Expr.render_rpn`: the words of a tree; printing puts a space between them.
- `Expr.words_append_inj`: the words of a tree behind other words can be told.
- `rpn_print_eq_iff`: trees print as they do without parentheses, and without strings they print the
  same if and only if they are alike up to parentheses.
-/

namespace Lox

namespace Expr

/-! ### Parentheses -/

/-- **The tree without its parentheses.** -/
def erase : Expr → Expr
  | literal v => literal v
  | grouping inner => inner.erase
  | unary op t right => unary op t right.erase
  | binary left op t right => binary left.erase op t right.erase

/-- The tree has no parentheses. -/
def Ungrouped : Expr → Prop
  | literal _ => True
  | grouping _ => False
  | unary _ _ right => right.Ungrouped
  | binary left _ _ right => left.Ungrouped ∧ right.Ungrouped

theorem ungrouped_erase (e : Expr) : e.erase.Ungrouped := by
  induction e with
  | literal v => trivial
  | grouping inner ih => exact ih
  | unary op t right ih => exact ih
  | binary left op t right ihl ihr => exact ⟨ihl, ihr⟩

theorem values_erase (e : Expr) : e.erase.values = e.values := by
  induction e with
  | literal v => rfl
  | grouping inner ih => exact ih
  | unary op t right ih => exact ih
  | binary left op t right ihl ihr => exact congrArg₂ (· ++ ·) ihl ihr

theorem Stringless.erase {e : Expr} (h : e.Stringless) : e.erase.Stringless := by
  rw [Stringless, values_erase]
  exact h

/-! ### Words -/

/-- **The words of a tree**, operands before operators. -/
def words : Expr → List String
  | literal v => [v.text]
  | grouping inner => inner.words
  | unary op _ right => right.words ++ [Style.rpn.unaryLabel op]
  | binary left op _ right => left.words ++ right.words ++ [op.symbol]

theorem words_erase (e : Expr) : e.erase.words = e.words := by
  induction e with
  | literal v => rfl
  | grouping inner ih => exact ih
  | unary op t right ih => rw [erase, words, words, ih]
  | binary left op t right ihl ihr => rw [erase, words, words, ihl, ihr]

theorem words_ne_nil (e : Expr) : e.words ≠ [] := by
  induction e with
  | literal v => exact List.cons_ne_nil _ _
  | grouping inner ih => exact ih
  | unary op t right _ => exact List.append_ne_nil_of_right_ne_nil _ (List.cons_ne_nil _ _)
  | binary left op t right _ _ => exact List.append_ne_nil_of_right_ne_nil _ (List.cons_ne_nil _ _)

end Expr

/-! ### Spaces between words -/

namespace Style

theorem dropFinalSpace_append_space (text : String) : dropFinalSpace (text ++ " ") = text := by
  simp [dropFinalSpace]

theorem dropFinalSpace_of_ne {text : String} (h : text.toList.getLast? ≠ some ' ') :
    dropFinalSpace text = text := by
  unfold dropFinalSpace
  split
  · next rest hreverse =>
    rw [List.getLast?_eq_head?_reverse, hreverse] at h
    exact absurd rfl h
  · rfl

/-- Without an operator only the one space goes that was put there. -/
theorem operandsFirst_none (text : String) : operandsFirst "" [text] = text := by
  simp [operandsFirst, dropFinalSpace_append_space]

theorem join_append (operands : List String) (operator : String) :
    String.join (operands.map (· ++ " ")) ++ operator = " ".intercalate (operands ++ [operator]) := by
  induction operands with
  | nil => simp
  | cons text operands ih =>
    rw [List.map_cons, String.join_cons, String.append_assoc, ih, List.cons_append,
      String.intercalate_cons_of_ne_nil (List.append_ne_nil_of_right_ne_nil _ (List.cons_ne_nil _ _))]

end Style

theorem isSign_unaryLabel (op : UnaryOp) : IsSign (Style.rpn.unaryLabel op) := by
  cases op with
  | not => exact UnaryOp.isSign_symbol .not
  | negate => exact ⟨by decide, by simp [Style.rpn]⟩

namespace IsSign

variable {sign : String} (h : IsSign sign)

include h

theorem exists_final : ∃ c ∈ sign.toList, sign.toList.getLast? = some c :=
  ⟨_, List.getLast_mem h.ne_nil, List.getLast?_eq_some_getLast h.ne_nil⟩

/-- Behind an operator there is no space to go. -/
theorem operandsFirst_eq (operands : List String) :
    Style.operandsFirst sign operands = " ".intercalate (operands ++ [sign]) := by
  obtain ⟨c, hc, hfinal⟩ := h.exists_final
  rw [Style.operandsFirst, Style.dropFinalSpace_of_ne, Style.join_append]
  rw [String.toList_append, List.getLast?_append, hfinal, Option.some_or]
  exact fun heq => (h.chars c hc).1 (Option.some.inj heq)

/-- No value but a string is written as a sign. -/
theorem ne_text {v : Value} (hv : v.isString = false) : v.text ≠ sign := by
  obtain ⟨c, hc, hfinal⟩ := h.exists_final
  refine Value.spelling_text.ne_mark hv ?_
  rw [hfinal]
  exact (h.chars c hc).2

end IsSign

theorem unaryLabel_inj {op op' : UnaryOp}
    (h : Style.rpn.unaryLabel op = Style.rpn.unaryLabel op') : op = op' :=
  List.inj_on_of_nodup_map (by decide : (UnaryOp.all.map Style.rpn.unaryLabel).Nodup) op.mem_all
    op'.mem_all h

/-- Negation has a sign of its own, so the sign tells the number of operands. -/
theorem unaryLabel_ne_symbol (op : UnaryOp) (op' : BinaryOp) :
    Style.rpn.unaryLabel op ≠ op'.symbol :=
  (by decide : ∀ op ∈ UnaryOp.all, ∀ op' ∈ BinaryOp.all, Style.rpn.unaryLabel op ≠ op'.symbol)
    op op.mem_all op' op'.mem_all

namespace Expr

/-- **Printing puts a space between the words**, with or without strings among them. -/
theorem render_rpn (e : Expr) : e.render .rpn = " ".intercalate e.words := by
  induction e with
  | literal v => exact String.intercalate_singleton.symm
  | grouping inner ih =>
    show Style.operandsFirst "" [inner.render .rpn] = _
    rw [Style.operandsFirst_none, ih, words]
  | unary op t right ih =>
    show Style.operandsFirst (Style.rpn.unaryLabel op) [right.render .rpn] = _
    rw [(isSign_unaryLabel op).operandsFirst_eq, ih, words,
      String.intercalate_append_of_ne_nil right.words_ne_nil (List.cons_ne_nil _ _)]
    simp
  | binary left op t right ihl ihr =>
    show Style.operandsFirst op.symbol [left.render .rpn, right.render .rpn] = _
    rw [op.isSign_symbol.operandsFirst_eq, ihl, ihr, words, List.append_assoc,
      String.intercalate_append_of_ne_nil left.words_ne_nil
        (List.append_ne_nil_of_left_ne_nil right.words_ne_nil _),
      String.intercalate_append_of_ne_nil right.words_ne_nil (List.cons_ne_nil _ _)]
    simp

theorem space_notMem_words {e : Expr} (he : e.Stringless) : ∀ word ∈ e.words, ' ' ∉ word.toList := by
  induction e with
  | literal v =>
    refine List.forall_mem_singleton.mpr ?_
    exact Value.spelling_text.notMem (he v List.mem_cons_self) rfl (by decide)
  | grouping inner ih => exact ih he
  | unary op t right ih =>
    refine List.forall_mem_append.mpr ⟨ih he, ?_⟩
    exact List.forall_mem_singleton.mpr (isSign_unaryLabel op).space_notMem
  | binary left op t right ihl ihr =>
    obtain ⟨hleft, hright⟩ := List.forall_mem_append.mp he
    simp only [words, List.forall_mem_append, List.forall_mem_singleton]
    exact ⟨⟨ihl hleft, ihr hright⟩, op.isSign_symbol.space_notMem⟩

/-- Without strings the words can be told from the text. -/
theorem words_eq_of_render_eq {e e' : Expr} (he : e.Stringless) (he' : e'.Stringless)
    (h : e.render .rpn = e'.render .rpn) : e.words = e'.words := by
  have hsplit : ∀ {e : Expr}, e.Stringless →
      ((e.render .rpn).toList.splitOn ' ') = e.words.map String.toList := by
    intro e he
    rw [render_rpn, String.toList_intercalate]
    refine List.splitOn_intercalate ' ' ?_ (by simpa using e.words_ne_nil)
    simpa using space_notMem_words he
  have hmap : e.words.map String.toList = e'.words.map String.toList := by
    rw [← hsplit he, ← hsplit he', h]
  exact List.map_injective_iff.mpr (fun _ _ => String.toList_inj.mp) hmap

/-! ### Reading from the last word on -/

/-- The last word of a tree. -/
def lastWord : Expr → String
  | literal v => v.text
  | grouping inner => inner.lastWord
  | unary op _ _ => Style.rpn.unaryLabel op
  | binary _ op _ _ => op.symbol

/-- The words before the last one. -/
def earlierWords : Expr → List String
  | literal _ => []
  | grouping inner => inner.earlierWords
  | unary _ _ right => right.words
  | binary left _ _ right => left.words ++ right.words

theorem words_eq (e : Expr) : e.words = e.earlierWords ++ [e.lastWord] := by
  induction e with
  | grouping inner ih => exact ih
  | _ => rfl

theorem lastWord_eq {e e' : Expr} {front front' : List String}
    (h : front ++ e.words = front' ++ e'.words) :
    front ++ e.earlierWords = front' ++ e'.earlierWords ∧ e.lastWord = e'.lastWord := by
  rw [words_eq, words_eq e', ← List.append_assoc, ← List.append_assoc] at h
  exact List.append_singleton_inj.mp h

/-- **The words of a tree behind other words can be told**, and so can the other words. -/
theorem words_append_inj {e e' : Expr} {front front' : List String}
    (h : front ++ e.words = front' ++ e'.words) (hgroups : e.Ungrouped) (hgroups' : e'.Ungrouped)
    (he : e.Stringless) (he' : e'.Stringless) : e.Alike e' ∧ front = front' := by
  induction e generalizing e' front front' with
  | literal v =>
    have hv : v.isString = false := he v List.mem_cons_self
    obtain ⟨hfirst, hlast⟩ := lastWord_eq h
    cases e' with
    | literal w =>
      have hw : w.isString = false := he' w List.mem_cons_self
      refine ⟨.literal ((Value.spelling_text.eq_iff hv hw).mp hlast), ?_⟩
      simpa [earlierWords] using hfirst
    | grouping inner' => exact hgroups'.elim
    | unary op' t' right' => exact absurd hlast ((isSign_unaryLabel op').ne_text hv)
    | binary left' op' t' right' => exact absurd hlast (op'.isSign_symbol.ne_text hv)
  | grouping inner ih => exact hgroups.elim
  | unary op t right ih =>
    obtain ⟨hfirst, hlast⟩ := lastWord_eq h
    cases e' with
    | literal w =>
      have hw : w.isString = false := he' w List.mem_cons_self
      exact absurd hlast.symm ((isSign_unaryLabel op).ne_text hw)
    | grouping inner' => exact hgroups'.elim
    | unary op' t' right' =>
      obtain rfl := unaryLabel_inj hlast
      obtain ⟨hright, hfront⟩ := ih hfirst hgroups hgroups' he he'
      exact ⟨.unary hright, hfront⟩
    | binary left' op' t' right' => exact absurd hlast (unaryLabel_ne_symbol op op')
  | binary left op t right ihl ihr =>
    obtain ⟨hfirst, hlast⟩ := lastWord_eq h
    cases e' with
    | literal w =>
      have hw : w.isString = false := he' w List.mem_cons_self
      exact absurd hlast.symm (op.isSign_symbol.ne_text hw)
    | grouping inner' => exact hgroups'.elim
    | unary op' t' right' => exact absurd hlast.symm (unaryLabel_ne_symbol op' op)
    | binary left' op' t' right' =>
      obtain rfl := BinaryOp.symbol_inj hlast
      obtain ⟨hleft, hright⟩ := List.forall_mem_append.mp he
      obtain ⟨hleft', hright'⟩ := List.forall_mem_append.mp he'
      -- the right operand ends the words before the sign, the left one those before it
      simp only [earlierWords, ← List.append_assoc] at hfirst
      obtain ⟨hr, hmore⟩ := ihr hfirst hgroups.2 hgroups'.2 hright hright'
      obtain ⟨hl, hfront⟩ := ihl hmore hgroups.1 hgroups'.1 hleft hleft'
      exact ⟨.binary hl hr, hfront⟩

end Expr

/-- **Trees printed with operands before operators.** Parentheses leave no trace in the text, whatever
the strings in the tree are. Trees without strings are the same text if and only if they are alike
without their parentheses. -/
theorem rpn_print_eq_iff :
    (∀ e : Expr, Printer.rpn.print e = Printer.rpn.print e.erase) ∧
      ∀ e e' : Expr, e.Stringless → e'.Stringless →
        (Printer.rpn.print e = Printer.rpn.print e' ↔ e.erase.Alike e'.erase) := by
  have herase : ∀ e : Expr, Printer.rpn.print e = Printer.rpn.print e.erase := by
    intro e
    show e.render .rpn = e.erase.render .rpn
    rw [Expr.render_rpn, Expr.render_rpn, Expr.words_erase]
  refine ⟨herase, fun e e' he he' => ⟨fun h => ?_, fun h => ?_⟩⟩
  · rw [herase e, herase e'] at h
    have hwords := Expr.words_eq_of_render_eq he.erase he'.erase h
    exact (Expr.words_append_inj (congrArg ([] ++ ·) hwords) e.ungrouped_erase e'.ungrouped_erase
      he.erase he'.erase).1
  · rw [herase e, herase e']
    exact h.print_eq .rpn

/-- A string that ends with a space, in parentheses twice; a negation in parentheses and without. -/
theorem rpn_print_eq_iff_parentheses :
    let spaced : Expr := .literal (.string "a ")
    let negation : Expr := .unary .negate ⟨.minus, "-", "", 1⟩ (.literal .nil)
    let e : Expr := .binary (.grouping negation) .subtract ⟨.minus, "-", "", 1⟩ (.literal .nil)
    let e' : Expr := .binary negation .subtract ⟨.minus, "-", "", 7⟩ (.grouping (.literal .nil))
    Printer.rpn.print (.grouping (.grouping spaced)) = "a "
      ∧ e.Stringless ∧ e'.Stringless ∧ Printer.rpn.print e = "nil ~ nil -"
      ∧ e.erase.Alike e'.erase := by
  intro spaced negation e e'
  obtain ⟨herase, hiff⟩ := rpn_print_eq_iff
  have he : e.Stringless := by decide
  have he' : e'.Stringless := by decide
  refine ⟨(herase _).trans rfl, he, he', e.render_rpn, (hiff e e' he he').mp ?_⟩
  exact e.render_rpn.trans e'.render_rpn.symm

end Lox
