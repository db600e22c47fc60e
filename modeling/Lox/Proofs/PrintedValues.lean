import Mathlib.Data.List.Nodup
import Lox.Expr.Style
import Lox.Proofs.Infix
import Lox.Proofs.Numerals

/-!
# Values in print

A printer shows an operator without its token, and a number by its shortest text. So the most that a
printed tree can tell is the tree up to its operator tokens and up to numbers of the same text. To
tell that much the values must be told from each other: the words for the values that are no numbers
never look like a number, and no text of a value looks like the marks around it.

- `Value.Alike`, `Expr.Alike`, `Expr.Alike.print_eq`: values and trees that no printer tells apart.
- `Expr.Stringless`: a tree without string literals.
- `append_stop_inj`, `append_mark_inj`: a text without a mark in it ends at the first mark.
- `IsSign`: what the operators look like.
- `Number.IsNumeral`, `Number.isNumeral_text`: the characters of a number's text, and its last one.
- `Value.Spelling`: a way to write the values that are no strings; `Value.spelling_text` and
  `Value.spelling_treeLiteral` are the two in use.
- `Value.Spelling.eq_iff`: a value is told by its spelling; `Value.Spelling.notMem` and
  `Value.Spelling.ne_mark`: it is told from marks.
-/

namespace Lox

/-- **Values that print alike**: the same value, or numbers with the same text. -/
inductive Value.Alike : Value → Value → Prop
  | nil : Alike .nil .nil
  | bool (b : Bool) : Alike (.bool b) (.bool b)
  | number {m n : Number} : m.text = n.text → Alike (.number m) (.number n)
  | string (s : String) : Alike (.string s) (.string s)

/-- **Trees that are the same up to operator tokens** and up to the numbers in them. -/
inductive Expr.Alike : Expr → Expr → Prop
  | literal {v w : Value} : v.Alike w → Alike (.literal v) (.literal w)
  | grouping {e e' : Expr} : e.Alike e' → Alike (.grouping e) (.grouping e')
  | unary {op : UnaryOp} {t t' : Token} {right right' : Expr} :
      right.Alike right' → Alike (.unary op t right) (.unary op t' right')
  | binary {left left' right right' : Expr} {op : BinaryOp} {t t' : Token} :
      left.Alike left' → right.Alike right' →
      Alike (.binary left op t right) (.binary left' op t' right')

/-- The value is a string. -/
def Value.isString : Value → Bool
  | string _ => true
  | _ => false

/-- **The tree has no string literal.** -/
def Expr.Stringless (e : Expr) : Prop := ∀ v ∈ e.values, v.isString = false

instance (e : Expr) : Decidable e.Stringless := inferInstanceAs (Decidable (∀ v ∈ e.values, _))

/-- **No printer tells trees apart that are alike.** -/
theorem Expr.Alike.print_eq {e e' : Expr} (h : e.Alike e') (p : Printer) : p.print e = p.print e' := by
  have hliteral : ∀ {v w : Value}, v.Alike w → p.style.literal v = p.style.literal w := by
    intro v w hvw
    cases hvw with
    | number htext =>
      cases p with
      | ast => exact htext
      | rpn => exact htext
      | tree =>
        show "Literal(" ++ Number.text _ ++ ")" = "Literal(" ++ Number.text _ ++ ")"
        rw [htext]
    | _ => rfl
  unfold Printer.print
  induction h with
  | literal hvw => exact hliteral hvw
  | grouping _ ih => rw [Expr.render, Expr.render, ih]
  | unary _ ih => rw [Expr.render, Expr.render, ih]
  | binary _ _ ihl ihr => rw [Expr.render, Expr.render, ihl, ihr]

/-! ### Marks and operators -/

/-- **What stands before a stop can be told**, and so can what stands from the stop on. -/
theorem append_stop_inj {stops : Char → Bool} {front front' rest rest' : List Char}
    (hfront : ∀ c ∈ front, stops c = false) (hfront' : ∀ c ∈ front', stops c = false)
    (hrest : ∀ c ∈ rest.head?, stops c) (hrest' : ∀ c ∈ rest'.head?, stops c)
    (h : front ++ rest = front' ++ rest') : front = front' ∧ rest = rest' := by
  have hcut : ∀ {front rest : List Char}, (∀ c ∈ front, stops c = false) →
      (∀ c ∈ rest.head?, stops c) → (front ++ rest).takeWhile (!stops ·) = front := by
    intro front rest hfront hrest
    have hstop : rest.takeWhile (!stops ·) = [] := by
      cases rest with
      | nil => rfl
      | cons c rest => simp [hrest c rfl]
    rw [List.takeWhile_append_of_pos (by simpa using hfront), hstop, List.append_nil]
  have hsame := congrArg (List.takeWhile (!stops ·)) h
  rw [hcut hfront hrest, hcut hfront' hrest'] at hsame
  obtain rfl := hsame
  exact ⟨rfl, List.append_cancel_left h⟩

/-- **What stands before the first mark can be told**, and so can what follows the mark. -/
theorem append_mark_inj {mark : Char} {front front' rest rest' : List Char} (hfront : mark ∉ front)
    (hfront' : mark ∉ front') (h : front ++ mark :: rest = front' ++ mark :: rest') :
    front = front' ∧ rest = rest' := by
  have hne : ∀ {text : List Char}, mark ∉ text → ∀ c ∈ text, (c == mark) = false := by
    intro text hmark c hc
    refine beq_eq_false_iff_ne.mpr ?_
    rintro rfl
    exact hmark hc
  obtain ⟨hsame, hrest⟩ := append_stop_inj (hne hfront) (hne hfront') (by simp) (by simp) h
  exact ⟨hsame, (List.cons.inj hrest).2⟩

theorem UnaryOp.mem_all (op : UnaryOp) : op ∈ all := by
  cases op <;> decide

theorem BinaryOp.mem_all (op : BinaryOp) : op ∈ all := by
  cases op <;> decide

/-- **The text is a sign**: it has a character, and none that is a space, a letter or a digit. -/
structure IsSign (text : String) : Prop where
  ne_nil : text.toList ≠ []
  chars : ∀ c ∈ text.toList, c ≠ ' ' ∧ c.isAlphanum = false

theorem IsSign.space_notMem {sign : String} (h : IsSign sign) : ' ' ∉ sign.toList :=
  fun hspace => (h.chars ' ' hspace).1 rfl

theorem UnaryOp.isSign_symbol (op : UnaryOp) : IsSign op.symbol := by
  cases op <;> exact ⟨by decide, by simp [symbol]⟩

theorem BinaryOp.isSign_symbol (op : BinaryOp) : IsSign op.symbol := by
  cases op <;> exact ⟨by decide, by simp [symbol]⟩

theorem UnaryOp.symbol_inj {op op' : UnaryOp} (h : op.symbol = op'.symbol) : op = op' :=
  List.inj_on_of_nodup_map (by decide : (all.map symbol).Nodup) op.mem_all op'.mem_all h

theorem BinaryOp.symbol_inj {op op' : BinaryOp} (h : op.symbol = op'.symbol) : op = op' :=
  List.inj_on_of_nodup_map (by decide : (all.map symbol).Nodup) op.mem_all op'.mem_all h

/-! ### The text of a number -/

namespace Number

/-- The characters that a number's text ends with. -/
def isFinal (c : Char) : Bool := c.isDigit || c == 'N' || c == 'f'

/-- **What the text of a number looks like**: digits and letters, points and signs, and at the end a
digit or the end of a special value's name. -/
structure IsNumeral (text : List Char) : Prop where
  chars : ∀ c ∈ text, c.isAlphanum ∨ c ∈ ['.', '-', '+']
  final : ∃ c, text.getLast? = some c ∧ isFinal c

theorem isAlphanum_of_isDigit {c : Char} (h : c.isDigit) : c.isAlphanum := by
  simp [Char.isAlphanum, h]

theorem isAlphanum_of_isFinal {c : Char} (h : isFinal c) : c.isAlphanum := by
  simp only [isFinal, Bool.or_eq_true, beq_iff_eq] at h
  rcases h with (h | rfl) | rfl
  · exact isAlphanum_of_isDigit h
  · rfl
  · rfl

/-- Plain characters, then digits. -/
theorem isNumeral_append (front : List Char) {tail : List Char} (hfront : IsPlain front)
    (htail : tail ≠ []) (hdigits : ∀ c ∈ tail, c.isDigit) : IsNumeral (front ++ tail) where
  chars c hc := by
    rcases List.mem_append.mp hc with hc | hc
    · rcases hfront c hc with hdigit | rfl
      · exact .inl (isAlphanum_of_isDigit hdigit)
      · exact .inr (by decide)
    · exact .inl (isAlphanum_of_isDigit (hdigits c hc))
  final := by
    refine ⟨tail.getLast htail, ?_, ?_⟩
    · rw [List.getLast?_append_of_ne_nil front htail, List.getLast?_eq_some_getLast htail]
    · rw [isFinal, hdigits _ (List.getLast_mem htail)]
      rfl

theorem isNumeral_positional (d : Decimal) : IsNumeral d.positional := by
  have hdigits : ∀ c ∈ Nat.toDigits 10 d.digits, c.isDigit := fun c hc =>
    Nat.isDigit_of_mem_toDigits (by decide) (by decide) hc
  have hzeros : ∀ k, ∀ c ∈ List.replicate k '0', c.isDigit := by
    intro k c hc
    rw [List.eq_of_mem_replicate hc]
    rfl
  have hne : Nat.toDigits 10 d.digits ≠ [] := Nat.toDigits_ne_nil
  simp only [Decimal.positional]
  generalize Nat.toDigits 10 d.digits = digits at hdigits hne
  generalize hplaces : (-d.exponent).toNat = places
  split
  · exact isNumeral_append [] nofun (List.append_ne_nil_of_left_ne_nil hne _)
      (List.forall_mem_append.mpr ⟨hdigits, hzeros _⟩)
  next hpoint =>
  split
  · next hlt =>
    -- there are places behind the point, and digits for all of them
    rw [beq_iff_eq] at hpoint
    rw [← List.singleton_append, ← List.append_assoc]
    refine isNumeral_append _ ?_ ?_ fun c hc => hdigits c (List.mem_of_mem_drop hc)
    · intro c hc
      rcases List.mem_append.mp hc with hc | hc
      · exact .inl (hdigits c (List.mem_of_mem_take hc))
      · exact .inr (List.mem_singleton.mp hc)
    · refine List.ne_nil_of_length_pos ?_
      rw [List.length_drop]
      omega
  · refine isNumeral_append ['0', '.'] ?_ (List.append_ne_nil_of_right_ne_nil _ hne)
      (List.forall_mem_append.mpr ⟨hzeros _, hdigits⟩)
    simp [IsPlain]

theorem isNumeral_magnitudeText (units : Nat) : IsNumeral (magnitudeText units) := by
  unfold magnitudeText
  split
  · exact isNumeral_append [] nofun (List.cons_ne_nil '0' []) (by simp)
  · exact isNumeral_positional _

/-- A sign in front of a numeral makes another one. -/
theorem IsNumeral.negative {text : List Char} (h : IsNumeral text) : IsNumeral ('-' :: text) where
  chars := List.forall_mem_cons.mpr ⟨.inr (by decide), h.chars⟩
  final := by
    obtain ⟨c, hc, hfinal⟩ := h.final
    exact ⟨c, by rw [List.getLast?_cons, hc]; rfl, hfinal⟩

theorem isNumeral_text (n : Number) : IsNumeral n.text.toList := by
  cases n with
  | nan => exact ⟨by simp [text], 'N', rfl, rfl⟩
  | infinite negative => cases negative <;> exact ⟨by simp [text], 'f', rfl, rfl⟩
  | finite negative units =>
    cases negative
    · rw [text, String.toList_ofList]
      exact isNumeral_magnitudeText units
    · rw [text, String.toList_ofList]
      exact (isNumeral_magnitudeText units).negative

end Number

/-! ### Spellings of values -/

namespace Value

/-- The values that are written as words. -/
def worded : List Value := [.nil, .bool true, .bool false]

/-- **A way to write the values that are no strings**: a number by its text, each other value by a
word of its own that does not end like a number. -/
structure Spelling (spell : Value → String) : Prop where
  number : ∀ n, spell (.number n) = n.text
  word_chars : ∀ v ∈ worded, ∀ c ∈ (spell v).toList, c.isAlphanum
  word_final : ∀ v ∈ worded, ∃ c, (spell v).toList.getLast? = some c ∧ ¬ Number.isFinal c
  word_inj : ∀ v ∈ worded, ∀ w ∈ worded, spell v = spell w → v = w

theorem spelling_text : Spelling Value.text where
  number _ := rfl
  word_chars := by simp [worded, text]
  word_final := by simp [worded, text, Number.isFinal]
  word_inj := by decide

theorem spelling_treeLiteral : Spelling Style.treeLiteral where
  number _ := rfl
  word_chars := by simp [worded, Style.treeLiteral]
  word_final := by simp [worded, Style.treeLiteral, Number.isFinal]
  word_inj := by decide

theorem cases_of_not_isString {v : Value} (h : v.isString = false) :
    v ∈ worded ∨ ∃ n, v = .number n := by
  cases v with
  | nil => exact .inl (by decide)
  | bool b => cases b <;> exact .inl (by decide)
  | number n => exact .inr ⟨n, rfl⟩
  | string s => cases h

namespace Spelling

variable {spell : Value → String} (h : Spelling spell) {v w : Value} (hv : v.isString = false)

include h

theorem word_ne_text (hv : v ∈ worded) (n : Number) : spell v ≠ n.text := by
  intro heq
  obtain ⟨c, hc, hnot⟩ := h.word_final v hv
  obtain ⟨d, hd, hfinal⟩ := (Number.isNumeral_text n).final
  rw [heq, hd] at hc
  obtain rfl := Option.some.inj hc
  exact hnot hfinal

include hv

/-- **A value is told by its spelling**, a number up to its text. -/
theorem eq_iff (hw : w.isString = false) : spell v = spell w ↔ v.Alike w := by
  constructor
  · intro heq
    rcases cases_of_not_isString hv with hword | ⟨m, rfl⟩ <;>
      rcases cases_of_not_isString hw with hword' | ⟨n, rfl⟩
    · obtain rfl := h.word_inj v hword w hword' heq
      cases v with
      | nil => exact .nil
      | bool b => exact .bool b
      | number n => exact .number rfl
      | string s => cases hv
    · exact absurd (heq.trans (h.number n)) (h.word_ne_text hword n)
    · exact absurd (heq.symm.trans (h.number m)) (h.word_ne_text hword' m)
    · exact .number ((h.number m).symm.trans (heq.trans (h.number n)))
  · intro halike
    cases halike with
    | number htext => rw [h.number, h.number, htext]
    | _ => rfl

/-- Only letters, digits, points and signs stand in a spelling. -/
theorem notMem {c : Char} (hc : c.isAlphanum = false) (hmark : c ∉ ['.', '-', '+']) :
    c ∉ (spell v).toList := by
  intro hmem
  rcases cases_of_not_isString hv with hword | ⟨n, rfl⟩
  · rw [h.word_chars v hword c hmem] at hc
    cases hc
  · rw [h.number] at hmem
    rcases (Number.isNumeral_text n).chars c hmem with halnum | hother
    · rw [halnum] at hc
      cases hc
    · exact hmark hother

/-- A spelling ends with a letter or a digit, so no mark is one. -/
theorem ne_mark {mark : String} (hmark : mark.toList.getLast?.any Char.isAlphanum = false) :
    spell v ≠ mark := by
  rintro rfl
  rcases cases_of_not_isString hv with hword | ⟨n, rfl⟩
  · obtain ⟨c, hc, -⟩ := h.word_final v hword
    have halnum := h.word_chars v hword c (List.mem_of_getLast? hc)
    rw [hc] at hmark
    simp [halnum] at hmark
  · obtain ⟨c, hc, hfinal⟩ := (Number.isNumeral_text n).final
    rw [h.number, hc] at hmark
    simp [Number.isAlphanum_of_isFinal hfinal] at hmark

end Spelling

end Value

end Lox
