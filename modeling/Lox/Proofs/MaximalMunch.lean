import Mathlib.Data.List.Forall2
import Mathlib.Data.List.Infix
import Mathlib.Data.List.TakeWhile
import Lox.Source.Scan

/-!
# Longest segments

The classes of segments are given here as sets of texts, and a cut of a source text as any way to
take from its front, again and again, the longest text of a class. There is one cut, the scanner
makes it, and the tokens and errors of a scan are those of its segments.

- `Belongs`: the texts of each class, the spellings of marks and the shapes of literals and words.
- `Heads`, `Cuts`: the longest segment first; source text cut into such segments.
- `length_le_first`, `first_cases`: what the scanner cuts off first is the longest of any class.
- `heads_first`, `first_eq_of_heads`: it may come first, and nothing else may.
- `cuts_iff`: cutting makes the only cut.
- `Denotes`, `Reports`: the token and the error of a segment.
- `scan_by_longest_segments`: scanning is cutting, then telling the segments in order.
-/

namespace Lox.Segment

/-- **The spelling of punctuation or an operator**, `none` for a kind that is neither. -/
def spelling? : TokenKind → Option (List Char)
  | .leftParen => some ['(']
  | .rightParen => some [')']
  | .leftBrace => some ['{']
  | .rightBrace => some ['}']
  | .comma => some [',']
  | .dot => some ['.']
  | .minus => some ['-']
  | .plus => some ['+']
  | .semicolon => some [';']
  | .slash => some ['/']
  | .star => some ['*']
  | .bang => some ['!']
  | .bangEqual => some ['!', '=']
  | .equal => some ['=']
  | .equalEqual => some ['=', '=']
  | .greater => some ['>']
  | .greaterEqual => some ['>', '=']
  | .less => some ['<']
  | .lessEqual => some ['<', '=']
  | _ => none

/-- **The texts of a class.** Text without its closing quote and a bad character belong to none. -/
inductive Belongs : Form → List Char → Prop where
  | blank {c : Char} : c ∈ [' ', '\r', '\t', '\n'] → Belongs .blank [c]
  | comment {body : List Char} : '\n' ∉ body → Belongs .comment ('/' :: '/' :: body)
  | mark {kind : TokenKind} {text : List Char} :
      spelling? kind = some text → Belongs (.mark kind) text
  | string {body : List Char} : '"' ∉ body → Belongs .string ('"' :: (body ++ ['"']))
  | whole {digits : List Char} :
      digits ≠ [] → (∀ d ∈ digits, d.isDigit) → Belongs .number digits
  | fraction {digits decimals : List Char} :
      digits ≠ [] → (∀ d ∈ digits, d.isDigit) → decimals ≠ [] → (∀ d ∈ decimals, d.isDigit) →
      Belongs .number (digits ++ '.' :: decimals)
  | word {c : Char} {rest : List Char} :
      (c.isAlpha ∨ c = '_') → (∀ d ∈ rest, d.isAlphanum ∨ d = '_') → Belongs .word (c :: rest)

/-- **A segment that may come first**, before the text `rest`: the longest that belongs to a class,
or all that is left behind a quote that nothing answers, or a character that starts nothing. -/
inductive Heads : Segment → List Char → Prop where
  | longest {form : Form} {text rest : List Char} :
      Belongs form text →
      (∀ other longer, Belongs other longer → longer <+: text ++ rest →
        longer.length ≤ text.length) →
      Heads ⟨form, text⟩ rest
  | unterminated {body : List Char} : '"' ∉ body → Heads ⟨.unterminated, '"' :: body⟩ []
  | bad {c : Char} {rest : List Char} :
      (∀ form text, ¬ Belongs form (c :: text)) → Heads ⟨.bad c, [c]⟩ rest

/-- **A cut of a source text**: segment after segment, each one that may come first. -/
inductive Cuts : List Char → List Segment → Prop where
  | done : Cuts [] []
  | next {s : Segment} {rest : List Char} {segments : List Segment} :
      Heads s rest → Cuts rest segments → Cuts (s.text ++ rest) (s :: segments)

/-! ### Character classes -/

theorem isBlank_iff {c : Char} : isBlank c ↔ c ∈ [' ', '\r', '\t', '\n'] := by
  simp [isBlank, or_assoc]

theorem isDigit_eq (c : Char) : isDigit c = c.isDigit := by
  simp only [isDigit, Char.isDigit, Char.le_def, ge_iff_le]

theorem isWordStart_iff {c : Char} : isWordStart c ↔ c.isAlpha ∨ c = '_' := by
  have halpha : c.isAlpha = (c.isUpper || c.isLower) := rfl
  have hupper : c.isUpper = (decide ('A' ≤ c) && decide (c ≤ 'Z')) := Bool.decide_and _ _
  have hlower : c.isLower = (decide ('a' ≤ c) && decide (c ≤ 'z')) := rfl
  rw [isWordStart, halpha, hupper, hlower, Bool.or_comm (decide ('A' ≤ c) && decide (c ≤ 'Z')),
    Bool.or_eq_true, beq_iff_eq]

theorem isWordPart_iff {c : Char} : isWordPart c ↔ c.isAlphanum ∨ c = '_' := by
  rw [isWordPart, Bool.or_eq_true, isWordStart_iff, isDigit_eq, Char.isAlphanum, Bool.or_eq_true]
  exact or_right_comm

/-- The two tables of the scanner hold the spellings, by length. -/
theorem spelling?_eq_some_iff {kind : TokenKind} {text : List Char} :
    spelling? kind = some text ↔
      (∃ c, text = [c] ∧ single? c = some kind) ∨
        ∃ c, text = [c, '='] ∧ withEqual? c = some kind := by
  constructor
  · intro h
    unfold spelling? at h
    split at h <;> cases h <;> first | exact .inl ⟨_, rfl, rfl⟩ | exact .inr ⟨_, rfl, rfl⟩
  · rintro (⟨c, rfl, h⟩ | ⟨c, rfl, h⟩)
    · unfold single? at h
      split at h <;> cases h <;> rfl
    · unfold withEqual? at h
      split at h <;> cases h <;> rfl

theorem not_isDigit_of_isBlank {c : Char} (h : isBlank c) : ¬ isDigit c ∧ ¬ isWordStart c := by
  rw [isBlank_iff] at h
  simp only [List.mem_cons, List.not_mem_nil, or_false] at h
  rcases h with rfl | rfl | rfl | rfl <;> decide

theorem not_isDigit_of_isWordStart {c : Char} (h : isWordStart c) : ¬ isDigit c := by
  intro hdigit
  simp only [isWordStart, isDigit, Char.le_def, UInt32.le_iff_toNat_le, Bool.or_eq_true,
    Bool.and_eq_true, decide_eq_true_eq, beq_iff_eq] at h hdigit
  have h9 : '9'.val.toNat = 57 := rfl
  have ha : 'a'.val.toNat = 97 := rfl
  have hA : 'A'.val.toNat = 65 := rfl
  rcases h with (h | h) | rfl
  · omega
  · omega
  · exact absurd hdigit (by decide)

/-! ### What the scanner cuts off first, by the first character -/

theorem first_of_isBlank {c : Char} (h : isBlank c) (rest : List Char) :
    first c rest = (⟨.blank, [c]⟩, rest) := by
  unfold first
  simp [h]

theorem first_of_closed {body behind : List Char} (h : '"' ∉ body) :
    first '"' (body ++ '"' :: behind) = (⟨.string, '"' :: (body ++ ['"'])⟩, behind) := by
  have hbody : ∀ c ∈ body, (c != '"') = true := by
    intro c hc
    exact bne_iff_ne.mpr fun heq => h (heq ▸ hc)
  have hblank : ¬ isBlank '"' := by decide
  unfold first
  simp [hblank, List.takeWhile_append_of_pos hbody, List.dropWhile_append_of_pos hbody]

theorem first_of_open {body : List Char} (h : '"' ∉ body) :
    first '"' body = (⟨.unterminated, '"' :: body⟩, []) := by
  have hbody : body.dropWhile (· != '"') = [] :=
    List.dropWhile_eq_nil_iff.mpr fun c hc => bne_iff_ne.mpr fun heq => h (heq ▸ hc)
  have hblank : ¬ isBlank '"' := by decide
  unfold first
  simp [hblank, hbody]

theorem first_of_slashes (body : List Char) :
    first '/' ('/' :: body) =
      (⟨.comment, '/' :: '/' :: body.takeWhile (· != '\n')⟩, body.dropWhile (· != '\n')) := by
  have hblank : ¬ isBlank '/' := by decide
  unfold first
  simp [hblank]

theorem first_of_isDigit {c : Char} (h : isDigit c) (rest : List Char) :
    first c rest = (⟨.number, (numberText c rest).1⟩, (numberText c rest).2) := by
  have hblank : ¬ isBlank c := fun hc => (not_isDigit_of_isBlank hc).1 h
  have hquote : c ≠ '"' := by
    rintro rfl
    exact absurd h (by decide)
  have hslash : c ≠ '/' := by
    rintro rfl
    exact absurd h (by decide)
  unfold first
  simp [h, hblank, hquote, hslash]

theorem first_of_isWordStart {c : Char} (h : isWordStart c) (rest : List Char) :
    first c rest = (⟨.word, c :: rest.takeWhile isWordPart⟩, rest.dropWhile isWordPart) := by
  have hblank : ¬ isBlank c := fun hc => (not_isDigit_of_isBlank hc).2 h
  have hquote : c ≠ '"' := by
    rintro rfl
    exact absurd h (by decide)
  have hslash : c ≠ '/' := by
    rintro rfl
    exact absurd h (by decide)
  unfold first
  simp [h, hblank, hquote, hslash, not_isDigit_of_isWordStart h]

theorem first_of_withEqual? {c : Char} {kind : TokenKind} (h : withEqual? c = some kind)
    (behind : List Char) : first c ('=' :: behind) = (⟨.mark kind, [c, '=']⟩, behind) := by
  unfold withEqual? at h
  split at h <;> cases h <;> rfl

/-! ### Numbers -/

theorem isDigit_of_mem_takeWhile {d : Char} {text : List Char} (h : d ∈ text.takeWhile isDigit) :
    d.isDigit :=
  isDigit_eq d ▸ List.mem_takeWhile_imp h

/-- Texts of one kind of character at the front of a text lie within its longest such front. -/
theorem length_le_takeWhile {p : Char → Bool} {front text : List Char} (hfront : front <+: text)
    (h : ∀ c ∈ front, p c) : front.length ≤ (text.takeWhile p).length := by
  obtain ⟨tail, rfl⟩ := hfront
  rw [List.takeWhile_append_of_pos h, List.length_append]
  omega

theorem belongs_numberText {c : Char} (h : isDigit c) (rest : List Char) :
    Belongs .number (numberText c rest).1 := by
  have hwhole : ∀ d ∈ c :: rest.takeWhile isDigit, d.isDigit := by
    intro d hd
    rcases List.mem_cons.mp hd with rfl | hd
    · exact isDigit_eq d ▸ h
    · exact isDigit_of_mem_takeWhile hd
  unfold numberText
  split
  · next d more _ =>
    split
    · next hd =>
      refine .fraction (by simp) hwhole (by simp) fun e he => ?_
      rcases List.mem_cons.mp he with rfl | he
      · exact isDigit_eq e ▸ hd
      · exact isDigit_of_mem_takeWhile he
    · exact .whole (by simp) hwhole
  · exact .whole (by simp) hwhole

/-- The digits before a point are never less than the whole of a number. -/
theorem length_whole_le_numberText (c : Char) (rest : List Char) :
    (rest.takeWhile isDigit).length < (numberText c rest).1.length := by
  unfold numberText
  split
  · split
    · simp only [List.length_append, List.length_cons]
      omega
    · simp
  · simp

/-- A number that continues behind a point is cut off whole. -/
theorem numberText_of_point {c d : Char} {digits more : List Char}
    (hdigits : ∀ e ∈ digits, isDigit e) (hd : isDigit d) :
    (numberText c (digits ++ '.' :: d :: more)).1 =
      c :: digits ++ '.' :: d :: more.takeWhile isDigit := by
  have hpoint : ¬ isDigit '.' := by decide
  simp [numberText, List.takeWhile_append_of_pos hdigits, List.dropWhile_append_of_pos hdigits,
    hpoint, hd]

theorem length_le_numberText {c : Char} {rest text : List Char} (h : Belongs .number text)
    (hfront : text <+: c :: rest) :
    isDigit c ∧ text.length ≤ (numberText c rest).1.length := by
  cases h with
  | whole hne hdigits =>
    obtain ⟨d, digits, rfl⟩ := List.exists_cons_of_ne_nil hne
    obtain ⟨rfl, hrest⟩ := List.cons_prefix_cons.mp hfront
    rw [List.forall_mem_cons] at hdigits
    refine ⟨(isDigit_eq d).trans hdigits.1, ?_⟩
    have hle := length_le_takeWhile (p := isDigit) hrest
      fun x hx => (isDigit_eq x).trans (hdigits.2 x hx)
    have hlt := length_whole_le_numberText d rest
    rw [List.length_cons]
    omega
  | @fraction whole decimals hne hdigits hne' hdecimals =>
    obtain ⟨d, digits, rfl⟩ := List.exists_cons_of_ne_nil hne
    obtain ⟨e, decimals, rfl⟩ := List.exists_cons_of_ne_nil hne'
    obtain ⟨tail, htail⟩ := hfront
    rw [List.cons_append, List.cons_append, List.cons.injEq] at htail
    obtain ⟨rfl, rfl⟩ := htail
    rw [List.forall_mem_cons] at hdigits hdecimals
    refine ⟨(isDigit_eq d).trans hdigits.1, ?_⟩
    -- the point stops the digits before it, so both parts are found where they are
    have hle := length_le_takeWhile (p := isDigit) (List.prefix_append decimals tail)
      fun x hx => (isDigit_eq x).trans (hdecimals.2 x hx)
    rw [List.append_assoc, List.cons_append, List.cons_append, List.cons_append,
      numberText_of_point (fun x hx => (isDigit_eq x).trans (hdigits.2 x hx))
        ((isDigit_eq e).trans hdecimals.1)]
    simp only [List.length_append, List.length_cons]
    omega

/-! ### The first segment is the longest -/

/-- **Nothing longer belongs to a class.** -/
theorem length_le_first {form : Form} {text rest : List Char} {c : Char} (h : Belongs form text)
    (hfront : text <+: c :: rest) : text.length ≤ (first c rest).1.text.length := by
  have hpos := List.length_pos_iff.mpr (first_text_ne_nil c rest)
  cases h with
  | blank _ => exact hpos
  | comment hbody =>
    -- a comment without a line end lies within the rest of the line
    obtain ⟨rfl, behind, rfl⟩ := List.cons_prefix_cons.mp hfront
    rw [List.cons_append, first_of_slashes]
    have hle := length_le_takeWhile (p := (· != '\n')) (List.prefix_append _ behind)
      fun d hd => bne_iff_ne.mpr fun heq => hbody (heq ▸ hd)
    simp only [List.length_cons]
    omega
  | mark hspelling =>
    rcases spelling?_eq_some_iff.mp hspelling with ⟨d, rfl, -⟩ | ⟨d, rfl, hd⟩
    · exact hpos
    · -- an equals sign behind the operator is always taken with it
      obtain ⟨rfl, behind, rfl⟩ := List.cons_prefix_cons.mp hfront
      rw [List.singleton_append, first_of_withEqual? hd]
  | string hbody =>
    -- the closing quote is the first one, since the body has none
    obtain ⟨behind, heq⟩ := hfront
    rw [List.cons_append, List.append_assoc, List.singleton_append, List.cons.injEq] at heq
    obtain ⟨rfl, rfl⟩ := heq
    rw [first_of_closed hbody]
  | whole hne hdigits =>
    obtain ⟨hc, hle⟩ := length_le_numberText (.whole hne hdigits) hfront
    rw [first_of_isDigit hc]
    exact hle
  | fraction hne hdigits hne' hdecimals =>
    obtain ⟨hc, hle⟩ := length_le_numberText (.fraction hne hdigits hne' hdecimals) hfront
    rw [first_of_isDigit hc]
    exact hle
  | word hstart hparts =>
    obtain ⟨rfl, hrest⟩ := List.cons_prefix_cons.mp hfront
    rw [first_of_isWordStart (isWordStart_iff.mpr hstart), List.length_cons, List.length_cons]
    exact Nat.succ_le_succ
      (length_le_takeWhile hrest fun d hd => isWordPart_iff.mpr (hparts d hd))

/-- A character at which no branch of the scanner starts, starts no text of any class. -/
theorem not_belongs_of_bad {c : Char} (hblank : ¬ isBlank c) (hquote : c ≠ '"')
    (hdigit : ¬ isDigit c) (hword : ¬ isWordStart c) (hmark : single? c = none) (form : Form)
    (text : List Char) : ¬ Belongs form (c :: text) := by
  intro h
  -- the text is a variable in the cases, so that its shape can be compared with each class
  generalize htext : c :: text = whole at h
  have hnumber : form ≠ .number := by
    rintro rfl
    have hself : whole <+: c :: text := htext ▸ List.prefix_rfl
    exact hdigit (length_le_numberText h hself).1
  cases h with
  | blank hc =>
    cases htext
    exact hblank (isBlank_iff.mpr hc)
  | comment _ =>
    cases htext
    cases hmark
  | mark hspelling =>
    rcases spelling?_eq_some_iff.mp hspelling with ⟨d, rfl, hd⟩ | ⟨d, rfl, hd⟩
    · cases htext
      rw [hmark] at hd
      cases hd
    · -- what an equals sign lengthens is an operator without it too
      cases htext
      unfold withEqual? at hd
      split at hd <;> cases hd <;> cases hmark
  | string _ =>
    cases htext
    exact hquote rfl
  | whole _ _ => exact hnumber rfl
  | fraction _ _ _ _ => exact hnumber rfl
  | word hstart _ =>
    cases htext
    exact hword (isWordStart_iff.mpr hstart)

/-- **What is cut off first is of a class**, or has no closing quote, or starts nothing. -/
theorem first_cases (c : Char) (rest : List Char) :
    Belongs (first c rest).1.form (first c rest).1.text ∨
      (∃ body, '"' ∉ body ∧ first c rest = (⟨.unterminated, '"' :: body⟩, [])) ∨
      first c rest = (⟨.bad c, [c]⟩, rest) ∧ ∀ form text, ¬ Belongs form (c :: text) := by
  unfold first
  split
  · next hblank => exact .inl (.blank (isBlank_iff.mp hblank))
  next hblank =>
  split
  · next hquote =>
    have hnone : '"' ∉ rest.takeWhile (· != '"') := fun h => by
      simpa using List.mem_takeWhile_imp h
    obtain rfl := eq_of_beq hquote
    split
    · next hrest =>
      have hall := List.dropWhile_eq_nil_iff.mp hrest
      exact .inr (.inl ⟨rest, fun h => by simpa using hall _ h, rfl⟩)
    · next quote behind hrest =>
      -- the characters before it were skipped because they are no quotes, and it was not
      have hclosing := List.head_dropWhile_not (· != '"') (l := rest) (by simp [hrest])
      obtain rfl : quote = '"' := by simpa [hrest] using hclosing
      exact .inl (.string hnone)
  next hquote =>
  split
  · next hslashes =>
    rw [Bool.and_eq_true, beq_iff_eq, beq_iff_eq] at hslashes
    obtain ⟨rfl, hhead⟩ := hslashes
    obtain ⟨body, rfl⟩ := List.head?_eq_some_iff.mp hhead
    exact .inl (.comment fun h => by simpa using List.mem_takeWhile_imp h)
  split
  · next hdigit => exact .inl (belongs_numberText hdigit rest)
  next hdigit =>
  split
  · next hword =>
    refine .inl (.word (isWordStart_iff.mp hword) fun d hd => ?_)
    exact isWordPart_iff.mp (List.mem_takeWhile_imp hd)
  next hword =>
  split
  · exact .inl (.mark (spelling?_eq_some_iff.mpr (.inr ⟨c, rfl, ‹withEqual? c = some _›⟩)))
  · split
    · next hmark => exact .inl (.mark (spelling?_eq_some_iff.mpr (.inl ⟨c, rfl, hmark⟩)))
    · next hmark =>
      refine .inr (.inr ⟨rfl, not_belongs_of_bad hblank ?_ hdigit hword hmark⟩)
      rintro rfl
      exact hquote rfl

/-- **The segment that is cut off first may come first.** -/
theorem heads_first (c : Char) (rest : List Char) : Heads (first c rest).1 (first c rest).2 := by
  rcases first_cases c rest with hbelongs | ⟨body, hbody, heq⟩ | ⟨heq, hnone⟩
  · refine .longest hbelongs fun other longer hlonger hfront => ?_
    rw [first_append] at hfront
    exact length_le_first hlonger hfront
  · rw [heq]
    exact .unterminated hbody
  · rw [heq]
    exact .bad hnone

theorem cuts_cut (text : List Char) : Cuts text (cut text) := by
  fun_induction cut text with
  | case1 => exact .done
  | case2 c rest ih =>
    have hcuts := Cuts.next (heads_first c rest) ih
    rwa [first_append] at hcuts

/-! ### There is only one cut -/

theorem Belongs.exists_cons {form : Form} {text : List Char} (h : Belongs form text) :
    ∃ c rest, text = c :: rest := by
  refine List.exists_cons_of_ne_nil ?_
  cases h with
  | mark hspelling =>
    rcases spelling?_eq_some_iff.mp hspelling with ⟨d, rfl, -⟩ | ⟨d, rfl, -⟩ <;> simp
  | whole hne _ => exact hne
  | _ => simp

/-- **A text belongs to one class only**, that of the segment cut off first when it stands alone. -/
theorem Belongs.form_eq {form : Form} {c : Char} {rest : List Char}
    (h : Belongs form (c :: rest)) : (first c rest).1.form = form := by
  generalize htext : c :: rest = text at h
  have hnumber : form = .number → (first c rest).1.form = form := by
    rintro rfl
    have hself : text <+: c :: rest := htext ▸ List.prefix_rfl
    rw [first_of_isDigit (length_le_numberText h hself).1]
  cases h with
  | blank hc =>
    cases htext
    rw [first_of_isBlank (isBlank_iff.mpr hc)]
  | comment _ =>
    cases htext
    rw [first_of_slashes]
  | mark hspelling =>
    unfold spelling? at hspelling
    split at hspelling <;> cases hspelling <;> cases htext <;> rfl
  | string hbody =>
    cases htext
    rw [first_of_closed hbody]
  | whole _ _ => exact hnumber rfl
  | fraction _ _ _ _ => exact hnumber rfl
  | word hstart _ =>
    cases htext
    rw [first_of_isWordStart (isWordStart_iff.mpr hstart)]

/-- A text that starts with a quote and belongs to a class holds a second quote. -/
theorem Belongs.mem_of_quote {form : Form} {body : List Char} (h : Belongs form ('"' :: body)) :
    '"' ∈ body := by
  by_contra hnone
  have hform := h.form_eq
  rw [first_of_open hnone] at hform
  obtain rfl : form = .unterminated := hform.symm
  cases h

/-- **Only one segment may come first.** -/
theorem first_eq_of_heads {s : Segment} {rest more : List Char} {c : Char} (h : Heads s rest)
    (htext : s.text ++ rest = c :: more) : first c more = (s, rest) := by
  have happend := first_append c more
  cases h with
  | longest hbelongs hlongest =>
    obtain ⟨d, body, rfl⟩ := hbelongs.exists_cons
    obtain ⟨rfl, hmore⟩ := List.cons.inj htext
    rcases first_cases d more with hfirst | ⟨tail, htail, heq⟩ | ⟨-, hnone⟩
    · -- each of the two is the longest, so they have one length and one text
      have hle := length_le_first hbelongs ⟨rest, htext⟩
      have hge := hlongest _ _ hfirst ⟨_, happend.trans htext.symm⟩
      obtain ⟨hsame, hrest⟩ := List.append_inj (happend.trans htext.symm) (hge.antisymm hle)
      rw [hsame] at hfirst
      have hform := hfirst.form_eq.symm.trans hbelongs.form_eq
      exact Prod.ext (congrArg₂ Segment.mk hform hsame) hrest
    · -- behind a quote that nothing answers there is no second quote
      rw [heq, List.append_nil] at happend
      obtain ⟨rfl, rfl⟩ := List.cons.inj happend
      have hquote := hbelongs.mem_of_quote
      exact absurd (hmore ▸ List.mem_append_left rest hquote) htail
    · exact absurd hbelongs (hnone _ _)
  | unterminated hbody =>
    rw [List.append_nil] at htext
    obtain ⟨rfl, rfl⟩ := List.cons.inj htext
    exact first_of_open hbody
  | @bad d _ hnone =>
    obtain ⟨rfl, rfl⟩ : d = c ∧ rest = more := List.cons.inj htext
    rcases first_cases d rest with hfirst | ⟨tail, htail, heq⟩ | ⟨heq, -⟩
    · -- a text of a class that starts with this character contradicts that there is none
      obtain ⟨d, body, hbody⟩ := hfirst.exists_cons
      rw [hbody] at happend hfirst
      obtain ⟨rfl, -⟩ := List.cons.inj happend
      exact absurd hfirst (hnone _ _)
    · rw [heq] at happend
      obtain ⟨rfl, -⟩ := List.cons.inj happend
      exact absurd (Belongs.string List.not_mem_nil) (hnone _ _)
    · exact heq

theorem Heads.text_ne_nil {s : Segment} {rest : List Char} (h : Heads s rest) : s.text ≠ [] := by
  cases h with
  | longest hbelongs _ =>
    obtain ⟨c, body, rfl⟩ := hbelongs.exists_cons
    exact List.cons_ne_nil c body
  | unterminated _ => exact List.cons_ne_nil _ _
  | bad _ => exact List.cons_ne_nil _ _

/-- **Cutting makes the only cut.** -/
theorem cuts_iff {text : List Char} {segments : List Segment} :
    Cuts text segments ↔ segments = cut text := by
  refine ⟨fun h => ?_, fun h => h ▸ cuts_cut text⟩
  induction h with
  | done => rw [cut]
  | @next s rest segments hheads _ ih =>
    cases htext : s.text ++ rest with
    | nil => exact absurd (List.append_eq_nil_iff.mp htext).1 hheads.text_ne_nil
    | cons c more => rw [cut, first_eq_of_heads hheads htext, ih]

theorem Cuts.flatten_text {text : List Char} {segments : List Segment} (h : Cuts text segments) :
    (segments.map Segment.text).flatten = text := by
  induction h with
  | done => rfl
  | next _ _ ih => rw [List.map_cons, List.flatten_cons, ih]

theorem Cuts.text_ne_nil {text : List Char} {segments : List Segment} (h : Cuts text segments) :
    ∀ s ∈ segments, s.text ≠ [] := by
  induction h with
  | done => exact List.forall_mem_nil _
  | next hheads _ ih => exact List.forall_mem_cons.mpr ⟨hheads.text_ne_nil, ih⟩

/-! ### Tokens and errors of segments -/

/-- The segments that become tokens. -/
def Form.isLexeme : Form → Bool
  | .mark _ | .string | .number | .word => true
  | _ => false

/-- The segments that become errors. -/
def Form.isFaulty : Form → Bool
  | .unterminated | .bad _ => true
  | _ => false

/-- **A token says what a segment is.** Its lexeme is the segment; a string stands for the text
between its quotes and a number for itself; a word is an identifier only if it is not reserved. -/
inductive Denotes : Segment → Token → Prop where
  | mark {kind : TokenKind} {text : List Char} {line : Int} : spelling? kind = some text →
      Denotes ⟨.mark kind, text⟩ ⟨kind, String.ofList text, "", line⟩
  | string {body : List Char} {line : Int} :
      Denotes ⟨.string, '"' :: (body ++ ['"'])⟩
        ⟨.string, String.ofList ('"' :: (body ++ ['"'])), String.ofList body, line⟩
  | number {text : List Char} {line : Int} :
      Denotes ⟨.number, text⟩ ⟨.number, String.ofList text, String.ofList text, line⟩
  | reserved {text : List Char} {kind : TokenKind} {line : Int} :
      TokenKind.keyword? (String.ofList text) = some kind →
      Denotes ⟨.word, text⟩ ⟨kind, String.ofList text, "", line⟩
  | identifier {text : List Char} {line : Int} :
      TokenKind.keyword? (String.ofList text) = none →
      Denotes ⟨.word, text⟩ ⟨.identifier, String.ofList text, "", line⟩

/-- **An error says what is wrong with a segment**; a bad character is quoted. -/
inductive Reports : Segment → ScanError → Prop where
  | unterminated {text : List Char} {line : Int} :
      Reports ⟨.unterminated, text⟩ ⟨line, .unterminatedString, ""⟩
  | bad {c : Char} {line : Int} :
      Reports ⟨.bad c, [c]⟩ ⟨line, .unexpectedCharacter, Text.Quoted.char c⟩

theorem mem_reservedWords {word : String} {kind : TokenKind}
    (h : TokenKind.keyword? word = some kind) : (word, kind) ∈ TokenKind.reservedWords := by
  obtain ⟨front, back, hwords, -⟩ := List.lookup_eq_some_iff.mp h
  simp [hwords]

theorem keyword?_ne_eof (word : String) : TokenKind.keyword? word ≠ some .eof := by
  intro h
  have hmem := mem_reservedWords h
  simp [TokenKind.reservedWords] at hmem

/-- No segment is an end token. -/
theorem Denotes.kind_ne_eof {s : Segment} {t : Token} (h : Denotes s t) : t.kind ≠ .eof := by
  cases h with
  | mark hspelling =>
    rintro rfl
    cases hspelling
  | string => exact TokenKind.noConfusion
  | number => exact TokenKind.noConfusion
  | reserved hword =>
    rintro rfl
    exact keyword?_ne_eof _ hword
  | identifier _ => exact TokenKind.noConfusion

theorem unquoted_quotes (body : List Char) : unquoted ('"' :: (body ++ ['"'])) = body := by
  rw [unquoted, List.drop_one, List.tail_cons, List.dropLast_concat]

/-- The token of a word. -/
theorem denotes_word (text : List Char) (line : Int) :
    Denotes ⟨.word, text⟩ ⟨.ofWord (String.ofList text), String.ofList text, "", line⟩ := by
  rw [TokenKind.ofWord]
  cases hword : TokenKind.keyword? (String.ofList text) with
  | none => exact .identifier hword
  | some kind => exact .reserved hword

/-- **A segment that may come first gives its token**, if it is a lexeme. -/
theorem Heads.denotes {s : Segment} {rest : List Char} (h : Heads s rest) (line : Int) :
    List.Forall₂ Denotes ([s].filter (·.form.isLexeme)) (s.token? line).toList := by
  cases h with
  | longest hbelongs _ =>
    cases hbelongs with
    | blank _ => exact .nil
    | comment _ => exact .nil
    | mark hspelling => exact .cons (.mark hspelling) .nil
    | @string body _ =>
      refine .cons ?_ .nil
      rw [unquoted_quotes]
      exact .string
    | whole _ _ => exact .cons .number .nil
    | fraction _ _ _ _ => exact .cons .number .nil
    | word _ _ => exact .cons (denotes_word _ line) .nil
  | unterminated _ => exact .nil
  | bad _ => exact .nil

/-- **A segment that may come first gives its error**, if something is wrong with it. -/
theorem Heads.reports {s : Segment} {rest : List Char} (h : Heads s rest) (line : Int) :
    List.Forall₂ Reports ([s].filter (·.form.isFaulty)) (s.error? line).toList := by
  cases h with
  | longest hbelongs _ => cases hbelongs <;> exact .nil
  | unterminated _ => exact .cons .unterminated .nil
  | bad _ => exact .cons .bad .nil

theorem Cuts.denotes {text : List Char} {segments : List Segment} (h : Cuts text segments)
    (line : Int) :
    List.Forall₂ Denotes (segments.filter (·.form.isLexeme)) (tokens line segments) := by
  induction h generalizing line with
  | done => exact .nil
  | @next s _ segments hheads _ ih =>
    rw [← List.singleton_append, List.filter_append]
    exact List.rel_append (hheads.denotes _) (ih _)

theorem Cuts.reports {text : List Char} {segments : List Segment} (h : Cuts text segments)
    (line : Int) :
    List.Forall₂ Reports (segments.filter (·.form.isFaulty)) (errors line segments) := by
  induction h generalizing line with
  | done => exact .nil
  | @next s _ segments hheads _ ih =>
    rw [← List.singleton_append, List.filter_append]
    exact List.rel_append (hheads.reports _) (ih _)

/-- **Scanning is cutting off the longest segment again and again.** The cut exists and is the only
one, its segments are not empty and make up the source, and the tokens and errors are those of its
lexemes and of its faulty segments, in order; one end token closes the tokens. -/
theorem scan_by_longest_segments (source : String) :
    ∃ segments lexemes endLine,
      (∀ cut, Cuts source.toList cut ↔ cut = segments) ∧
      (∀ s ∈ segments, s.text ≠ []) ∧ (segments.map Segment.text).flatten = source.toList ∧
      (scan source).tokens = lexemes ++ [Token.eof endLine] ∧
      List.Forall₂ Denotes (segments.filter (·.form.isLexeme)) lexemes ∧
      (∀ t ∈ lexemes, t.kind ≠ .eof) ∧
      List.Forall₂ Reports (segments.filter (·.form.isFaulty)) (scan source).errors := by
  have hcut := cuts_cut source.toList
  have hdenotes := hcut.denotes 1
  refine ⟨cut source.toList, tokens 1 (cut source.toList), lineAfter 1 (cut source.toList),
    fun _ => cuts_iff, hcut.text_ne_nil, hcut.flatten_text, rfl, hdenotes, fun t ht => ?_,
    hcut.reports 1⟩
  obtain ⟨i, hi, rfl⟩ := List.getElem_of_mem ht
  exact (hdenotes.get (hdenotes.length_eq ▸ hi) hi).kind_ne_eof

end Lox.Segment
