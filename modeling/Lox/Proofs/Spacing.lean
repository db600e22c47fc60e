import Lox.Proofs.Blanks

/-!
# Lexemes with spaces between them

A space ends every lexeme and is nothing by itself. So a text made of lexemes with single spaces
between them is scanned back to those lexemes, whatever they are: no two of them grow together, and
the characters inside a string are never taken for lexemes of their own.

- `IsLexeme`, `Lexes`: a text that is a lexeme, and the token it is scanned to.
- `heads_of_spaced`: a lexeme before a space is cut off whole.
- `cuts_spaced`: the cut of a text of lexemes with spaces between them.
- `scan_spaced`: the tokens of such a text; it has no errors.
-/

namespace Lox.Segment

/-- **The text is a lexeme.** -/
def IsLexeme (lexeme : String) : Prop :=
  ∃ form, form.isLexeme ∧ Belongs form lexeme.toList

/-- **The token of a lexeme**, on whatever line it stands. -/
def Lexes (lexeme : String) (t : Token) : Prop :=
  ∃ form, Belongs form lexeme.toList ∧ Denotes ⟨form, lexeme.toList⟩ t

theorem Belongs.form_unique {form form' : Form} {text : List Char} (h : Belongs form text)
    (h' : Belongs form' text) : form = form' := by
  obtain ⟨c, rest, rfl⟩ := h.exists_cons
  exact h.form_eq.symm.trans h'.form_eq

/-- The token of a lexeme whose class is known. -/
theorem Lexes.denotes {lexeme : String} {t : Token} (h : Lexes lexeme t) {form : Form}
    (hform : Belongs form lexeme.toList) : Denotes ⟨form, lexeme.toList⟩ t := by
  obtain ⟨form', hform', ht⟩ := h
  rwa [hform.form_unique hform']

/-! ### A space ends a lexeme -/

/-- Nothing follows, or a space. -/
def Spaced (rest : List Char) : Prop := rest = [] ∨ ∃ more, rest = ' ' :: more

theorem Spaced.solid_eq_nil {rest : List Char} (h : Spaced rest) : solid rest = [] := by
  rcases h with rfl | ⟨more, rfl⟩ <;> rfl

/-- **Before a space a lexeme is cut off whole.** -/
theorem heads_of_spaced {s : Segment} {rest : List Char} (h : Belongs s.form s.text)
    (hform : s.form.isLexeme) (hrest : Spaced rest) : Heads s rest := by
  have hother : ∀ form : Form, form.isLexeme = false → s.form ≠ form := by
    rintro form hno rfl
    rw [hform] at hno
    cases hno
  refine h.heads_nil.of_solid (hother _ rfl) ?_ fun hcomment => absurd hcomment (hother _ rfl)
  rw [hrest.solid_eq_nil]

/-! ### The cut of a text with spaces -/

/-- The segment between two lexemes. -/
def gap : Segment := ⟨.blank, [' ']⟩

theorem heads_gap (rest : List Char) : Heads gap rest := heads_blank rfl rest

theorem cuts_spaced : ∀ segments : List Segment,
    (∀ s ∈ segments, Belongs s.form s.text ∧ s.form.isLexeme) →
      Cuts ([' '].intercalate (segments.map Segment.text)) (segments.intersperse gap)
  | [], _ => .done
  | [s], h => by
    obtain ⟨hs, hform⟩ := h s List.mem_cons_self
    have hcuts := Cuts.next (heads_of_spaced hs hform (.inl rfl)) .done
    rw [List.append_nil] at hcuts
    rw [List.map_singleton, List.intercalate_singleton]
    exact hcuts
  | s :: s' :: segments, h => by
    obtain ⟨hs, hform⟩ := h s List.mem_cons_self
    have hrest := cuts_spaced (s' :: segments) fun t ht => h t (List.mem_cons_of_mem s ht)
    have hcuts := Cuts.next (heads_of_spaced hs hform (.inr ⟨_, rfl⟩))
      (Cuts.next (heads_gap _) hrest)
    rw [List.map_cons, List.map_cons, List.intercalate_cons_cons, List.append_assoc,
      List.intersperse_cons_cons]
    exact hcuts

theorem filter_intersperse {p : Segment → Bool} (hgap : p gap = false) :
    ∀ segments : List Segment, (segments.intersperse gap).filter p = segments.filter p
  | [] => rfl
  | [_] => rfl
  | s :: s' :: segments => by
    have hskip : ¬ p gap = true := by simp [hgap]
    rw [List.intersperse_cons_cons, List.filter_cons, List.filter_cons_of_neg hskip,
      filter_intersperse hgap (s' :: segments)]
    exact List.filter_cons.symm

theorem exists_segments {lexemes : List String} (h : ∀ l ∈ lexemes, IsLexeme l) :
    ∃ segments : List Segment, segments.map Segment.text = lexemes.map String.toList
      ∧ ∀ s ∈ segments, Belongs s.form s.text ∧ s.form.isLexeme := by
  induction lexemes with
  | nil => exact ⟨[], rfl, List.forall_mem_nil _⟩
  | cons l lexemes ih =>
    obtain ⟨form, hform, hl⟩ := h l List.mem_cons_self
    obtain ⟨segments, htexts, hall⟩ := ih fun l' hl' => h l' (List.mem_cons_of_mem l hl')
    refine ⟨⟨form, l.toList⟩ :: segments, ?_, List.forall_mem_cons.mpr ⟨⟨hl, hform⟩, hall⟩⟩
    rw [List.map_cons, List.map_cons, htexts]

theorem lexes_of_denotes {segments : List Segment} {lexemes : List String} {tokens : List Token}
    (htexts : segments.map Segment.text = lexemes.map String.toList)
    (hall : ∀ s ∈ segments, Belongs s.form s.text)
    (h : List.Forall₂ Denotes segments tokens) : List.Forall₂ Lexes lexemes tokens := by
  induction h generalizing lexemes with
  | nil =>
    obtain rfl := List.map_eq_nil_iff.mp htexts.symm
    exact .nil
  | @cons s t segments tokens hst _ ih =>
    obtain ⟨l, lexemes, rfl, hl, hrest⟩ := List.map_eq_cons_iff.mp htexts.symm
    refine .cons ?_ (ih hrest.symm fun s' hs' => hall s' (List.mem_cons_of_mem s hs'))
    have hs := hall s List.mem_cons_self
    rw [← hl] at hs
    exact ⟨s.form, hs, by rw [hl]; exact hst⟩

/-- **Lexemes with spaces between them are scanned back**, one token for each and no error. -/
theorem scan_spaced {lexemes : List String} (h : ∀ l ∈ lexemes, IsLexeme l) :
    ∃ tokens endLine, (scan (" ".intercalate lexemes)).tokens = tokens ++ [.eof endLine]
      ∧ List.Forall₂ Lexes lexemes tokens ∧ (scan (" ".intercalate lexemes)).errors = [] := by
  obtain ⟨segments, htexts, hall⟩ := exists_segments h
  have hcuts := cuts_spaced segments hall
  have htext : (" ".intercalate lexemes).toList = [' '].intercalate (segments.map Segment.text) := by
    rw [String.toList_intercalate, htexts]
    rfl
  have hcut : cut (" ".intercalate lexemes).toList = segments.intersperse gap := by
    rw [htext]
    exact (cuts_iff.mp hcuts).symm
  have hlexemes : (segments.intersperse gap).filter (·.form.isLexeme) = segments := by
    rw [filter_intersperse rfl]
    exact List.filter_eq_self.mpr fun s hs => (hall s hs).2
  have hfaulty : (segments.intersperse gap).filter (·.form.isFaulty) = [] := by
    rw [filter_intersperse rfl]
    refine List.filter_eq_nil_iff.mpr fun s hs => ?_
    have hform := (hall s hs).2
    generalize s.form = form at hform
    cases form <;> simp_all [Form.isLexeme, Form.isFaulty]
  have hdenotes := hcuts.denotes 1
  have hreports := hcuts.reports 1
  rw [hlexemes] at hdenotes
  rw [hfaulty] at hreports
  refine ⟨tokens 1 (segments.intersperse gap), lineAfter 1 (segments.intersperse gap), ?_, ?_, ?_⟩
  · simp only [scan, hcut]
  · exact lexes_of_denotes htexts (fun s hs => (hall s hs).1) hdenotes
  · simp only [scan, hcut]
    exact List.forall₂_nil_left_iff.mp hreports

end Lox.Segment
