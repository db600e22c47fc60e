import Lox.Proofs.MaximalMunch

/-!
# Blanks end segments

Marks, numbers and words hold no blank, and a comment ends with its line. So whether a segment may
come first is decided by the text behind it up to the next blank, and by whether the line ends there;
what stands behind that can be changed at will.

- `solid`, `EndsLine`: the text up to the next blank, and the place where a line ends.
- `Belongs.extend_cases`: in what ways a text of a class can be the front of a longer one.
- `Heads.of_solid`: a segment that may come first may do so before another text, if the two texts
  agree up to the first blank of the other one.
- `Heads.append_newline`, `Heads.of_append`: a line end and more may follow, and the end of the text
  may be cut off.
- `Cuts.append_newline`, `Cuts.of_append`: the same for all segments of a text.
-/

namespace Lox.Segment

/-- **The text up to the first blank.** -/
def solid (text : List Char) : List Char := text.takeWhile fun c => !isBlank c

/-- **A line ends here**: nothing follows, or a line end. -/
def EndsLine (rest : List Char) : Prop := ∀ c ∈ rest.head?, c = '\n'

theorem prefix_solid {front rest : List Char} (hfront : front <+: rest)
    (h : ∀ c ∈ front, ¬ isBlank c) : front <+: solid rest := by
  obtain ⟨tail, rfl⟩ := hfront
  rw [solid, List.takeWhile_append_of_pos fun c hc => by simpa using h c hc]
  exact List.prefix_append front _

theorem solid_isPrefix (rest : List Char) : solid rest <+: rest := List.takeWhile_prefix _

/-! ### Classes and blanks -/

theorem not_isBlank_of_isDigit {c : Char} (h : c.isDigit) : ¬ isBlank c := fun hblank =>
  (not_isDigit_of_isBlank hblank).1 ((isDigit_eq c).trans h)

theorem not_isBlank_of_isWordPart {c : Char} (h : c.isAlphanum ∨ c = '_') : ¬ isBlank c := by
  intro hblank
  obtain ⟨hdigit, hstart⟩ := not_isDigit_of_isBlank hblank
  have hpart : isWordPart c := isWordPart_iff.mpr h
  rw [isWordPart, Bool.or_eq_true] at hpart
  exact hpart.elim hstart hdigit

/-- **Marks, numbers and words hold no blank.** -/
theorem Belongs.not_isBlank {form : Form} {text : List Char} (h : Belongs form text)
    (hform : form.isLexeme) (hstring : form ≠ .string) : ∀ c ∈ text, ¬ isBlank c := by
  cases h with
  | blank _ => cases hform
  | comment _ => cases hform
  | mark hspelling =>
    unfold spelling? at hspelling
    split at hspelling <;> cases hspelling <;> simp [isBlank]
  | string _ => exact absurd rfl hstring
  | whole _ hdigits => exact fun c hc => not_isBlank_of_isDigit (hdigits c hc)
  | fraction _ hdigits _ hdecimals =>
    simp only [List.forall_mem_append, List.forall_mem_cons]
    exact ⟨fun c hc => not_isBlank_of_isDigit (hdigits c hc), by decide,
      fun c hc => not_isBlank_of_isDigit (hdecimals c hc)⟩
  | word hstart hparts =>
    rw [List.forall_mem_cons]
    refine ⟨not_isBlank_of_isWordPart (hstart.imp_left fun h => ?_),
      fun c hc => not_isBlank_of_isWordPart (hparts c hc)⟩
    rw [Char.isAlphanum, h, Bool.true_or]

/-- What starts with a quote and belongs to a class is a string. -/
theorem Belongs.eq_string_of_quote {form : Form} {body : List Char}
    (h : Belongs form ('"' :: body)) :
    form = .string ∧ ∃ inner, '"' ∉ inner ∧ body = inner ++ ['"'] := by
  obtain ⟨inner, behind, rfl, hinner⟩ := List.eq_append_cons_of_mem h.mem_of_quote
  have hform := h.form_eq
  rw [first_of_closed hinner] at hform
  obtain rfl : .string = form := hform
  refine ⟨rfl, ?_⟩
  generalize htext : '"' :: (inner ++ '"' :: behind) = text at h
  cases h with
  | @string body hbody => exact ⟨body, hbody, (List.cons.inj htext).2⟩

/-- What starts with two slashes and belongs to a class is a comment. -/
theorem Belongs.eq_comment_of_slashes {form : Form} {body : List Char}
    (h : Belongs form ('/' :: '/' :: body)) : form = .comment := by
  have hform := h.form_eq
  rw [first_of_slashes] at hform
  exact hform.symm

theorem Belongs.comment_concat {text : List Char} (h : Belongs .comment text) {c : Char}
    (hc : c ≠ '\n') : Belongs .comment (text ++ [c]) := by
  cases h with
  | @comment body hbody =>
    refine .comment fun hmem => ?_
    rcases List.mem_append.mp hmem with hmem | hmem
    · exact hbody hmem
    · exact hc (List.mem_singleton.mp hmem).symm

/-- **How a text of a class can be the front of a longer one**: what is added holds no blank, or it
makes a comment of a slash, or it lengthens a comment on its line. -/
theorem Belongs.extend_cases {form other : Form} {text more : List Char} {c : Char}
    (h : Belongs form text) (hlonger : Belongs other (text ++ c :: more)) :
    (∀ d ∈ c :: more, ¬ isBlank d) ∨ (text = ['/'] ∧ c = '/') ∨ (form = .comment ∧ c ≠ '\n') := by
  obtain ⟨d, body, rfl⟩ := h.exists_cons
  have hplain : other.isLexeme → other ≠ .string → ∀ e ∈ c :: more, ¬ isBlank e :=
    fun hlexeme hstring e he =>
      hlonger.not_isBlank hlexeme hstring e (List.mem_append_right _ he)
  generalize htext : d :: body ++ c :: more = whole at hlonger
  cases hlonger with
  | blank _ =>
    -- a blank is a single character, and the front is not empty
    have hlength := congrArg List.length htext
    simp at hlength
  | @comment rest hrest =>
    cases body with
    | nil =>
      obtain ⟨rfl, hslash⟩ := List.cons.inj htext
      exact .inr (.inl ⟨rfl, (List.cons.inj hslash).1⟩)
    | cons e body =>
      simp only [List.cons_append, List.cons.injEq] at htext
      obtain ⟨rfl, rfl, rfl⟩ := htext
      refine .inr (.inr ⟨h.eq_comment_of_slashes, ?_⟩)
      rintro rfl
      exact hrest (List.mem_append_right body List.mem_cons_self)
  | @string rest hrest =>
    -- the front is a string with a closing quote of its own, and nothing can follow that
    rw [List.cons_append, List.cons.injEq] at htext
    obtain ⟨rfl, htext⟩ := htext
    obtain ⟨-, inner, -, rfl⟩ := h.eq_string_of_quote
    obtain ⟨init, last, hlast⟩ : ∃ init last, c :: more = init ++ [last] :=
      ⟨_, _, (List.dropLast_append_getLast (List.cons_ne_nil c more)).symm⟩
    rw [hlast, ← List.append_assoc] at htext
    obtain ⟨rfl, -⟩ := List.append_inj' htext rfl
    exact absurd (by simp) hrest
  | mark _ => exact .inl (hplain rfl fun h => nomatch h)
  | whole _ _ => exact .inl (hplain rfl fun h => nomatch h)
  | fraction _ _ _ _ => exact .inl (hplain rfl fun h => nomatch h)
  | word _ _ => exact .inl (hplain rfl fun h => nomatch h)

/-! ### What decides whether a segment may come first -/

theorem Belongs.heads_nil {s : Segment} (h : Belongs s.form s.text) : Heads s [] := by
  refine .longest h fun other longer _ hfront => ?_
  rw [List.append_nil] at hfront
  exact hfront.length_le

/-- A comment goes on to the end of its line. -/
theorem Heads.endsLine {text rest : List Char} (h : Heads ⟨.comment, text⟩ rest) :
    EndsLine rest := by
  cases h with
  | longest hbelongs hlongest =>
    intro c hc
    obtain ⟨more, rfl⟩ := List.head?_eq_some_iff.mp hc
    by_contra hne
    have hle := hlongest _ _ (hbelongs.comment_concat hne)
      ((List.prefix_append_right_inj text).mpr (List.cons_prefix_cons.mpr ⟨rfl, List.nil_prefix⟩))
    rw [List.length_append, List.length_singleton] at hle
    omega

/-- **The text behind a segment matters only up to its first blank**: a segment may come first
before `rest'` if it may before `rest`, and `rest'` up to its first blank is the front of `rest`.
Before `rest'` a line must end if a comment comes first. -/
theorem Heads.of_solid {s : Segment} {rest rest' : List Char} (h : Heads s rest)
    (hform : s.form ≠ .unterminated) (hsolid : solid rest' <+: rest)
    (hline : s.form = .comment → EndsLine rest → EndsLine rest') : Heads s rest' := by
  have hends : s.form = .comment → EndsLine rest' := by
    intro hcomment
    obtain ⟨form, text⟩ := s
    obtain rfl : form = .comment := hcomment
    exact hline rfl h.endsLine
  cases h with
  | unterminated _ => exact absurd rfl hform
  | bad hnone => exact .bad hnone
  | @longest form text _ hbelongs hlongest =>
    refine .longest hbelongs fun other longer hlonger hfront => ?_
    by_contra hlt
    -- a longer text goes on behind the segment with characters of `rest'`
    have hle : text.length ≤ longer.length := by omega
    obtain ⟨added, rfl⟩ := List.prefix_of_prefix_length_le (List.prefix_append text rest') hfront hle
    have hadded : added <+: rest' := (List.prefix_append_right_inj text).mp hfront
    cases added with
    | nil => simp at hlt
    | cons c more =>
      rcases hbelongs.extend_cases hlonger with hsolid' | ⟨rfl, rfl⟩ | ⟨hcomment, hc⟩
      · -- without a blank, they are the front of `rest` too
        have hrest : c :: more <+: rest := (prefix_solid hadded hsolid').trans hsolid
        exact hlt (hlongest _ _ hlonger ((List.prefix_append_right_inj text).mpr hrest))
      · -- two slashes are a comment before either text
        have hslash : ['/'] <+: rest' :=
          (List.cons_prefix_cons.mpr ⟨rfl, List.nil_prefix⟩ : ['/'] <+: '/' :: more).trans hadded
        have hrest : ['/'] <+: rest := (prefix_solid hslash (by simp [isBlank])).trans hsolid
        have hcomment : Belongs .comment ['/', '/'] := .comment List.not_mem_nil
        have hle := hlongest _ _ hcomment ((List.prefix_append_right_inj ['/']).mpr hrest)
        simp at hle
      · obtain ⟨tail, rfl⟩ := hadded
        exact hc (hends hcomment c rfl)

theorem heads_blank {c : Char} (hc : isBlank c) (rest : List Char) :
    Heads ⟨.blank, [c]⟩ rest := by
  have hheads := heads_first c rest
  rwa [first_of_isBlank hc] at hheads

/-- **A line end and more may follow a segment**, if it is no string without its closing quote. -/
theorem Heads.append_newline {s : Segment} {rest : List Char} (h : Heads s rest)
    (hform : s.form ≠ .unterminated) (more : List Char) : Heads s (rest ++ '\n' :: more) := by
  refine h.of_solid hform ?_ fun _ hends => ?_
  · -- the line end is a blank, so the text up to the first blank lies before it
    have hnil : solid ('\n' :: more) = [] := rfl
    rw [solid, List.takeWhile_append]
    split
    · rw [← solid, hnil, List.append_nil]
    · exact solid_isPrefix rest
  · cases rest with
    | nil => exact fun c hc => (Option.some.inj hc).symm
    | cons c rest => exact hends

/-- **The end of a text may be cut off** behind a segment. -/
theorem Heads.of_append {s : Segment} {rest tail : List Char} (h : Heads s (rest ++ tail))
    (hform : s.form ≠ .unterminated) : Heads s rest := by
  refine h.of_solid hform ((solid_isPrefix rest).trans (List.prefix_append rest tail)) fun _ hends => ?_
  cases rest with
  | nil => exact fun c hc => nomatch hc
  | cons c rest => exact hends

/-! ### All segments of a text -/

/-- **A line end is a segment between two texts**, and each of them is cut as if it stood alone. -/
theorem Cuts.append_newline {text behind : List Char} {segments more : List Segment}
    (h : Cuts text segments) (hforms : ∀ s ∈ segments, s.form ≠ .unterminated)
    (hbehind : Cuts behind more) :
    Cuts (text ++ '\n' :: behind) (segments ++ ⟨.blank, ['\n']⟩ :: more) := by
  induction h with
  | done => exact .next (heads_blank rfl behind) hbehind
  | @next s rest segments hheads _ ih =>
    obtain ⟨hs, hsegments⟩ := List.forall_mem_cons.mp hforms
    rw [List.append_assoc]
    exact .next (hheads.append_newline hs behind) (ih hsegments)

/-- **The first segments of a text are those of its front.** -/
theorem Cuts.of_append {text : List Char} {segments more : List Segment}
    (h : Cuts text (segments ++ more)) (hforms : ∀ s ∈ segments, s.form ≠ .unterminated) :
    Cuts (segments.map Segment.text).flatten segments := by
  induction segments generalizing text with
  | nil => exact .done
  | cons s segments ih =>
    obtain ⟨hs, hsegments⟩ := List.forall_mem_cons.mp hforms
    rw [List.cons_append] at h
    cases h with
    | next hheads hrest =>
      have htexts := hrest.flatten_text
      rw [List.map_append, List.flatten_append] at htexts
      rw [← htexts] at hheads
      exact .next (hheads.of_append hs) (ih hrest hsegments)

end Lox.Segment
