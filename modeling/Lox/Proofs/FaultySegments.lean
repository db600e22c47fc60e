import Lox.Proofs.Lines

/-!
# Faulty segments

Scanning goes on behind a bad character as if there were a blank in its place, so bad characters
neither lose nor make tokens. A string without its closing quote ends the text, so there is at most
one, and what stands before its opening quote is scanned as if the text ended there.

- `Segment.blanked`, `blanked`: a segment and a text with a space in place of each bad character.
- `Segment.Covers`: what that does to a single character.
- `Segment.Cuts.blanked`: the text is cut at the same places as before.
- `Segment.Cuts.open_cases`: only the last segment can be a string that is left open.
- `LeavesOpen`, `scan_of_leavesOpen`: the tokens and errors of a text that ends with such a string.
- `scan_blanked`: what faulty segments leave of a text.
-/

namespace Lox

/-- The error says that a string is left open. -/
def ScanError.isUnterminated (e : ScanError) : Bool := e.cause == .unterminatedString

namespace Segment

/-! ### Bad characters replaced -/

/-- **The segment with a space in place of a bad character.** -/
def blanked (s : Segment) : Segment :=
  match s.form with
  | .bad _ => ⟨.blank, [' ']⟩
  | _ => s

theorem Belongs.blanked_eq {s : Segment} (h : Belongs s.form s.text) : s.blanked = s := by
  unfold blanked
  split
  · next c hform =>
    rw [hform] at h
    cases h
  · rfl

theorem Belongs.ne_unterminated {form : Form} {text : List Char} (h : Belongs form text) :
    form ≠ .unterminated := by
  rintro rfl
  cases h

/-- **What stands in the place of a character**: the character itself or, if it ends no line, a
space. -/
def Covers (c c' : Char) : Prop := c' = c ∨ c' = ' ' ∧ c ≠ '\n'

theorem covers_refl (text : List Char) : List.Forall₂ Covers text text :=
  List.forall₂_same.mpr fun _ _ => .inl rfl

/-- Up to the first blank nothing was replaced. -/
theorem solid_of_covers {text text' : List Char} (h : List.Forall₂ Covers text text') :
    solid text' <+: text := by
  induction h with
  | nil => exact List.nil_prefix
  | @cons c c' text text' hc _ ih =>
    by_cases hblank : isBlank c'
    · have hnil : solid (c' :: text') = [] := by simp [solid, hblank]
      rw [hnil]
      exact List.nil_prefix
    · have hcons : solid (c' :: text') = c' :: solid text' := by simp [solid, hblank]
      rcases hc with rfl | ⟨rfl, -⟩
      · rw [hcons]
        exact List.cons_prefix_cons.mpr ⟨rfl, ih⟩
      · exact absurd rfl hblank

theorem EndsLine.of_covers {text text' : List Char} (h : EndsLine text)
    (hcovers : List.Forall₂ Covers text text') : EndsLine text' := by
  cases hcovers with
  | nil => exact h
  | @cons c c' text text' hc _ =>
    have hnewline : c = '\n' := h c rfl
    rcases hc with rfl | ⟨-, hne⟩
    · exact h
    · exact absurd hnewline hne

/-- A line end is never a bad character. -/
theorem Heads.covers {s : Segment} {rest : List Char} (h : Heads s rest) :
    List.Forall₂ Covers s.text s.blanked.text := by
  cases h with
  | longest hbelongs _ =>
    rw [Belongs.blanked_eq hbelongs]
    exact covers_refl _
  | unterminated _ => exact covers_refl _
  | @bad c _ hnone =>
    refine .cons (.inr ⟨rfl, ?_⟩) .nil
    rintro rfl
    exact hnone .blank [] (.blank (by decide))

theorem Cuts.covers {text : List Char} {segments : List Segment} (h : Cuts text segments) :
    List.Forall₂ Covers text (segments.flatMap fun s => s.blanked.text) := by
  induction h with
  | done => exact .nil
  | next hheads _ ih => exact List.rel_append hheads.covers ih

/-- **With its bad characters replaced a text is cut at the same places.** -/
theorem Cuts.blanked {text : List Char} {segments : List Segment} (h : Cuts text segments) :
    Cuts (segments.flatMap fun s => s.blanked.text) (segments.map Segment.blanked) := by
  induction h with
  | done => exact .done
  | @next s rest segments hheads hrest ih =>
    have hcovers := hrest.covers
    rw [List.flatMap_cons, List.map_cons]
    refine .next ?_ ih
    cases hheads with
    | longest hbelongs hlongest =>
      rw [Belongs.blanked_eq hbelongs]
      exact (Heads.longest hbelongs hlongest).of_solid hbelongs.ne_unterminated
        (solid_of_covers hcovers) fun _ hends => hends.of_covers hcovers
    | unterminated hbody =>
      -- nothing follows a string that is left open
      rw [List.forall₂_nil_left_iff.mp hcovers]
      exact .unterminated hbody
    | bad _ => exact heads_blank rfl _

/-! ### Tokens and errors of the replaced text -/

theorem token?_blanked (s : Segment) (line : Int) : s.blanked.token? line = s.token? line := by
  unfold blanked
  split
  · next c hform => simp [token?, hform]
  · rfl

theorem error?_blanked (s : Segment) (line : Int) :
    (s.blanked.error? line).toList = (s.error? line).toList.filter (·.isUnterminated) := by
  obtain ⟨form, text⟩ := s
  cases form <;> rfl

theorem Heads.newlines_blanked {s : Segment} {rest : List Char} (h : Heads s rest) :
    s.blanked.newlines = s.newlines := by
  have hcovers := h.covers
  unfold newlines
  generalize s.text = text at hcovers
  generalize s.blanked.text = text' at hcovers
  induction hcovers with
  | nil => rfl
  | @cons c c' _ _ hc _ ih =>
    rcases hc with rfl | ⟨rfl, hne⟩
    · rw [List.count_cons, List.count_cons, ih]
    · rw [List.count_cons_of_ne (by decide), List.count_cons_of_ne hne, ih]

section

variable {text : List Char} {segments : List Segment} (h : Cuts text segments) (line : Int)

include h

theorem Cuts.lineAfter_blanked :
    lineAfter line (segments.map Segment.blanked) = lineAfter line segments := by
  induction h generalizing line with
  | done => rfl
  | next hheads _ ih => rw [List.map_cons, lineAfter, lineAfter, hheads.newlines_blanked, ih]

theorem Cuts.tokens_blanked :
    tokens line (segments.map Segment.blanked) = tokens line segments := by
  induction h generalizing line with
  | done => rfl
  | next hheads _ ih =>
    rw [List.map_cons, tokens, tokens, hheads.newlines_blanked, token?_blanked, ih]

theorem Cuts.errors_blanked :
    errors line (segments.map Segment.blanked) = (errors line segments).filter (·.isUnterminated) := by
  induction h generalizing line with
  | done => rfl
  | next hheads _ ih =>
    rw [List.map_cons, errors, errors, hheads.newlines_blanked, error?_blanked, ih,
      List.filter_append]

end

/-! ### A string that is left open -/

/-- **Only the last segment can be a string that is left open.** -/
theorem Cuts.open_cases {text : List Char} {segments : List Segment} (h : Cuts text segments) :
    (∀ s ∈ segments, s.form ≠ .unterminated) ∨
      ∃ front body, segments = front ++ [⟨.unterminated, '"' :: body⟩] ∧ '"' ∉ body
        ∧ ∀ s ∈ front, s.form ≠ .unterminated := by
  induction h with
  | done => exact .inl (List.forall_mem_nil _)
  | @next s rest segments hheads hrest ih =>
    by_cases hform : s.form = .unterminated
    · cases hheads with
      | longest hbelongs _ => exact absurd hform hbelongs.ne_unterminated
      | bad _ => cases hform
      | @unterminated body hbody =>
        have hnil : segments = [] := by rw [cuts_iff.mp hrest, cut]
        rw [hnil]
        exact .inr ⟨[], body, rfl, hbody, List.forall_mem_nil _⟩
    · rcases ih with hall | ⟨front, body, rfl, hbody, hfront⟩
      · exact .inl (List.forall_mem_cons.mpr ⟨hform, hall⟩)
      · exact .inr ⟨s :: front, body, rfl, hbody, List.forall_mem_cons.mpr ⟨hform, hfront⟩⟩

theorem filter_isUnterminated_errors {segments : List Segment}
    (h : ∀ s ∈ segments, s.form ≠ .unterminated) (line : Int) :
    (errors line segments).filter (·.isUnterminated) = [] := by
  induction segments generalizing line with
  | nil => rfl
  | cons s segments ih =>
    obtain ⟨hs, hsegments⟩ := List.forall_mem_cons.mp h
    rw [errors, List.filter_append, ih hsegments, List.append_nil]
    unfold error?
    cases hform : s.form with
    | unterminated => exact absurd hform hs
    | _ => rfl

end Segment

open Segment

/-- **The source text with a space in place of each bad character.** -/
def blanked (source : String) : String :=
  String.ofList ((cut source.toList).flatMap fun s => s.blanked.text)

theorem cut_blanked (source : String) :
    cut (blanked source).toList = (cut source.toList).map Segment.blanked := by
  rw [blanked, String.toList_ofList]
  exact (cuts_iff.mp (cuts_cut source.toList).blanked).symm

/-- **A string of the source text is left open** behind the text `front`. -/
def LeavesOpen (source front : String) : Prop :=
  ∃ body : String, '"' ∉ body.toList ∧ source = front ++ "\"" ++ body
    ∧ cut source.toList = cut front.toList ++ [⟨.unterminated, '"' :: body.toList⟩]

/-- **What stands before a string that is left open is scanned as if it stood alone**, and the string
is the last error. -/
theorem scan_of_leavesOpen {source front : String} (h : LeavesOpen source front) :
    (scan source).lexemes = (scan front).lexemes
      ∧ (scan source).errors
        = (scan front).errors ++ [⟨(scan source).endLine, .unterminatedString, ""⟩] := by
  obtain ⟨body, hbody, -, hcut⟩ := h
  constructor
  · rw [lexemes_scan, lexemes_scan, hcut, tokens_append]
    exact List.append_nil _
  · simp only [scan, hcut, errors_append, lineAfter_append]
    rfl

theorem leavesOpen_cases (source : String) :
    (scan source).errors.filter (·.isUnterminated) = [] ∨
      ∃ front, LeavesOpen source front ∧ (scan front).errors.filter (·.isUnterminated) = [] := by
  have hcuts := cuts_cut source.toList
  rcases hcuts.open_cases with hall | ⟨front, body, hcut, hbody, hfront⟩
  · exact .inl (filter_isUnterminated_errors hall 1)
  · have htext := hcuts.flatten_text
    rw [hcut] at hcuts
    have hfrontCut := (cuts_iff.mp (hcuts.of_append hfront)).symm
    refine .inr ⟨String.ofList (front.map Segment.text).flatten, ⟨String.ofList body, ?_⟩, ?_⟩
    · rw [hcut, List.map_append, List.flatten_append] at htext
      simp only [String.toList_ofList, hfrontCut]
      refine ⟨hbody, ?_, hcut⟩
      rw [← String.toList_inj, ← htext]
      simp
    · rw [scan, String.toList_ofList, hfrontCut]
      exact filter_isUnterminated_errors hfront 1

/-- **What faulty segments leave of a text.** Its errors are those of its faulty segments in order.
With a space in place of each bad character it has the same tokens on the same lines, and of its
errors only the one about a string that is left open. There is at most one such error; it is the last
one, on the line of the end token, and the tokens are those of the text before the string. -/
theorem scan_blanked (source : String) :
    List.Forall₂ Reports ((cut source.toList).filter (·.form.isFaulty)) (scan source).errors
      ∧ (scan (blanked source)).tokens = (scan source).tokens
      ∧ (scan (blanked source)).errors = (scan source).errors.filter (·.isUnterminated)
      ∧ ((scan source).errors.filter (·.isUnterminated)).length ≤ 1
      ∧ ∀ e ∈ (scan source).errors, e.cause = .unterminatedString →
          (scan source).errors.getLast? = some e
            ∧ (scan source).tokens.getLast? = some (.eof e.line)
            ∧ ∃ front, LeavesOpen source front ∧ (scan source).lexemes = (scan front).lexemes := by
  have hcuts := cuts_cut source.toList
  refine ⟨hcuts.reports 1, ?_, ?_, ?_, fun e he hcause => ?_⟩
  · simp only [scan, cut_blanked, hcuts.tokens_blanked, hcuts.lineAfter_blanked]
  · simp only [scan, cut_blanked, hcuts.errors_blanked]
  · rcases leavesOpen_cases source with hnone | ⟨front, hopen, hnone⟩
    · rw [hnone]
      exact Nat.zero_le 1
    · rw [(scan_of_leavesOpen hopen).2, List.filter_append, hnone]
      exact Nat.le_refl 1
  · have hmem : e ∈ (scan source).errors.filter (·.isUnterminated) :=
      List.mem_filter.mpr ⟨he, beq_iff_eq.mpr hcause⟩
    rcases leavesOpen_cases source with hnone | ⟨front, hopen, hnone⟩
    · rw [hnone] at hmem
      cases hmem
    · obtain ⟨hlexemes, herrors⟩ := scan_of_leavesOpen hopen
      -- the error is the one that the open string adds
      rw [herrors, List.filter_append, hnone] at hmem
      obtain rfl := List.mem_singleton.mp hmem
      refine ⟨?_, ?_, front, hopen, hlexemes⟩
      · rw [herrors, List.getLast?_concat]
      · rw [tokens_scan, List.getLast?_concat]

/-- Bad characters between two operators and at the end of a line, before a string that is left open. -/
theorem scan_blanked_open_string :
    let e : ScanError := ⟨2, .unterminatedString, ""⟩
    blanked "!@=#\n\"a" = "! = \n\"a"
      ∧ (scan "! = \n\"a").tokens = (scan "!@=#\n\"a").tokens
      ∧ e ∈ (scan "!@=#\n\"a").errors ∧ (scan "! = \n\"a").errors = [e]
      ∧ (scan "!@=#\n\"a").tokens.getLast? = some (.eof 2)
      ∧ ∃ front, LeavesOpen "!@=#\n\"a" front := by
  intro e
  have hblanked : blanked "!@=#\n\"a" = "! = \n\"a" := by decide +kernel
  have he : e ∈ (scan "!@=#\n\"a").errors := by decide +kernel
  obtain ⟨-, htokens, herrors, -, hopen⟩ := scan_blanked "!@=#\n\"a"
  obtain ⟨-, hend, front, hfront, -⟩ := hopen e he rfl
  rw [hblanked] at htokens herrors
  refine ⟨hblanked, htokens, he, herrors.trans ?_, hend, front, hfront⟩
  decide +kernel

end Lox
