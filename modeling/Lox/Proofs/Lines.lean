import Lox.Proofs.Blanks
import Lox.Text.Utf8

/-!
# Lines and line ends

The line of a token or an error is the line on which the text starts and the number of line ends up
to its place. So segments that start further down give the same tokens and errors further down, and
a line end between two texts keeps them apart: scanning both in one gives what scanning each gives,
the second one moved down.

- `Segment.tokens_append`, `Segment.errors_append`, `Segment.lineAfter_append`: segments in two parts.
- `Segment.lineAfter_cut`: the line on which a text ends.
- `Token.movedBy`, `ScanError.movedBy`: some lines further down; `Segment.tokens_movedBy` and
  `Segment.errors_movedBy`: segments that start there.
- `Scan.lexemes`: the tokens short of the end token.
- `scan_append_line`: two texts with a line end between them.
-/

namespace Lox

/-- **The token some lines further down.** -/
def Token.movedBy (t : Token) (lines : Nat) : Token := { t with line := t.line + lines }

/-- **The error some lines further down.** -/
def ScanError.movedBy (e : ScanError) (lines : Nat) : ScanError := { e with line := e.line + lines }

namespace Segment

/-! ### Segments in two parts -/

section

variable (line : Int) (front back : List Segment)

theorem lineAfter_append :
    lineAfter line (front ++ back) = lineAfter (lineAfter line front) back := by
  induction front generalizing line with
  | nil => rfl
  | cons s front ih => exact ih _

theorem tokens_append :
    tokens line (front ++ back) = tokens line front ++ tokens (lineAfter line front) back := by
  induction front generalizing line with
  | nil => rfl
  | cons s front ih => rw [List.cons_append, tokens, ih, tokens, List.append_assoc, lineAfter]

theorem errors_append :
    errors line (front ++ back) = errors line front ++ errors (lineAfter line front) back := by
  induction front generalizing line with
  | nil => rfl
  | cons s front ih => rw [List.cons_append, errors, ih, errors, List.append_assoc, lineAfter]

end

/-- A segment's error is among the errors. -/
theorem mem_errors {segments : List Segment} {s : Segment} (hs : s ∈ segments) (line : Int) :
    ∃ ending, ∀ e ∈ s.error? ending, e ∈ errors line segments := by
  obtain ⟨front, back, rfl⟩ := List.append_of_mem hs
  refine ⟨lineAfter line front + s.newlines, fun e he => ?_⟩
  rw [errors_append, errors]
  exact List.mem_append_right _ (List.mem_append_left _ (Option.mem_toList.mpr he))

/-! ### Counting lines -/

/-- The line after segments is told by the line ends in them. -/
theorem lineAfter_eq_add (line : Int) (segments : List Segment) :
    lineAfter line segments = line + (segments.map Segment.text).flatten.count '\n' := by
  induction segments generalizing line with
  | nil => simp [lineAfter]
  | cons s segments ih =>
    rw [lineAfter, ih, List.map_cons, List.flatten_cons, List.count_append, newlines]
    omega

/-- **The line on which a text ends.** -/
theorem lineAfter_cut (line : Int) (text : List Char) :
    lineAfter line (cut text) = line + text.count '\n' := by
  rw [lineAfter_eq_add, (cuts_cut text).flatten_text]

section

variable (line : Int) (lines : Nat)

theorem token?_movedBy (s : Segment) :
    s.token? (line + lines) = (s.token? line).map (·.movedBy lines) := by
  unfold token?
  split <;> rfl

theorem error?_movedBy (s : Segment) :
    s.error? (line + lines) = (s.error? line).map (·.movedBy lines) := by
  unfold error?
  split <;> rfl

variable (segments : List Segment)

theorem lineAfter_add : lineAfter (line + lines) segments = lineAfter line segments + lines := by
  rw [lineAfter_eq_add, lineAfter_eq_add]
  omega

/-- **Segments that start further down have their tokens further down.** -/
theorem tokens_movedBy :
    tokens (line + lines) segments = (tokens line segments).map (·.movedBy lines) := by
  induction segments generalizing line with
  | nil => rfl
  | cons s segments ih =>
    rw [tokens, tokens, Int.add_right_comm, token?_movedBy, ih, List.map_append]
    cases s.token? (line + s.newlines) <;> rfl

theorem errors_movedBy :
    errors (line + lines) segments = (errors line segments).map (·.movedBy lines) := by
  induction segments generalizing line with
  | nil => rfl
  | cons s segments ih =>
    rw [errors, errors, Int.add_right_comm, error?_movedBy, ih, List.map_append]
    cases s.error? (line + s.newlines) <;> rfl

end

end Segment

open Segment

/-! ### The tokens of a scan -/

/-- **The tokens of a scan without its end token.** -/
def Scan.lexemes (s : Scan) : List Token := s.tokens.filter (·.kind != .eof)

theorem Scan.kind_ne_eof_of_mem_lexemes {s : Scan} : ∀ t ∈ s.lexemes, t.kind ≠ .eof :=
  fun _ ht => bne_iff_ne.mp (List.mem_filter.mp ht).2

theorem lexemes_scan (source : String) :
    (scan source).lexemes = Segment.tokens 1 (cut source.toList) := by
  have hkinds : ∀ t ∈ Segment.tokens 1 (cut source.toList), (t.kind != .eof) = true := by
    intro t ht
    have hdenotes := (cuts_cut source.toList).denotes 1
    obtain ⟨i, hi, rfl⟩ := List.getElem_of_mem ht
    exact bne_iff_ne.mpr (hdenotes.get (hdenotes.length_eq ▸ hi) hi).kind_ne_eof
  show (Segment.tokens 1 (cut source.toList) ++ [Token.eof _]).filter _ = _
  rw [List.filter_append, List.filter_eq_self.mpr hkinds]
  exact List.append_nil _

theorem tokens_scan (source : String) :
    (scan source).tokens = (scan source).lexemes ++ [.eof (scan source).endLine] := by
  rw [lexemes_scan]
  rfl

theorem endLine_scan (source : String) : (scan source).endLine = 1 + source.toList.count '\n' :=
  lineAfter_cut 1 source.toList

/-- Without an error that says so, no string lacks its closing quote. -/
theorem form_ne_unterminated {source : String}
    (h : ∀ e ∈ (scan source).errors, e.cause ≠ .unterminatedString) :
    ∀ s ∈ cut source.toList, s.form ≠ .unterminated := by
  intro s hs hform
  obtain ⟨ending, herror⟩ := mem_errors hs 1
  have hmem : ⟨ending, .unterminatedString, ""⟩ ∈ (scan source).errors :=
    herror _ (by rw [error?, hform]; rfl)
  exact h _ hmem rfl

/-! ### Two texts in one -/

/-- **A line end keeps two texts apart.** If no string of the first is left open, scanning both in
one gives the tokens of the first, then those of the second moved down by the lines of the first,
and so for the errors. It makes no difference whether the texts or their bytes are put together. -/
theorem scan_append_line (a b : String)
    (ha : ∀ e ∈ (scan a).errors, e.cause ≠ .unterminatedString) :
    let lines := 1 + a.toList.count '\n'
    (scan (a ++ "\n" ++ b)).tokens
        = (scan a).lexemes ++ (scan b).tokens.map (·.movedBy lines)
      ∧ (scan (a ++ "\n" ++ b)).errors
        = (scan a).errors ++ (scan b).errors.map (·.movedBy lines)
      ∧ ∀ front behind : List UInt8, Text.Utf8.decode front = a → Text.Utf8.decode behind = b →
          Text.Utf8.decode (front ++ 0x0A :: behind) = a ++ "\n" ++ b := by
  intro lines
  have htext : (a ++ "\n" ++ b).toList = a.toList ++ '\n' :: b.toList := by simp
  have hcut : cut (a ++ "\n" ++ b).toList
      = cut a.toList ++ ⟨.blank, ['\n']⟩ :: cut b.toList := by
    rw [htext]
    exact (cuts_iff.mp
      ((cuts_cut a.toList).append_newline (form_ne_unterminated ha) (cuts_cut b.toList))).symm
  -- the second text starts on the line behind the one on which the first ends
  have hstart : lineAfter 1 (cut a.toList) + newlines ⟨.blank, ['\n']⟩ = 1 + (lines : Nat) := by
    rw [lineAfter_cut]
    show (1 : Int) + _ + 1 = 1 + ((1 + _ : Nat) : Int)
    omega
  refine ⟨?_, ?_, ?_⟩
  · rw [lexemes_scan]
    simp only [scan, hcut, tokens_append, lineAfter_append, Segment.tokens, lineAfter, hstart,
      tokens_movedBy, lineAfter_add, List.map_append]
    exact List.append_assoc _ _ _
  · simp only [scan, hcut, errors_append, Segment.errors, hstart, errors_movedBy]
    rfl
  · rintro front behind rfl rfl
    exact Text.Utf8.decode_append_lineEnd front behind

/-- The first text ends with a quote in a comment, the second with one that nothing answers. -/
theorem scan_append_line_open_quote :
    let a := "@ 12. // \""
    let b := "!\n\""
    (∀ e ∈ (scan a).errors, e.cause ≠ .unterminatedString)
      ∧ (scan (a ++ "\n" ++ b)).tokens
        = [⟨.number, "12", "12", 1⟩, ⟨.dot, ".", "", 1⟩, ⟨.bang, "!", "", 2⟩, .eof 3]
      ∧ (scan (a ++ "\n" ++ b)).errors
        = [⟨1, .unexpectedCharacter, "'@'"⟩, ⟨3, .unterminatedString, ""⟩] := by
  intro a b
  have ha : ∀ e ∈ (scan a).errors, e.cause ≠ .unterminatedString := by decide +kernel
  obtain ⟨htokens, herrors, -⟩ := scan_append_line a b ha
  refine ⟨ha, htokens.trans ?_, herrors.trans ?_⟩ <;> decide +kernel

end Lox
