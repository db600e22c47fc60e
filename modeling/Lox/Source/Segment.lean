import Lox.Token.Basic

/-!
# Segments of source text

Source text is cut from left to right into segments, each the longest that can stand at its place:
a blank character, a comment up to its line's end, punctuation or an operator, a string, a number or
a word. A quote that no later quote answers takes all that is left, and a character that starts
nothing is a segment alone. Cutting loses nothing: the texts of the segments put together are the
source again.

* `Segment`, `Segment.Form`: a piece of source text and what it is.
* `Segment.first`: the first segment of a text that is not empty, and the text behind it.
* `Segment.cut`: all segments.
-/

namespace Lox

namespace Segment

/-- **What a segment is.** -/
inductive Form where
  /-- A character that separates and says nothing else. -/
  | blank
  /-- Two slashes and the rest of the line. -/
  | comment
  /-- Punctuation or an operator. -/
  | mark (kind : TokenKind)
  /-- A string with both its quotes. -/
  | string
  /-- A string that lacks its closing quote. -/
  | unterminated
  /-- Digits, perhaps with a point between them. -/
  | number
  /-- A letter or underscore, then letters, digits and underscores. -/
  | word
  /-- A character that starts none of these. -/
  | bad (c : Char)
  deriving DecidableEq, Repr

end Segment

/-- **A segment**: its form and its text. -/
structure Segment where
  form : Segment.Form
  text : List Char
  deriving DecidableEq, Repr

namespace Segment

/-- The characters that only separate. -/
def isBlank (c : Char) : Bool :=
  c == ' ' || c == '\r' || c == '\t' || c == '\n'

/-- A decimal digit. -/
def isDigit (c : Char) : Bool :=
  '0' ≤ c && c ≤ '9'

/-- A character that starts a word: a letter of the basic alphabet or an underscore. -/
def isWordStart (c : Char) : Bool :=
  ('a' ≤ c && c ≤ 'z') || ('A' ≤ c && c ≤ 'Z') || c == '_'

/-- A character that continues a word. -/
def isWordPart (c : Char) : Bool :=
  isWordStart c || isDigit c

/-- The punctuation and operators of one character. -/
def single? (c : Char) : Option TokenKind :=
  match c with
  | '(' => some .leftParen
  | ')' => some .rightParen
  | '{' => some .leftBrace
  | '}' => some .rightBrace
  | ',' => some .comma
  | '.' => some .dot
  | '-' => some .minus
  | '+' => some .plus
  | ';' => some .semicolon
  | '*' => some .star
  | '/' => some .slash
  | '!' => some .bang
  | '=' => some .equal
  | '<' => some .less
  | '>' => some .greater
  | _ => none

/-- The operators that an equals sign lengthens. -/
def withEqual? (c : Char) : Option TokenKind :=
  match c with
  | '!' => some .bangEqual
  | '=' => some .equalEqual
  | '<' => some .lessEqual
  | '>' => some .greaterEqual
  | _ => none

/-- The text of a number that starts with the digit `c`, and what follows it. A point belongs to
the number only if a digit follows the point. -/
def numberText (c : Char) (rest : List Char) : List Char × List Char :=
  let whole := c :: rest.takeWhile isDigit
  match rest.dropWhile isDigit with
  | '.' :: d :: more =>
    if isDigit d then (whole ++ '.' :: d :: more.takeWhile isDigit, more.dropWhile isDigit)
    else (whole, '.' :: d :: more)
  | more => (whole, more)

/-- **The first segment** of the text `c :: rest`, and the text behind it. -/
def first (c : Char) (rest : List Char) : Segment × List Char :=
  if isBlank c then
    (⟨.blank, [c]⟩, rest)
  else if c == '"' then
    match rest.dropWhile (· != '"') with
    | [] => (⟨.unterminated, c :: rest⟩, [])
    | quote :: behind => (⟨.string, c :: (rest.takeWhile (· != '"') ++ [quote])⟩, behind)
  else if c == '/' && rest.head? == some '/' then
    (⟨.comment, c :: rest.takeWhile (· != '\n')⟩, rest.dropWhile (· != '\n'))
  else if isDigit c then
    (⟨.number, (numberText c rest).1⟩, (numberText c rest).2)
  else if isWordStart c then
    (⟨.word, c :: rest.takeWhile isWordPart⟩, rest.dropWhile isWordPart)
  else match withEqual? c, rest with
    | some kind, '=' :: behind => (⟨.mark kind, [c, '=']⟩, behind)
    | _, _ =>
      match single? c with
      | some kind => (⟨.mark kind, [c]⟩, rest)
      | none => (⟨.bad c, [c]⟩, rest)

/-! ### Cutting loses nothing -/

theorem numberText_append (c : Char) (rest : List Char) :
    (numberText c rest).1 ++ (numberText c rest).2 = c :: rest := by
  unfold numberText
  have hrest := List.takeWhile_append_dropWhile (p := isDigit) (l := rest)
  split
  · next d more h =>
    rw [h] at hrest
    split
    · simp only [List.append_assoc, List.cons_append, List.takeWhile_append_dropWhile]
      rw [hrest]
    · simp only [List.cons_append, hrest]
  · next more _ => simp only [List.cons_append, hrest]

/-- The first segment and the text behind it are the text. -/
theorem first_append (c : Char) (rest : List Char) :
    (first c rest).1.text ++ (first c rest).2 = c :: rest := by
  unfold first
  split
  · rfl
  split
  · have hrest := List.takeWhile_append_dropWhile (p := (· != '"')) (l := rest)
    split
    · simp
    · next quote behind h =>
      rw [h] at hrest
      simpa using hrest
  split
  · simp
  split
  · exact numberText_append c rest
  split
  · simp
  split
  · rfl
  · split <;> rfl

/-- A segment is never empty. -/
theorem first_text_ne_nil (c : Char) (rest : List Char) : (first c rest).1.text ≠ [] := by
  unfold first numberText
  repeat' split
  all_goals simp

/-- What follows the first segment is shorter than the text. -/
theorem first_length_lt (c : Char) (rest : List Char) :
    (first c rest).2.length < (c :: rest).length := by
  have happ := congrArg List.length (first_append c rest)
  have hpos := List.length_pos_iff.mpr (first_text_ne_nil c rest)
  rw [List.length_append] at happ
  omega

/-- **All segments of a text**, from left to right. -/
def cut : List Char → List Segment
  | [] => []
  | c :: rest => (first c rest).1 :: cut (first c rest).2
  termination_by text => text.length
  decreasing_by exact first_length_lt c rest

/-- The number of line ends in a segment. -/
def newlines (s : Segment) : Nat :=
  s.text.count '\n'

end Segment

end Lox
