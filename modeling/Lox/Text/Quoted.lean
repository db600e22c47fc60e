import Lox.Text.Printable

/-!
# Quoted text

How text is shown between quotes in diagnostics, token dumps and log lines. Printable characters
stand for themselves; the quote in use and the backslash get a backslash in front; a few controls
have a letter of their own; every other character is written by its number in two, four or eight
hexadecimal digits. A backslash therefore always starts an escape, and a quoted text ends at its
first quote that is not escaped.

* `Quoted.escape`: how one character is written.
* `Quoted.string`, `Quoted.char`: text in double quotes, a character in single quotes.
-/

namespace Lox.Text.Quoted

/-- `n` in lower-case hexadecimal, filled with zeros up to `width` digits. -/
def hex (width n : Nat) : List Char :=
  let digits := Nat.toDigits 16 n
  List.replicate (width - digits.length) '0' ++ digits

/-- The letter that names a control character after a backslash. -/
def controlLetter? (c : Char) : Option Char :=
  match c.toNat with
  | 0x07 => some 'a'
  | 0x08 => some 'b'
  | 0x09 => some 't'
  | 0x0A => some 'n'
  | 0x0B => some 'v'
  | 0x0C => some 'f'
  | 0x0D => some 'r'
  | _ => none

/-- A character that is not printable, by its number: two digits for the controls of the first
half of the byte range, four up to the end of the basic plane, eight beyond. -/
def numericEscape (c : Char) : List Char :=
  let n := c.toNat
  if n < 0x20 || n == 0x7F then '\\' :: 'x' :: hex 2 n
  else if n < 0x10000 then '\\' :: 'u' :: hex 4 n
  else '\\' :: 'U' :: hex 8 n

/-- **How one character is written** between two `quote`s. -/
def escape (quote c : Char) : List Char :=
  if c == quote || c == '\\' then ['\\', c]
  else if isPrintable c then [c]
  else match controlLetter? c with
    | some letter => ['\\', letter]
    | none => numericEscape c

/-- Text between `quote`s. -/
def between (quote : Char) (s : List Char) : List Char :=
  quote :: (s.flatMap (escape quote) ++ [quote])

/-- **Text in double quotes.** -/
def string (s : String) : String :=
  String.ofList (between '"' s.toList)

/-- **A character in single quotes.** -/
def char (c : Char) : String :=
  String.ofList (between '\x27' [c])

end Lox.Text.Quoted
