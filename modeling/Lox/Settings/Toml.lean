import Lox.Number.Reading
import Lox.Settings.Basic
import Lox.Text.CodePoint

/-!
# Settings in TOML

A settings document is a list of lines `key = value`, with comments behind `#`, and of section
headers in brackets. Keys are bare, or quoted like strings, and may have several parts with dots
between them. Values are strings in double quotes (with escapes) or single quotes (without), truth
values, numbers, arrays and inline tables. No key is given twice.

Only keys outside all sections are settings. Their names are matched without regard to case; other
keys are ignored, whatever their values.

* `Toml.Document`: the values by the full path of their keys, and the sections.
* `Toml.read?`: the document of a text.
* `Toml.overrides?`: the settings in it, `none` for a text that is no document or has a value of the
  wrong sort.
-/

namespace Lox.Settings.Toml

/-- **A document**: its values by path, latest first, and its sections. -/
structure Document where
  values : List (List String × Datum) := []
  sections : List (List String) := []
  deriving Repr, Inhabited

/-- A reader takes a value off the front of a text. -/
abbrev Reader (α : Type) := List Char → Option (α × List Char)

/-! ### Characters -/

/-- Space and tab. -/
def isBlank (c : Char) : Bool := c == ' ' || c == '\t'

/-- A control character other than tab and line end; it may stand nowhere, not even in a comment. -/
def isControl (c : Char) : Bool :=
  (c.toNat < 0x20 && c != '\t' && c != '\n') || c.toNat == 0x7F

/-- The text with plain line ends: a carriage return goes before a line end and stays elsewhere. -/
def plainLines : List Char → List Char
  | '\r' :: '\n' :: rest => '\n' :: plainLines rest
  | c :: rest => c :: plainLines rest
  | [] => []

/-- A character of a bare key. -/
def isBare (c : Char) : Bool := c.isAlphanum || c == '_' || c == '-'

/-! ### Strings -/

/-- A string in double quotes, behind its opening quote. -/
def basicString : Reader (List Char)
  | '"' :: rest => some ([], rest)
  | '\\' :: 'u' :: a :: b :: c :: d :: rest => do
    let ch ← Text.codePoint? [a, b, c, d]
    let (s, rest) ← basicString rest
    return (ch :: s, rest)
  | '\\' :: 'U' :: a :: b :: c :: d :: e :: f :: g :: h :: rest => do
    let ch ← Text.codePoint? [a, b, c, d, e, f, g, h]
    let (s, rest) ← basicString rest
    return (ch :: s, rest)
  | '\\' :: letter :: rest => do
    let ch ← [('b', '\x08'), ('t', '\t'), ('n', '\n'), ('f', '\x0c'), ('r', '\r'), ('"', '"'),
      ('\\', '\\')].lookup letter
    let (s, rest) ← basicString rest
    return (ch :: s, rest)
  | c :: rest => do
    if c == '\n' then none
    let (s, rest) ← basicString rest
    return (c :: s, rest)
  | [] => none

/-- A string in single quotes, behind its opening quote. -/
def literalString (text : List Char) : Option (List Char × List Char) :=
  let body := text.takeWhile (· != '\x27')
  match text.dropWhile (· != '\x27') with
  | [] => none
  | _ :: rest => if body.contains '\n' then none else some (body, rest)

/-! ### Keys -/

/-- One part of a key. -/
def keyPart : Reader String
  | '"' :: rest => (basicString rest).map fun (s, rest) => (String.ofList s, rest)
  | '\x27' :: rest => (literalString rest).map fun (s, rest) => (String.ofList s, rest)
  | text =>
    let name := text.takeWhile isBare
    if name.isEmpty then none else some (String.ofList name, text.dropWhile isBare)

/-- The parts of a key, dots between them, and the text behind the blanks that follow. -/
def key : (fuel : Nat) → Reader (List String)
  | 0, _ => none
  | fuel + 1, text => do
    let (part, rest) ← keyPart (text.dropWhile isBlank)
    match rest.dropWhile isBlank with
    | '.' :: rest =>
      let (parts, rest) ← key fuel rest
      return (part :: parts, rest)
    | rest => return ([part], rest)

/-! ### Values -/

/-- Decimal digits with underscores between them, without a zero in front of others. -/
def isWhole (text : List Char) : Bool :=
  !text.isEmpty && text.all (fun c => c.isDigit || c == '_')
    && Number.underscoresSeparate Char.isDigit false text
    && (text.head? != some '0' || text.length == 1)

/-- Decimal digits with underscores between them. -/
def isDigits (text : List Char) : Bool :=
  !text.isEmpty && text.all (fun c => c.isDigit || c == '_')
    && Number.underscoresSeparate Char.isDigit false text

/-- A text without its sign. -/
def unsigned : List Char → List Char
  | '+' :: rest => rest
  | '-' :: rest => rest
  | text => text

/-- An exponent with its mark, or nothing. -/
def isExponent : List Char → Bool
  | [] => true
  | _ :: rest => isDigits (unsigned rest)

/-- A whole number in 64 bits. -/
def isInteger (text : List Char) : Bool :=
  let body := unsigned text
  let size := Number.ofDigits 10 (body.filterMap Number.decimalDigit?)
  isWhole body && (size < Nat.pow 2 63 || (size == Nat.pow 2 63 && text.head? == some '-'))

/-- A number with a fraction, an exponent, or both. -/
def isFraction (text : List Char) : Bool :=
  let body := unsigned text
  let isMark := fun c : Char => c == 'e' || c == 'E'
  let mantissa := body.takeWhile (!isMark ·)
  let whole := mantissa.takeWhile (· != '.')
  isWhole whole && isExponent (body.dropWhile (!isMark ·))
    && match mantissa.dropWhile (· != '.') with
      | [] => mantissa.length < body.length
      | _ :: digits => isDigits digits

/-- A whole number in another base, behind the mark of the base. -/
def isBased (text : List Char) : Bool :=
  let inBase (base : Nat) (digits : List Char) : Bool :=
    let isDigit := fun c => match Number.hexDigit? c with
      | some d => d < base
      | none => false
    !digits.isEmpty && digits.all (fun c => isDigit c || c == '_')
      && Number.underscoresSeparate isDigit false digits
      && Number.ofDigits base (digits.filterMap Number.hexDigit?) < Nat.pow 2 63
  match text with
  | '0' :: 'x' :: digits => inBase 16 digits
  | '0' :: 'o' :: digits => inBase 8 digits
  | '0' :: 'b' :: digits => inBase 2 digits
  | _ => false

/-- A number of any form. -/
def isNumber (text : List Char) : Bool :=
  unsigned text == "inf".toList || unsigned text == "nan".toList
    || isInteger text || isFraction text || isBased text

/-- A truth value or a number: all characters up to one that cannot be part of it. -/
def bareValue (text : List Char) : Option (Datum × List Char) :=
  let isPart := fun c : Char => isBare c || c == '+' || c == '.'
  let word := text.takeWhile isPart
  let rest := text.dropWhile isPart
  if word == "true".toList then some (.flag true, rest)
  else if word == "false".toList then some (.flag false, rest)
  else if isNumber word then some (.other, rest)
  else none

/-- Blanks, line ends and comments, as they may stand between the items of an array. -/
def skipFiller : (fuel : Nat) → List Char → List Char
  | 0, text => text
  | fuel + 1, text =>
    match text.dropWhile (fun c => isBlank c || c == '\n') with
    | '#' :: rest => skipFiller fuel (rest.dropWhile (· != '\n'))
    | rest => rest

mutual

/-- A value. -/
def value : (fuel : Nat) → Reader Datum
  | 0, _ => none
  | _ + 1, '"' :: rest => (basicString rest).map fun (s, rest) => (.text (String.ofList s), rest)
  | _ + 1, '\x27' :: rest =>
    (literalString rest).map fun (s, rest) => (.text (String.ofList s), rest)
  | fuel + 1, '[' :: rest => (items fuel (skipFiller fuel rest)).map fun rest => (.other, rest)
  | fuel + 1, '{' :: rest =>
    match rest.dropWhile isBlank with
    | '}' :: rest => some (.other, rest)
    | rest => (pairs fuel [] rest).map fun rest => (.other, rest)
  | _ + 1, text => bareValue text

/-- The items of an array up to its closing bracket; a comma may follow the last one. -/
def items : (fuel : Nat) → List Char → Option (List Char)
  | 0, _ => none
  | _ + 1, ']' :: rest => some rest
  | fuel + 1, text => do
    let (_, rest) ← value fuel text
    match skipFiller fuel rest with
    | ',' :: rest => items fuel (skipFiller fuel rest)
    | ']' :: rest => some rest
    | _ => none

/-- The pairs of an inline table up to its closing brace, with the keys seen so far. -/
def pairs : (fuel : Nat) → List (List String) → List Char → Option (List Char)
  | 0, _, _ => none
  | fuel + 1, seen, text => do
    let (path, rest) ← key text.length text
    if seen.any fun s => s.isPrefixOf path || path.isPrefixOf s then none
    match rest with
    | '=' :: rest =>
      let (_, rest) ← value fuel (rest.dropWhile isBlank)
      match rest.dropWhile isBlank with
      | ',' :: rest => pairs fuel (path :: seen) rest
      | '}' :: rest => some rest
      | _ => none
    | _ => none

end

/-! ### Documents -/

/-- Adds a value. Its key must be new, and neither a table nor inside a value. -/
def Document.add? (d : Document) (path : List String) (v : Datum) : Option Document :=
  if d.values.any (fun (p, _) => p.isPrefixOf path || path.isPrefixOf p)
      || d.sections.any (fun s => path.isPrefixOf s) then none
  else some { d with values := (path, v) :: d.values }

/-- Opens a section. It must be new and not inside a value. -/
def Document.open? (d : Document) (path : List String) : Option Document :=
  if d.values.any (fun (p, _) => p.isPrefixOf path) || d.sections.contains path then none
  else some { d with sections := path :: d.sections }

/-- The text behind the end of a line on which nothing but a comment is left. -/
def lineEnd (text : List Char) : Option (List Char) :=
  match text.dropWhile isBlank with
  | [] => some []
  | '\n' :: rest => some rest
  | '#' :: rest => some (rest.dropWhile (· != '\n'))
  | _ => none

/-- The lines of a document from inside the section `here`. -/
def lines : (fuel : Nat) → (here : List String) → Document → List Char → Option Document
  | 0, _, _, _ => none
  | fuel + 1, here, d, text =>
    match text.dropWhile (fun c => isBlank c || c == '\n') with
    | [] => some d
    | '#' :: rest => lines fuel here d (rest.dropWhile (· != '\n'))
    | '[' :: rest => do
      let (path, rest) ← key rest.length rest
      match rest with
      | ']' :: rest => lines fuel path (← d.open? path) (← lineEnd rest)
      | _ => none
    | rest => do
      let (path, rest) ← key rest.length rest
      match rest with
      | '=' :: rest =>
        let (v, rest) ← value rest.length (rest.dropWhile isBlank)
        lines fuel here (← d.add? (here ++ path) v) (← lineEnd rest)
      | _ => none

/-- **The document of a text.** A byte order mark in front is passed over. -/
def read? (text : String) : Option Document :=
  let chars := plainLines (match text.toList with
    | '\uFEFF' :: rest => rest
    | chars => chars)
  if chars.any isControl then none else lines (chars.length + 1) [] {} chars

/-! ### Settings -/

/-- A letter without its case. Two letters outside the basic alphabet have a basic one as their
other case. -/
def foldCase (c : Char) : Char :=
  if c == '\u017F' then 's' else if c == '\u212A' then 'k' else c.toLower

/-- The field that a key names. -/
def field? (name : String) : Option Field :=
  (Field.names.find? fun f => f.1.toList == name.toList.map foldCase).map Prod.snd

/-- Adds what one path outside the sections says: a value, or that its first key is a table. -/
def addPath (o : Overrides) (path : List String) (v : Datum) : Option Overrides :=
  match path with
  | [] => some o
  | name :: inner =>
    match field? name with
    | none => some o
    | some f => o.set? f (if inner.isEmpty then v else .other)

/-- The settings of a document. -/
def Document.overrides? (d : Document) : Option Overrides := do
  let o ← d.values.reverse.foldlM (fun o (path, v) => addPath o path v) {}
  d.sections.foldlM (fun o path => addPath o path .other |>.map fun _ => o) o

/-- **The settings of a text.** -/
def overrides? (text : String) : Option Overrides :=
  (read? text).bind Document.overrides?

end Lox.Settings.Toml
