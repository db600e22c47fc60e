import Lox.Number.Basic

/-!
# Reading numbers

The texts a number literal may have: an optional sign, then decimal digits with at most one point
and an optional exponent of ten; or hexadecimal digits after `0x` with a mandatory exponent of two;
or a name of infinity or, without a sign, of the value that is not a number. Underscores may stand
between digits and after the prefix. A text of the right form always has a value: the nearest one,
infinity above the range, zero below it.

* `Number.read?`: the value of a text, `none` if it has none of the forms.
-/

namespace Lox.Number

/-- The value of a decimal digit. -/
def decimalDigit? (c : Char) : Option Nat :=
  if c.isDigit then some (c.toNat - '0'.toNat) else none

/-- The value of a hexadecimal digit of either case. -/
def hexDigit? (c : Char) : Option Nat :=
  let l := c.toLower
  if c.isDigit then some (c.toNat - '0'.toNat)
  else if 'a' ≤ l && l ≤ 'f' then some (l.toNat - 'a'.toNat + 10)
  else none

/-- The number that `digits` spell in `base`, most significant first. -/
def ofDigits (base : Nat) (digits : List Nat) : Nat :=
  digits.foldl (fun n d => n * base + d) 0

/-- **Underscores separate digits**: each one follows a digit and is followed by one. `afterDigit`
says whether a digit, or the prefix of a base, stands before the text. -/
def underscoresSeparate (isDigit : Char → Bool) : (afterDigit : Bool) → List Char → Bool
  | _, [] => true
  | afterDigit, '_' :: d :: rest => afterDigit && isDigit d && underscoresSeparate isDigit true rest
  | _, ['_'] => false
  | _, c :: rest => underscoresSeparate isDigit (isDigit c) rest

/-- The digits of a mantissa and how many of them follow the point. There is at least one digit and
at most one point; underscores are passed over. -/
def mantissa? (digit? : Char → Option Nat) (text : List Char) : Option (List Nat × Nat) := do
  let text := text.filter (· != '_')
  let fraction := (text.dropWhile (· != '.')).drop 1
  let digits ← (text.takeWhile (· != '.') ++ fraction).mapM digit?
  if digits.isEmpty then none else some (digits, fraction.length)

/-- The size of an exponent. Digits past ten thousand add nothing: no mantissa of a practical
length brings such an exponent back into range. -/
def exponentSize (digits : List Nat) : Nat :=
  digits.foldl (fun n d => if n < 10000 then n * 10 + d else n) 0

/-- An exponent: an optional sign, a digit, then digits and underscores. -/
def exponent? (text : List Char) : Option Int :=
  let (negative, body) :=
    match text with
    | '-' :: rest => (true, rest)
    | '+' :: rest => (false, rest)
    | _ => (false, text)
  match body with
  | [] => none
  | d :: rest => do
    let digits ← (d :: rest.filter (· != '_')).mapM decimalDigit?
    let size : Int := exponentSize digits
    return if negative then -size else size

/-- `mantissa * 10 ^ exponent`. Far outside the range the power is not formed. -/
def ofDecimal (negative : Bool) (mantissa : Nat) (exponent : Int) : Number :=
  let magnitude : Int := (Nat.toDigits 10 mantissa).length + exponent
  if mantissa == 0 || magnitude < -330 then .finite negative 0
  else if 310 < magnitude then .infinite negative
  else
    ofRatio negative (mantissa * Nat.pow 10 exponent.toNat * Nat.pow 2 unitExponent)
      (Nat.pow 10 (-exponent).toNat)

/-- `mantissa * 2 ^ exponent`. Far outside the range the power is not formed. -/
def ofBinary (negative : Bool) (mantissa : Nat) (exponent : Int) : Number :=
  let magnitude : Int := mantissa.log2 + exponent
  if mantissa == 0 || magnitude < -1080 then .finite negative 0
  else if 1030 < magnitude then .infinite negative
  else
    let shift := exponent + unitExponent
    ofRatio negative (mantissa * Nat.pow 2 shift.toNat) (Nat.pow 2 (-shift).toNat)

/-- A decimal text without its sign. -/
def readDecimal? (negative : Bool) (text : List Char) : Option Number := do
  if !underscoresSeparate Char.isDigit false text then none
  let isMark := fun c : Char => c == 'e' || c == 'E'
  let (digits, places) ← mantissa? decimalDigit? (text.takeWhile (!isMark ·))
  let exponent ←
    match text.dropWhile (!isMark ·) with
    | [] => some 0
    | _ :: rest => exponent? rest
  return ofDecimal negative (ofDigits 10 digits) (exponent - places)

/-- A hexadecimal text without its sign and `0x`. -/
def readHexadecimal? (negative : Bool) (text : List Char) : Option Number := do
  if !underscoresSeparate (fun c => (hexDigit? c).isSome) true text then none
  let isMark := fun c : Char => c == 'p' || c == 'P'
  let (digits, places) ← mantissa? hexDigit? (text.takeWhile (!isMark ·))
  match text.dropWhile (!isMark ·) with
  | [] => none
  | _ :: rest =>
    let exponent ← exponent? rest
    return ofBinary negative (ofDigits 16 digits) (exponent - 4 * places)

/-- A text after its sign, `signed` telling whether it had one. -/
def readUnsigned? (signed negative : Bool) (text : List Char) : Option Number :=
  let lower := text.map Char.toLower
  if lower == "inf".toList || lower == "infinity".toList then some (.infinite negative)
  else if lower == "nan".toList && !signed then some .nan
  else match text with
    | '0' :: 'x' :: rest => readHexadecimal? negative rest
    | '0' :: 'X' :: rest => readHexadecimal? negative rest
    | _ => readDecimal? negative text

/-- **The value of a number's text**, or `none` if the text spells no number. -/
def read? (text : String) : Option Number :=
  match text.toList with
  | '+' :: rest => readUnsigned? true false rest
  | '-' :: rest => readUnsigned? true true rest
  | unsigned => readUnsigned? false false unsigned

end Lox.Number
