import Lox.Number.Reading

/-!
# Characters by number

Escapes in settings files name a character by its code point in hexadecimal digits.
-/

namespace Lox.Text

/-- The character of a code point in hexadecimal digits, `none` if a digit is bad or no character
has the number. -/
def codePoint? (digits : List Char) : Option Char := do
  let n := Number.ofDigits 16 (← digits.mapM Number.hexDigit?)
  if n.isValidChar then some (Char.ofNat n) else none

end Lox.Text
