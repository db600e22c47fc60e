import Lox.Text.Quoted

/-!
# Log lines

A log line is a level, a message and named values, each written `name=value` with spaces between
them. A value is quoted if it could otherwise be misread.
-/

namespace Lox.Log

/-- **The character makes its value stand in quotes**: a space, an equals sign, a double quote, a
control character, a character that is not printable, or the one that replaces bad bytes. -/
def needsQuotes (c : Char) : Bool :=
  if c.toNat < 0x80 then c == ' ' || c == '=' || c == '"' || c.toNat < 0x20
  else c == '\uFFFD' || !Text.isPrintable c

/-- A value as it stands in a log line. An empty one is quoted too. -/
def value (text : String) : String :=
  if text == "" || text.toList.any needsQuotes then Text.Quoted.string text else text

/-- **A log line.** -/
def line (level message : String) (values : List (String × String)) : String :=
  let all := ("level", level) :: ("msg", message) :: values
  " ".intercalate (all.map fun (name, text) => name ++ "=" ++ value text) ++ "\n"

end Lox.Log
