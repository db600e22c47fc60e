import Lox.Text.Quoted
import Lox.Token.Kind

/-!
# Tokens

A token is a kind, the text it was cut from, the text it stands for and the line that text ends on.

* `Token.brief`: kind, lexeme and literal with spaces between them.
* `Token.dump`: all four fields, texts quoted, so that a dump line tells the token exactly.
-/

namespace Lox

/-- **A token.** `literal` is the text between the quotes of a string, the digits of a number, and
empty otherwise. -/
structure Token where
  kind : TokenKind
  lexeme : String
  literal : String
  line : Int
  deriving DecidableEq, Repr, Inhabited

namespace Token

/-- The token that ends the input on `line`. -/
def eof (line : Int) : Token :=
  { kind := .eof, lexeme := "", literal := "", line }

/-- A token short of its line, for people. -/
def brief (t : Token) : String :=
  t.kind.name ++ " " ++ t.lexeme ++ " " ++ t.literal

/-- **The dump of a token**, on one line. -/
def dump (t : Token) : String :=
  "\x7bType: " ++ t.kind.name ++ ", Lexeme: " ++ Text.Quoted.string t.lexeme ++ ", Literal: "
    ++ Text.Quoted.string t.literal ++ ", Line: " ++ toString t.line ++ "\x7d"

end Token

end Lox
