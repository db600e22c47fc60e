import Lox.Token.Basic

/-!
# Causes and diagnostics

What can be wrong with a source text, and how it is told to the user. A cause is a fixed sentence;
two causes are the same only if they are the same constructor, so a free text that happens to read
like one of the fixed sentences is still another cause.

* `Cause`: what went wrong.
* `ScanError`, `ParseError`: a cause at its place in the text or among the tokens.
* `Diagnostic`: line, location and message, and the one form in which they are shown.
-/

namespace Lox

/-- **What went wrong.** -/
inductive Cause where
  | unexpectedCharacter
  | unterminatedString
  | unexpectedToken
  | expectedRightParen
  | expectedEnd
  | expectedSemicolon
  | invalidNumber
  /-- The front end broke a rule of its own. -/
  | internal
  /-- Anything else, in its own words. -/
  | other (text : String)
  deriving DecidableEq, Repr, Inhabited

/-- The sentence of a cause. -/
def Cause.message : Cause → String
  | unexpectedCharacter => "Unexpected character."
  | unterminatedString => "Unterminated string."
  | unexpectedToken => "Expect expression."
  | expectedRightParen => "Expect ')' after expression."
  | expectedEnd => "Expect end of expression."
  | expectedSemicolon => "Expect ';' after expression."
  | invalidNumber => "Invalid number literal."
  | internal => "internal error"
  | other text => text

/-- **A report about one place**: the line, a phrase that locates it within the line (with its
leading space, empty if there is none) and what is wrong. -/
structure Diagnostic where
  line : Int
  location : String
  message : String
  deriving DecidableEq, Repr, Inhabited

/-- **The form in which a diagnostic is shown.** -/
def Diagnostic.text (d : Diagnostic) : String :=
  "[line " ++ toString d.line ++ "] Error" ++ d.location ++ ": " ++ d.message

/-- **An error in the source text**: the line, the cause and the offending text, empty if none is
to be shown. -/
structure ScanError where
  line : Int
  cause : Cause
  details : String
  deriving DecidableEq, Repr, Inhabited

/-- The diagnostic of an error in the source text; it names no token. -/
def ScanError.diagnostic (e : ScanError) : Diagnostic where
  line := e.line
  location := ""
  message := if e.details == "" then e.cause.message else e.cause.message ++ " " ++ e.details

/-- **An error among the tokens**: the token looked at and the cause. -/
structure ParseError where
  token : Token
  cause : Cause
  deriving DecidableEq, Repr, Inhabited

/-- The diagnostic of an error among the tokens; it names the token or the end of the input. -/
def ParseError.diagnostic (e : ParseError) : Diagnostic where
  line := e.token.line
  location := if e.token.kind = .eof then " at end" else " at '" ++ e.token.lexeme ++ "'"
  message := e.cause.message

end Lox
