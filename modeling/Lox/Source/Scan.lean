import Lox.Fault.Basic
import Lox.Reporter
import Lox.Source.Segment

/-!
# Scanning

Scanning a source text gives its tokens, closed by an end token, and its errors. Both are read off
the segments of the text in order; a token and an error carry the line on which their segment ends.

* `Scan`, `scan`: the result, and the function from source text.
* `Scan.fault?`: all errors as one fault.
* `Scan.again`: what a second pass over the same text returns.
* `Scan.reportTo`: the reporter after it has seen every error.
-/

namespace Lox

namespace Segment

/-- The text between the quotes of a string. -/
def unquoted (text : List Char) : List Char :=
  (text.drop 1).dropLast

/-- **The token of a segment** that ends on `line`, if the segment is a lexeme. -/
def token? (s : Segment) (line : Int) : Option Token :=
  let lexeme := String.ofList s.text
  match s.form with
  | .mark kind => some { kind, lexeme, literal := "", line }
  | .string =>
    some { kind := .string, lexeme, literal := String.ofList (unquoted s.text), line }
  | .number => some { kind := .number, lexeme, literal := lexeme, line }
  | .word => some { kind := .ofWord lexeme, lexeme, literal := "", line }
  | .blank | .comment | .unterminated | .bad _ => none

/-- **The error of a segment** that ends on `line`, if it is one. -/
def error? (s : Segment) (line : Int) : Option ScanError :=
  match s.form with
  | .unterminated => some { line, cause := .unterminatedString, details := "" }
  | .bad c => some { line, cause := .unexpectedCharacter, details := Text.Quoted.char c }
  | .blank | .comment | .mark _ | .string | .number | .word => none

/-- The line after segments that start on `line`. -/
def lineAfter (line : Int) : List Segment → Int
  | [] => line
  | s :: rest => lineAfter (line + s.newlines) rest

/-- The tokens of segments that start on `line`. -/
def tokens (line : Int) : List Segment → List Token
  | [] => []
  | s :: rest =>
    let ending := line + s.newlines
    (s.token? ending).toList ++ tokens ending rest

/-- The errors of segments that start on `line`. -/
def errors (line : Int) : List Segment → List ScanError
  | [] => []
  | s :: rest =>
    let ending := line + s.newlines
    (s.error? ending).toList ++ errors ending rest

end Segment

/-- **The result of scanning.** -/
structure Scan where
  tokens : List Token
  errors : List ScanError
  /-- The line on which the text ends. -/
  endLine : Int
  deriving DecidableEq, Repr, Inhabited

/-- **Scans a source text.** Lines count from one. -/
def scan (source : String) : Scan :=
  let segments := Segment.cut source.toList
  let endLine := Segment.lineAfter 1 segments
  { tokens := Segment.tokens 1 segments ++ [.eof endLine]
    errors := Segment.errors 1 segments
    endLine }

namespace Scan

/-- All errors as one fault; even a single error is a collection. -/
def fault? (s : Scan) : Option Fault :=
  Fault.join (s.errors.map fun e => some (.scan e))

/-- **What a second pass returns.** There is no more text, so it finds nothing new and only ends
the tokens once more. -/
def again (s : Scan) : Scan :=
  { s with tokens := s.tokens ++ [.eof s.endLine] }

/-- The reporter after every error was reported to it in order. -/
def reportTo (s : Scan) (r : Reporter) : Reporter :=
  r.reportFaults (s.errors.map .scan)

end Scan

end Lox
