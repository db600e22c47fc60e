import Lox.Fault.Basic

/-!
# The reporter

All diagnostics of a run go to one reporter. It writes them and remembers whether anything was
reported since it was last reset; the exit status of the program rests on that flag.

* `Reporter`: what was written, and the flag.
* `Reporter.report`: one diagnostic.
* `Reporter.reportFault`: a fault; a collection is reported part by part.
-/

namespace Lox

/-- **A sink for diagnostics.** -/
structure Reporter where
  /-- Everything written so far. -/
  output : String
  /-- Something was reported since the last reset. -/
  hadError : Bool
  deriving DecidableEq, Repr, Inhabited

namespace Reporter

/-- A reporter that has written nothing. -/
def empty : Reporter := { output := "", hadError := false }

/-- Writes without touching the flag. -/
def write (r : Reporter) (text : String) : Reporter :=
  { r with output := r.output ++ text }

/-- Forgets what was reported. What was written stays. -/
def reset (r : Reporter) : Reporter :=
  { r with hadError := false }

/-- The line on which a text is written. -/
def line (text : String) : String := text ++ "\n"

/-- Writes a line and sets the flag. -/
def writeError (r : Reporter) (text : String) : Reporter :=
  { output := r.output ++ line text, hadError := true }

/-- **Reports a diagnostic.** -/
def report (r : Reporter) (d : Diagnostic) : Reporter :=
  r.writeError d.text

/-- Reports a fault that is no collection: by its first diagnostic, or by its text if it has
none. -/
def reportSingle (r : Reporter) (f : Fault) : Reporter :=
  match f.firstDiagnostic? with
  | some d => r.report d
  | none => r.writeError f.message

mutual

/-- **Reports a fault.** The parts of a collection are reported one by one; a collection further
down in a fault is not taken apart. -/
def reportFault (r : Reporter) : Fault → Reporter
  | .joined parts => reportFaults r parts
  | .paired _ first second => reportOption (reportOption r first) second
  | .scan e => reportSingle r (.scan e)
  | .parse e => reportSingle r (.parse e)
  | .plain c => reportSingle r (.plain c)
  | .noOperator kind => reportSingle r (.noOperator kind)
  | .scanFrom line cause details => reportSingle r (.scanFrom line cause details)
  | .parseFrom token cause => reportSingle r (.parseFrom token cause)
  | .wrapped text inner => reportSingle r (.wrapped text inner)

/-- Reports several faults in order. -/
def reportFaults (r : Reporter) : List Fault → Reporter
  | [] => r
  | f :: rest => reportFaults (reportFault r f) rest

/-- Reports a fault if there is one. -/
def reportOption (r : Reporter) : Option Fault → Reporter
  | none => r
  | some f => reportFault r f

end

/-- Writes a diagnostic without setting the flag. -/
def note (r : Reporter) (d : Diagnostic) : Reporter :=
  r.write (line d.text)

/-- Writes the text of a fault, or that there is none, without setting the flag. -/
def noteFault (r : Reporter) (f : Option Fault) : Reporter :=
  r.write (line (match f with
    | some f => f.message
    | none => "<nil>"))

end Reporter

end Lox
