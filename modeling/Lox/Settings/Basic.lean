import Lox.Expr.Style

/-!
# Settings

What the user can set, in a file or on the command line. A source of settings overrides some fields
and leaves the others alone.

* `Settings`, `Settings.standard`: the settings, and their values when nothing is set.
* `Overrides`, `Settings.override`: the fields that one source sets.
* `Settings.isValid`: the printer must be one there is.
-/

namespace Lox

/-- **The settings.** -/
structure Settings where
  /-- Shown before each line of interactive input. -/
  prompt : String
  /-- Keeps interactive input between sessions; empty for none. -/
  historyFile : String
  /-- The name of the printer. -/
  printer : String
  /-- Prints the tokens before the trees. -/
  showTokens : Bool
  /-- Logs what happens. -/
  verbose : Bool
  deriving DecidableEq, Repr, Inhabited

/-- **The fields that one source sets.** -/
structure Overrides where
  prompt : Option String := none
  historyFile : Option String := none
  printer : Option String := none
  showTokens : Option Bool := none
  verbose : Option Bool := none
  deriving DecidableEq, Repr, Inhabited

namespace Settings

/-- The settings when nothing is set. -/
def standard : Settings where
  prompt := "> "
  historyFile := ""
  printer := "ast"
  showTokens := false
  verbose := false

/-- Settings with every field empty, given in place of settings that could not be had. -/
def blank : Settings where
  prompt := ""
  historyFile := ""
  printer := ""
  showTokens := false
  verbose := false

/-- **The settings with some fields overridden.** -/
def override (s : Settings) (o : Overrides) : Settings where
  prompt := o.prompt.getD s.prompt
  historyFile := o.historyFile.getD s.historyFile
  printer := o.printer.getD s.printer
  showTokens := o.showTokens.getD s.showTokens
  verbose := o.verbose.getD s.verbose

/-- **The name of the printer is one there is.** -/
def isValid (s : Settings) : Bool := Printer.names.contains s.printer

/-! ### Fields by name -/

/-- The fields. -/
inductive Field where
  | prompt | historyFile | printer | showTokens | verbose
  deriving DecidableEq, Repr, Inhabited

/-- The names of the fields in a settings file. -/
def Field.names : List (String × Field) :=
  [("prompt", .prompt), ("history_file", .historyFile), ("printer", .printer),
   ("show_tokens", .showTokens), ("verbose", .verbose)]

/-- The field holds a truth value; the others hold text. -/
def Field.isFlag : Field → Bool
  | .showTokens | .verbose => true
  | _ => false

/-- A value for a field. -/
inductive Datum where
  | text (s : String)
  | flag (b : Bool)
  /-- A value that no field takes. -/
  | other
  deriving DecidableEq, Repr, Inhabited

end Settings

/-- Sets a field; `none` if the value is not of the field's sort. -/
def Overrides.set? (o : Overrides) : Settings.Field → Settings.Datum → Option Overrides
  | .prompt, .text s => some { o with prompt := some s }
  | .historyFile, .text s => some { o with historyFile := some s }
  | .printer, .text s => some { o with printer := some s }
  | .showTokens, .flag b => some { o with showTokens := some b }
  | .verbose, .flag b => some { o with verbose := some b }
  | _, _ => none

end Lox
