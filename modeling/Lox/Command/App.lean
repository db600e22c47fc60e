import Lox.Command.Log
import Lox.Parser.Program
import Lox.Settings.Load
import Lox.Source.Scan
import Lox.Text.Utf8

/-!
# The program

The program scans and parses a script, or line after line of interactive input, and prints the trees.
What it writes is a list of events in order; where an event goes is decided at the very end. Between
runs the program keeps its settings and one flag: whether an error was reported since the flag was
last reset.

Reading arguments, settings documents and lines of a terminal is not done here: what does it may be
any functions, given to a run from outside.

* `Event`: something written; `Event.stdout`, `Event.stderr`, `Event.reported`: the channels.
* `App`: what the program keeps.
* `App.run`: one unit of input; `App.runFile`: a script; `App.repl`: interactive input.
* `App.Terminal`, `App.prompt`: interactive input from a terminal, which may fail to open.
* `App.configure`: puts settings into effect.
* `CommandLine`, `App.Readers`: what a run is asked for, and what reads it.
* `App.call`: a whole run, from the arguments to the exit status.
-/

namespace Lox

/-- **Something the program writes.** -/
inductive Event where
  /-- Text on the standard output. -/
  | output (text : String)
  /-- A log line. -/
  | log (text : String)
  /-- A message about the run as a whole. -/
  | complaint (text : String)
  /-- Diagnostics about the input. -/
  | diagnostic (text : String)
  deriving DecidableEq, Repr, Inhabited

namespace Event

/-- What goes to the standard output. -/
def stdout (events : List Event) : String :=
  String.join (events.map fun e => match e with
    | output text => text
    | _ => "")

/-- What is reported about the input. -/
def reported (events : List Event) : String :=
  String.join (events.map fun e => match e with
    | diagnostic text => text
    | _ => "")

/-- What goes to the standard error output. Diagnostics go there too unless they have a sink of their
own. -/
def stderr (separateReports : Bool) (events : List Event) : String :=
  String.join (events.map fun e => match e with
    | log text => text
    | complaint text => text
    | diagnostic text => if separateReports then "" else text
    | output _ => "")

end Event

/-- **Why a run stops early.** -/
inductive Exit where
  /-- The script cannot be read. -/
  | noInput (e : FileError)
  /-- The input has errors, all of them already reported. -/
  | staticErrors
  /-- Something else failed. -/
  | software (f : Fault)

namespace Exit

/-- The exit status. -/
def code : Exit → Nat
  | noInput _ => 66
  | staticErrors => 65
  | software _ => 70

/-- The reason as a fault. -/
def fault : Exit → Fault
  | noInput e => .plain (.other e.message)
  | staticErrors => .plain (.other "static errors found")
  | software f => f

end Exit

/-- The exit status of a run that the user asked for in the wrong way. -/
def usageCode : Nat := 64

/-- **What the program keeps** between runs. -/
structure App where
  settings : Settings
  /-- The printer in effect. -/
  printer : Printer
  /-- Log lines about details are written. -/
  verbose : Bool
  /-- An error was reported since the last reset. -/
  hadError : Bool
  deriving DecidableEq, Repr, Inhabited

namespace App

/-- The program before its first run. -/
def fresh : App where
  settings := .standard
  printer := .ast
  verbose := false
  hadError := false

/-- A log line about a detail. -/
def debug (app : App) (message : String) (values : List (String × String)) : List Event :=
  if app.verbose then [.log (Log.line "DEBUG" message values)] else []

/-- The reporter of the program, before it writes anything. -/
def reporter (app : App) : Reporter := { output := "", hadError := app.hadError }

/-- The program after its reporter was used, and what that wrote. -/
def reported (app : App) (r : Reporter) : App × List Event :=
  ({ app with hadError := r.hadError }, if r.output == "" then [] else [.diagnostic r.output])

/-- A line on the standard output. -/
def printed (text : String) : Event := .output (text ++ "\n")

/-! ### One unit of input -/

/-- **The outcome of a step**: the program after it, what it wrote and the fault it met. -/
structure Ran where
  app : App
  events : List Event
  fault : Option Fault

/-- Parses tokens as a list of statements and prints their trees. -/
def runTokens (app : App) (tokens : List Token) : Ran :=
  let p := Parser.ofTokens tokens
  let (app', reports) := app.reported (p.reportParseAll app.reporter)
  let parsed (count : Nat) (f : Option Fault) :=
    app'.debug "parsed" [("expressions", toString count), ("error", Parser.faultText f)]
  match p.parseAll.1 with
  | .error f => ⟨app', reports ++ parsed 0 (some f), some f⟩
  | .ok trees =>
    ⟨app', reports ++ parsed trees.length none ++ trees.map fun e => printed (app.printer.print e),
      none⟩

/-- **Runs one unit of input**: scans it, parses it and prints the trees. Errors in the text keep it
from being parsed. -/
def run (app : App) (input : String) : Ran :=
  let s := scan input
  let (app', reports) := app.reported (s.reportTo app.reporter)
  let scanned := app'.debug "scanned"
    [("tokens", toString s.tokens.length), ("error", Parser.faultText s.fault?)]
  let shown := if app.settings.showTokens then s.tokens.map fun t => printed t.dump else []
  let events := reports ++ scanned ++ shown
  match s.fault? with
  | some f => ⟨app', events, some f⟩
  | none =>
    let ran := app'.runTokens s.tokens
    { ran with events := events ++ ran.events }

/-! ### Scripts -/

/-- **The outcome of a run**: the program after it, what it wrote and why it stopped, if early. -/
structure Finished where
  app : App
  events : List Event
  exit : Option Exit

/-- **Runs a script.** It fails if an error was reported, be it in an earlier run. -/
def runFile (app : App) (files : Files) (path : String) : Finished :=
  match files path with
  | .error e => ⟨app, [], some (.noInput e)⟩
  | .ok bytes =>
    let started := app.debug "running file" [("path", path), ("bytes", toString bytes.length)]
    let ran := app.run (Text.Utf8.decode bytes)
    let exit := match ran.fault.filter (!·.isStatic) with
      | some f => some (.software f)
      | none => if ran.app.hadError then some .staticErrors else none
    ⟨ran.app, started ++ ran.events, exit⟩

/-! ### Interactive input -/

/-- **What reading a line gives.** -/
inductive Reading where
  | line (text : String)
  /-- The user interrupted, with `text` on the line. -/
  | interrupt (text : String)
  | endOfInput
  /-- Reading failed, with a fault of its own. -/
  | failure (f : Fault)
  deriving Inhabited

/-- **What one reading comes to**: the loop goes on, or it ends, perhaps with a failure. -/
inductive Reply where
  | next (app : App) (events : List Event)
  | stop (exit : Option Exit)

/-- **Answers one reading.** A line is run and the flag is reset after it, so that a bad line does
not count against the next one. -/
def reply (app : App) : Reading → Reply
  | .line text =>
    let ran := app.run text
    let internal := match ran.fault.filter (!·.isStatic) with
      | some f => [Event.log (Log.line "ERROR" "internal error" [("error", f.message)])]
      | none => []
    .next { ran.app with hadError := false } (ran.events ++ internal)
  | .interrupt text => if text == "" then .stop none else .next app []
  | .endOfInput => .stop none
  | .failure f => .stop (some (.software f))

/-- **An interactive session**: what was written after each reading, with the flag as it then was;
the program at the end; why the session failed, if it did; and how many readings were left. -/
structure Session where
  turns : List (List Event × Bool)
  app : App
  exit : Option Exit
  unread : Nat

/-- **Runs interactive input.** When the readings are used up the input ends. -/
def repl (app : App) : List Reading → Session
  | [] => { turns := [([], app.hadError)], app, exit := none, unread := 0 }
  | reading :: rest =>
    match app.reply reading with
    | .stop exit => { turns := [([], app.hadError)], app, exit, unread := rest.length }
    | .next app' events =>
      let session := repl app' rest
      { session with turns := (events, app'.hadError) :: session.turns }

/-- **A terminal**: opened with a prompt to show and the path of a history file, it gives readings, or
it cannot be opened. -/
abbrev Terminal := (prompt historyFile : String) → Except Fault (List Reading)

/-- Interactive input from a terminal. -/
def prompt (app : App) (terminal : Terminal) : Finished :=
  match terminal app.settings.prompt app.settings.historyFile with
  | .error f => ⟨app, [], some (.software f)⟩
  | .ok readings =>
    let session := app.repl readings
    ⟨session.app, session.turns.flatMap Prod.fst, session.exit⟩

end App

/-! ### Settings and whole runs -/

/-- **What a run is asked for**: the settings file, empty for none, the settings that flags give, and
the script, if there is one. -/
structure CommandLine where
  config : String := ""
  printer : Option String := none
  showTokens : Option Bool := none
  verbose : Option Bool := none
  script : Option String := none
  deriving DecidableEq, Repr, Inhabited

/-- What the flags override. There is none for the prompt and none for the history file. -/
def CommandLine.overrides (line : CommandLine) : Overrides where
  printer := line.printer
  showTokens := line.showTokens
  verbose := line.verbose

/-- **What arguments come to.** -/
inductive Invocation where
  /-- The program is to run. -/
  | run (line : CommandLine)
  /-- What reads the arguments answers by itself, as it does if help is asked for, and the program is
  not run. With a message the arguments are refused. -/
  | aside (written : List Event) (refusal : Option String)

namespace App

/-- The program with settings put into effect, if their printer is one there is. -/
def withSettings? (app : App) (settings : Settings) : Option App :=
  (Printer.ofName? settings.printer).map fun printer =>
    { app with settings, printer, verbose := settings.verbose }

/-- The text of the complaint about a printer that there is not. -/
def noPrinterText (name : String) : String := "invalid printer " ++ Text.Quoted.string name

/-- **Puts settings into effect**: those of the settings file, with the flags on top. On failure,
told by its text, the program is as before. -/
def configure (app : App) (decoders : Settings.Decoders) (files : Files) (line : CommandLine) :
    Except String (App × List Event) :=
  match Settings.load decoders files line.config with
  | .error e => .error e.message
  | .ok loaded =>
    let settings := loaded.override line.overrides
    match settings.validate with
    | .error e => .error e.message
    | .ok () =>
      match app.withSettings? settings with
      | none => .error (noPrinterText settings.printer)
      | some app' =>
        .ok (app', app'.debug "configured" [("config", line.config),
          ("printer", settings.printer), ("tokens", toString settings.showTokens)])

/-- **A finished call**: the program after it, what it wrote and its exit status. -/
structure Call where
  app : App
  events : List Event
  code : Nat

/-- A call that fails because the user asked for it in the wrong way. -/
def misuse (app : App) (message : String) : Call :=
  ⟨app, [.complaint (message ++ "\n"), .complaint "Usage: golox [script]\n"], usageCode⟩

/-- A call from the outcome of its run. Errors of the input are not told again. -/
def Finished.toCall (f : Finished) : Call :=
  match f.exit with
  | none => ⟨f.app, f.events, 0⟩
  | some .staticErrors => ⟨f.app, f.events, Exit.staticErrors.code⟩
  | some e => ⟨f.app, f.events ++ [.complaint (e.fault.message ++ "\n")], e.code⟩

/-- Runs what a command line asks for. -/
def execute (app : App) (decoders : Settings.Decoders) (files : Files) (terminal : Terminal)
    (line : CommandLine) : Call :=
  match app.configure decoders files line with
  | .error message => app.misuse message
  | .ok (app', events) =>
    let finished := match line.script with
      | some path => app'.runFile files path
      | none => app'.prompt terminal
    { finished with events := events ++ finished.events : Finished }.toCall

/-- **What the program relies on to read** what the user wrote. -/
structure Readers where
  /-- Reads arguments. -/
  arguments : List String → Invocation
  /-- Reads settings files. -/
  documents : Settings.Decoders

/-- **A whole run**: arguments, files and interactive input to output and exit status. -/
def call (app : App) (readers : Readers) (files : Files) (terminal : Terminal)
    (arguments : List String) : Call :=
  match readers.arguments arguments with
  | .run line => app.execute readers.documents files terminal line
  | .aside written none => ⟨app, written, 0⟩
  | .aside written (some message) =>
    { app.misuse message with events := written ++ (app.misuse message).events }

end App

end Lox
