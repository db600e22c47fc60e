import Lox.Command.Readers

/-!
# The executable

Reads the files and the input that a command line asks for, runs the program on them and writes
what it says.
-/

namespace Lox.Main

/-- Reads a file. -/
def readFile (path : String) : IO (Except FileError (List UInt8)) := do
  try
    return .ok (← IO.FS.readBinFile path).toList
  catch e =>
    let reason : FileError.Reason := match e with
      | .inappropriateType .. => .isDirectory
      | .invalidArgument .. => .invalidName
      | .permissionDenied .. => .other "open" "permission denied"
      | _ => .notFound
    return .error { path, reason }

/-- Writes events to the two outputs. -/
def write (events : List Event) : IO Unit := do
  let stdout ← IO.getStdout
  let stderr ← IO.getStderr
  for e in events do
    match e with
    | .output text => stdout.putStr text
    | .log text => stderr.putStr text
    | .complaint text => stderr.putStr text
    | .diagnostic text => stderr.putStr text
  stdout.flush

/-- What reads arguments and settings files. -/
def readers : App.Readers := .plain

/-- The files that arguments name. -/
def filesFor (arguments : List String) : IO Files := do
  let paths := match readers.arguments arguments with
    | .run line => line.config :: line.script.toList
    | .aside .. => []
  let contents ← paths.mapM fun path => return (path, ← readFile path)
  return fun path =>
    (contents.lookup path).getD (.error { path, reason := .notFound })

/-- The program ready for interactive input, if the arguments ask for that and the settings can be
put into effect. -/
def session? (files : Files) (arguments : List String) : Option (App × List Event) :=
  match readers.arguments arguments with
  | .run line =>
    if line.script.isSome then none
    else (App.fresh.configure readers.documents files line).toOption
  | .aside .. => none

/-- Writes what a call says and returns its exit status. -/
def finish (call : App.Call) : IO UInt32 := do
  write call.events
  return call.code.toUInt32

/-- Answers line after line; a terminal is shown the prompt. -/
partial def converse (input : IO.FS.Stream) (app : App) : IO UInt32 := do
  if ← input.isTty then
    write [.output app.settings.prompt]
  let line ← input.getLine
  let reading : App.Reading :=
    if line.isEmpty then .endOfInput
    else .line (if line.endsWith "\n" then (line.dropEnd 1).toString else line)
  match app.reply reading with
  | .next app events =>
    write events
    converse input app
  | .stop exit => finish (App.Finished.mk app [] exit).toCall

end Lox.Main

/-- Runs the program once and returns its exit status. -/
def main (arguments : List String) : IO UInt32 := do
  let files ← Lox.Main.filesFor arguments
  match Lox.Main.session? files arguments with
  | some (app, events) =>
    Lox.Main.write events
    Lox.Main.converse (← IO.getStdin) app
  | none =>
    -- no interactive input is asked for
    Lox.Main.finish (Lox.App.fresh.call Lox.Main.readers files (fun _ _ => .ok []) arguments)
