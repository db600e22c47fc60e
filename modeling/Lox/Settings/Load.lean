import Lox.Files
import Lox.Settings.Basic
import Lox.Text.Quoted

/-!
# Settings files

A settings file is in one of two formats, told by the end of its name. Its fields override the
standard settings, and the result must be valid. Reading documents of the formats is left to
decoders, which may be any functions.

* `Settings.Format`, `Settings.Format.ofPath`: the formats.
* `Settings.Decoders`: what reads documents of the formats.
* `Settings.parse`: the settings of a file's contents.
* `Settings.load`: the settings of the file at a path.
-/

namespace Lox.Settings

/-- **The format of a settings file.** -/
inductive Format where
  | unknown | toml | yaml
  deriving DecidableEq, Repr, Inhabited

namespace Format

/-- The name of a format. -/
def name : Format → String
  | unknown => "unknown"
  | toml => "toml"
  | yaml => "yaml"

/-- The end of a path from the last point of its last step on; empty if that has none. -/
def ending (path : String) : List Char :=
  let step := path.toList.reverse.takeWhile (· != '/')
  if step.contains '.' then '.' :: (step.takeWhile (· != '.')).reverse else []

/-- **The format that a path's name tells**, in letters of either case. -/
def ofPath (path : String) : Format :=
  match String.ofList ((ending path).map Char.toLower) with
  | ".toml" => toml
  | ".yaml" => yaml
  | ".yml" => yaml
  | _ => unknown

end Format

/-- **Why settings cannot be had.** -/
inductive Error where
  /-- No printer has the name. -/
  | invalidPrinter (name : String)
  | unknownFormat
  /-- The decoder of the format refuses the contents, in these words. -/
  | malformed (format : Format) (reason : String)
  /-- The file cannot be read. -/
  | unreadable (e : FileError)
  deriving DecidableEq, Repr, Inhabited

/-- The text of an error. -/
def Error.message : Error → String
  | invalidPrinter name =>
    "invalid printer " ++ Text.Quoted.string name ++ ", expected one of "
      ++ ", ".intercalate Printer.names
  | unknownFormat => "unknown config format"
  | malformed format reason => "parse " ++ format.name ++ ": " ++ reason
  | unreadable e => "read config: " ++ e.message

/-- **Checks settings.** -/
def validate (s : Settings) : Except Error Unit :=
  if s.isValid then .ok () else .error (.invalidPrinter s.printer)

/-- **What reads documents**: for each format, the fields that a file's contents set, or why the
contents are refused. -/
structure Decoders where
  toml : List UInt8 → Except String Overrides
  yaml : List UInt8 → Except String Overrides

/-- The fields that a file's contents set. -/
def decode (decoders : Decoders) (format : Format) (bytes : List UInt8) : Except Error Overrides :=
  match format with
  | .unknown => .error .unknownFormat
  | .toml => (decoders.toml bytes).mapError (.malformed .toml)
  | .yaml => (decoders.yaml bytes).mapError (.malformed .yaml)

/-- **The settings of a file's contents**, before they are checked. -/
def parse (decoders : Decoders) (format : Format) (bytes : List UInt8) : Except Error Settings :=
  (decode decoders format bytes).map standard.override

/-- An error at the file it concerns. -/
structure LoadError where
  path : String
  error : Error
  deriving DecidableEq, Repr, Inhabited

/-- The text of an error in loading. A file error names the path itself. -/
def LoadError.message (e : LoadError) : String :=
  match e.error with
  | .unreadable _ => e.error.message
  | _ => e.path ++ ": " ++ e.error.message

/-- **The settings of the file at a path**; without a path, the standard ones. -/
def load (decoders : Decoders) (files : Files) (path : String) : Except LoadError Settings :=
  if path == "" then .ok standard
  else
    let outcome : Except Error Settings := do
      let bytes ← (files path).mapError .unreadable
      let s ← parse decoders (.ofPath path) bytes
      s.validate
      return s
    outcome.mapError fun error => { path, error }

end Lox.Settings
