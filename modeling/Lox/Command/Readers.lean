import Lox.Command.Flags
import Lox.Settings.Toml
import Lox.Settings.Yaml

/-!
# Plain readers

What the executable reads arguments and settings files with. The program takes its readers from
outside, and what is said of it is said for all readers; these serve to run it.

* `Settings.Decoders.plain`: what reads settings files.
* `App.Readers.plain`: what reads arguments and settings files.
-/

namespace Lox

/-- A decoder of contents that are well-formed UTF-8. -/
def Settings.decodeText (overrides? : String → Option Overrides) (bytes : List UInt8) :
    Except String Overrides :=
  match (Text.Utf8.decode? bytes).bind overrides? with
  | some o => .ok o
  | none => .error "malformed document"

/-- **The decoders of this library.** -/
def Settings.Decoders.plain : Decoders where
  toml := decodeText Toml.overrides?
  yaml := decodeText Yaml.overrides?

/-- **The readers of this library.** -/
def App.Readers.plain : Readers where
  arguments := Arguments.invocation
  documents := .plain

end Lox
