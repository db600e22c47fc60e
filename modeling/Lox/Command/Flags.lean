import Lox.Command.App

/-!
# Flags

Flags have a long form (`--printer rpn`, `--printer=rpn`) and most have a letter (`-p rpn`, `-prpn`,
`-p=rpn`); letters of flags without a value may stand together (`-vt`). A flag that tells yes or no
takes a value only behind an equals sign. Flags and arguments mix freely, two dashes alone end the
flags, a single dash is an argument, and of a flag given twice the last one counts.

* `Flag`: the flags.
* `UsageError`: what can be wrong with arguments.
* `Arguments`, `Arguments.parse`: flags and other arguments, read from left to right.
* `Arguments.invocation`: what they come to.
-/

namespace Lox

/-- **The flags.** -/
inductive Flag where
  | config | help | printer | tokens | verbose
  deriving DecidableEq, Repr, Inhabited

namespace Flag

/-- The long names. -/
def names : List (String × Flag) :=
  [("config", config), ("help", help), ("printer", printer), ("tokens", tokens),
   ("verbose", verbose)]

/-- The letters. -/
def letters : List (Char × Flag) :=
  [('h', help), ('p', printer), ('t', tokens), ('v', verbose)]

/-- The flag takes any text as its value; the others tell yes or no. -/
def takesText : Flag → Bool
  | config | printer => true
  | _ => false

/-- A flag with its letter and its name. -/
def title : Flag → String
  | config => "--config"
  | help => "-h, --help"
  | printer => "-p, --printer"
  | tokens => "-t, --tokens"
  | verbose => "-v, --verbose"

end Flag

/-- **What can be wrong with arguments.** -/
inductive UsageError where
  /-- The name of a flag is empty or starts with a dash. -/
  | badSyntax (argument : String)
  | unknownName (name : String)
  /-- No flag has the first letter of the cluster. -/
  | unknownLetter (cluster : List Char)
  /-- Nothing follows a flag that takes a text. -/
  | nameNeedsValue (argument : String)
  | letterNeedsValue (letter : Char)
  /-- The value of a flag says neither yes nor no. -/
  | badTruth (flag : Flag) (value : String)
  | tooManyArguments (count : Nat)
  deriving DecidableEq, Repr

namespace UsageError

/-- The character that stands for a letter in a message: the one whose number is the first byte of
the letter in UTF-8. -/
def leadByte (c : Char) : Char :=
  let n := c.toNat
  if n < 0x80 then c
  else if n < 0x800 then Char.ofNat (0xC0 + n / 0x40)
  else if n < 0x10000 then Char.ofNat (0xE0 + n / 0x1000)
  else Char.ofNat (0xF0 + n / 0x40000)

/-- The text of a usage error. -/
def message : UsageError → String
  | badSyntax argument => "bad flag syntax: " ++ argument
  | unknownName name => "unknown flag: --" ++ name
  | unknownLetter cluster =>
    "unknown shorthand flag: " ++ Text.Quoted.char (leadByte (cluster.headD ' ')) ++ " in -"
      ++ String.ofList cluster
  | nameNeedsValue argument => "flag needs an argument: " ++ argument
  | letterNeedsValue letter =>
    "flag needs an argument: " ++ Text.Quoted.char letter ++ " in -" ++ String.ofList [letter]
  | badTruth flag value =>
    "invalid argument " ++ Text.Quoted.string value ++ " for " ++ Text.Quoted.string flag.title
      ++ " flag: strconv.ParseBool: parsing " ++ Text.Quoted.string value ++ ": invalid syntax"
  | tooManyArguments count => "accepts at most 1 arg(s), received " ++ toString count

end UsageError

/-- **Arguments that were read**: what the flags say of the command line, whether help was asked for,
and the arguments that are no flags. -/
structure Arguments where
  line : CommandLine := {}
  help : Bool := false
  operands : List String := []
  deriving DecidableEq, Repr, Inhabited

namespace Arguments

/-- The truth values in their spellings. -/
def truth? (value : String) : Option Bool :=
  if ["1", "t", "T", "TRUE", "true", "True"].contains value then some true
  else if ["0", "f", "F", "FALSE", "false", "False"].contains value then some false
  else none

/-- Gives a flag a value. -/
def set (read : Arguments) (flag : Flag) (value : String) : Except UsageError Arguments :=
  let truth : Except UsageError Bool :=
    match truth? value with
    | some b => .ok b
    | none => .error (.badTruth flag value)
  match flag with
  | .config => .ok { read with line := { read.line with config := value } }
  | .printer => .ok { read with line := { read.line with printer := some value } }
  | .help => truth.map fun b => { read with help := b }
  | .tokens => truth.map fun b => { read with line := { read.line with showTokens := some b } }
  | .verbose => truth.map fun b => { read with line := { read.line with verbose := some b } }

/-- **What an argument that holds flags comes to**: it is complete, or the next argument is the
value of its last flag, and it is an error if there is none. -/
inductive Step where
  | complete (read : Arguments)
  | wantsValue (read : Arguments) (flag : Flag) (missing : UsageError)

/-- A flag in its long form, `body` being the argument without its two dashes. -/
def longFlag (read : Arguments) (argument : String) (body : List Char) :
    Except UsageError Step :=
  if body.head? == some '-' || body.head? == some '=' then .error (.badSyntax argument)
  else
    let name := String.ofList (body.takeWhile (· != '='))
    match Flag.names.lookup name with
    | none => .error (.unknownName name)
    | some flag =>
      match body.dropWhile (· != '=') with
      | _ :: value => (read.set flag (String.ofList value)).map .complete
      | [] =>
        if flag.takesText then .ok (.wantsValue read flag (.nameNeedsValue argument))
        else (read.set flag "true").map .complete

/-- A cluster of letters. A cluster that starts with `test.` is passed over. -/
def cluster (read : Arguments) : List Char → Except UsageError Step
  | [] => .ok (.complete read)
  | letter :: rest =>
    if "test.".toList.isPrefixOf (letter :: rest) then .ok (.complete read)
    else
      match Flag.letters.lookup letter with
      | none => .error (.unknownLetter (letter :: rest))
      | some flag =>
        match rest with
        | '=' :: c :: value => (read.set flag (String.ofList (c :: value))).map .complete
        | _ =>
          if !flag.takesText then (read.set flag "true").bind fun read => cluster read rest
          else if rest.isEmpty then .ok (.wantsValue read flag (.letterNeedsValue letter))
          else (read.set flag (String.ofList rest)).map .complete

/-- Arguments that stand for themselves. -/
def addOperands (read : Arguments) (operands : List String) : Arguments :=
  { read with operands := read.operands ++ operands }

/-- The flags of an argument, `none` if it holds none. -/
def flags? (read : Arguments) (argument : String) : Option (Except UsageError Step) :=
  match argument.toList with
  | '-' :: '-' :: body => some (read.longFlag argument body)
  | '-' :: c :: rest => some (read.cluster (c :: rest))
  | _ => none

/-- **Reads arguments** from left to right. -/
def parseFrom (read : Arguments) : List String → Except UsageError Arguments
  | [] => .ok read
  | argument :: rest =>
    if argument == "--" then .ok (read.addOperands rest)
    else
      match read.flags? argument with
      | none => parseFrom (read.addOperands [argument]) rest
      | some (.error e) => .error e
      | some (.ok (.complete read)) => parseFrom read rest
      | some (.ok (.wantsValue read flag missing)) =>
        match rest with
        | [] => .error missing
        | value :: rest =>
          match read.set flag value with
          | .error e => .error e
          | .ok read => parseFrom read rest

/-- **Reads arguments.** -/
def parse (arguments : List String) : Except UsageError Arguments :=
  parseFrom {} arguments

/-- The text shown when help is asked for. -/
def helpText : String :=
  String.join ([
    "golox reads Lox expressions and prints their syntax trees.",
    "",
    "With a script argument the whole file is parsed and the process exits with",
    "status 65 if it contains lexical or syntax errors. Without arguments golox",
    "starts an interactive prompt.",
    "",
    "Usage:",
    "  golox [script] [flags]",
    "",
    "Flags:",
    "      --config string    config file (.toml, .yaml or .yml)",
    "  -h, --help             help for golox",
    "  -p, --printer string   expression printer: ast, rpn or tree",
    "  -t, --tokens           print scanned tokens",
    "  -v, --verbose          verbose logging"].map (· ++ "\n"))

/-- **What arguments come to**: a run with a script or none, help, or an error. -/
def invocation (arguments : List String) : Invocation :=
  match parse arguments with
  | .error e => .aside [] (some e.message)
  | .ok read =>
    if read.help then .aside [.output helpText] none
    else match read.operands with
      | [] => .run read.line
      | [path] => .run { read.line with script := some path }
      | operands => .aside [] (some (UsageError.tooManyArguments operands.length).message)

end Arguments

end Lox
