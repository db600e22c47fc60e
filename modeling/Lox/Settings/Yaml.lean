import Lox.Settings.Basic
import Lox.Text.CodePoint

/-!
# Settings in YAML

A settings document is a mapping, in block form (`key: value` on lines of their own, nesting by
indentation) or in flow form (braces). Scalars are plain, in single quotes, in double quotes with
escapes, or blocks of indented lines behind `|` or `>`. Comments start with `#` at a line's start or
behind a blank. The first document of a text counts.

A null leaves a field as it is. Every other scalar is text for a field that holds text; a field that
holds a truth value takes the usual spellings of one. Keys that name no field are ignored, whatever
their values; no key is given twice.

* `Yaml.Node`: the tree of a document.
* `Yaml.read?`: the tree of a text, `none` for a text that is no document.
* `Yaml.overrides?`: the settings in it.
-/

namespace Lox.Settings.Yaml

/-- **A node of a document.** A plain scalar may denote more than its text. -/
inductive Node where
  | scalar (text : String) (plain : Bool)
  | sequence (items : List Node)
  | mapping (entries : List (Node × Node))
  deriving Inhabited

/-- Nothing where a value could stand. -/
def Node.empty : Node := .scalar "" true

/-- The text of a line, and of the lines behind it. -/
abbrev Line := List Char

/-! ### Characters and lines -/

/-- Space and tab. -/
def isBlank (c : Char) : Bool := c == ' ' || c == '\t'

/-- A blank or a line end. -/
def isSpace (c : Char) : Bool := isBlank c || c == '\n'

/-- A character that a text may hold. -/
def isAllowed (c : Char) : Bool :=
  let n := c.toNat
  c == '\t' || c == '\n' || (0x20 ≤ n && n ≤ 0x7E) || n == 0x85 || (0xA0 ≤ n && n ≤ 0xFFFD)
    || 0x10000 ≤ n

/-- The text with every line end a single character. -/
def plainLines : List Char → List Char
  | '\r' :: '\n' :: rest => '\n' :: plainLines rest
  | '\r' :: rest => '\n' :: plainLines rest
  | c :: rest => c :: plainLines rest
  | [] => []

/-- The lines of a text. A text that ends with a line end has an empty last line. -/
def splitLines (text : List Char) : List Line := text.splitOn '\n'

/-- Lines as one text. -/
def joinLines (lines : List Line) : List Char := List.intercalate ['\n'] lines

/-- The number of spaces in front of a line. -/
def indentOf (line : Line) : Nat := (line.takeWhile (· == ' ')).length

/-- A line without the spaces in front. -/
def content (line : Line) : List Char := line.dropWhile (· == ' ')

/-- Nothing but blanks. -/
def isEmptyLine (line : Line) : Bool := line.all isBlank

/-- A text on which nothing but a comment is left. -/
def isFiller (text : List Char) : Bool :=
  match text.dropWhile isBlank with
  | [] => true
  | c :: _ => c == '#'

/-- Lines from the first one that says something. A tab in front of it is no indentation. -/
def skipFiller (lines : List Line) : List Line :=
  lines.dropWhile fun line => (content line).head? != some '\t' && isFiller line

/-- A text without the blanks at its end. -/
def trimRight (text : List Char) : List Char := (text.reverse.dropWhile isBlank).reverse

/-- A sign in a flow collection. -/
def isFlowSign (c : Char) : Bool :=
  c == ',' || c == '[' || c == ']' || c == '{' || c == '}'

/-- A character that starts something other than a plain scalar. -/
def isIndicator (c : Char) : Bool :=
  isFlowSign c || "#&*!|>\x27\"%@\x60".toList.contains c

/-- A text that a plain scalar may start with. A dash, colon or question mark needs company. -/
def startsPlain (inFlow : Bool) : List Char → Bool
  | [] => false
  | c :: rest =>
    if c == '-' || c == '?' || c == ':' then
      match rest with
      | [] => false
      | d :: _ => !isSpace d && !(inFlow && isFlowSign d)
    else !isSpace c && !isIndicator c

/-! ### Quoted scalars -/

/-- Blanks and line ends inside a quoted scalar: one line end is a space, each further one stays. -/
def foldSpaces (spaces : List Char) : List Char :=
  match spaces.count '\n' with
  | 0 => spaces
  | 1 => [' ']
  | n + 1 => List.replicate n '\n'

/-- The characters that a backslash and one letter stand for. -/
def escapes : List (Char × Char) :=
  [('0', '\x00'), ('a', '\x07'), ('b', '\x08'), ('t', '\t'), ('\t', '\t'), ('n', '\n'),
   ('v', '\x0b'), ('f', '\x0c'), ('r', '\r'), ('e', '\x1b'), (' ', ' '), ('"', '"'),
   ('\x27', '\x27'), ('/', '/'), ('\\', '\\'), ('N', '\u0085'), ('_', '\u00A0'), ('L', '\u2028'),
   ('P', '\u2029')]

/-- The number of digits of a numeric escape. -/
def escapeWidth? (letter : Char) : Option Nat :=
  [('x', 2), ('u', 4), ('U', 8)].lookup letter

/-- A scalar in double quotes behind its opening quote: its text, and what follows. -/
def doubleQuoted : (fuel : Nat) → List Char → Option (List Char × List Char)
  | 0, _ => none
  | _ + 1, [] => none
  | _ + 1, '"' :: rest => some ([], rest)
  | fuel + 1, '\\' :: '\n' :: rest => doubleQuoted fuel (rest.dropWhile isBlank)
  | fuel + 1, '\\' :: letter :: rest => do
    match escapeWidth? letter with
    | some width =>
      if rest.length < width then none
      let c ← Text.codePoint? (rest.take width)
      let (s, rest) ← doubleQuoted fuel (rest.drop width)
      return (c :: s, rest)
    | none =>
      let c ← escapes.lookup letter
      let (s, rest) ← doubleQuoted fuel rest
      return (c :: s, rest)
  | fuel + 1, c :: rest => do
    if isSpace c then
      let (s, behind) ← doubleQuoted fuel (rest.dropWhile isSpace)
      return (foldSpaces (c :: rest.takeWhile isSpace) ++ s, behind)
    else
      let (s, behind) ← doubleQuoted fuel rest
      return (c :: s, behind)

/-- A scalar in single quotes behind its opening quote; a quote in it is written twice. -/
def singleQuoted : (fuel : Nat) → List Char → Option (List Char × List Char)
  | 0, _ => none
  | _ + 1, [] => none
  | fuel + 1, '\x27' :: '\x27' :: rest => do
    let (s, behind) ← singleQuoted fuel rest
    return ('\x27' :: s, behind)
  | _ + 1, '\x27' :: rest => some ([], rest)
  | fuel + 1, c :: rest => do
    if isSpace c then
      let (s, behind) ← singleQuoted fuel (rest.dropWhile isSpace)
      return (foldSpaces (c :: rest.takeWhile isSpace) ++ s, behind)
    else
      let (s, behind) ← singleQuoted fuel rest
      return (c :: s, behind)

/-- A scalar in quotes of either sort, at the front of a text. -/
def quoted : List Char → Option (Node × List Char)
  | '"' :: rest =>
    (doubleQuoted (rest.length + 1) rest).map fun (s, behind) =>
      (.scalar (String.ofList s) false, behind)
  | '\x27' :: rest =>
    (singleQuoted (rest.length + 1) rest).map fun (s, behind) =>
      (.scalar (String.ofList s) false, behind)
  | _ => none

/-- The text starts with a quote. -/
def startsQuoted (text : List Char) : Bool :=
  text.head? == some '"' || text.head? == some '\x27'

/-! ### Flow collections -/

/-- Blanks, line ends and comments between the parts of a flow collection. -/
def skipFlow : (fuel : Nat) → List Char → List Char
  | 0, text => text
  | fuel + 1, text =>
    match text.dropWhile isSpace with
    | '#' :: rest => skipFlow fuel (rest.dropWhile (· != '\n'))
    | rest => rest

/-- The length of a plain scalar in a flow collection, blanks at its end included: up to a sign, to
a colon that ends a key, or to a comment. -/
def flowPlainLength (previous : Char) : List Char → Nat
  | [] => 0
  | c :: rest =>
    let endsKey := c == ':' && match rest with
      | [] => true
      | d :: _ => isSpace d || isFlowSign d
    if isFlowSign c || endsKey || (c == '#' && isSpace previous) then 0
    else flowPlainLength c rest + 1

/-- Folds the blanks inside a plain scalar: those around a line end become what `foldSpaces`
says. -/
def foldPlain : (fuel : Nat) → List Char → List Char
  | 0, text => text
  | _ + 1, [] => []
  | fuel + 1, c :: rest =>
    if isSpace c then
      foldSpaces (c :: rest.takeWhile isSpace) ++ foldPlain fuel (rest.dropWhile isSpace)
    else c :: foldPlain fuel rest

/-- A plain scalar in a flow collection. -/
def flowPlain (text : List Char) : Option (Node × List Char) :=
  if !startsPlain true text then none
  else
    let n := flowPlainLength ' ' text
    let body := ((text.take n).reverse.dropWhile isSpace).reverse
    some (.scalar (String.ofList (foldPlain body.length body)) true, text.drop n)

mutual

/-- A node of a flow collection. -/
def flowNode : (fuel : Nat) → List Char → Option (Node × List Char)
  | 0, _ => none
  | fuel + 1, text =>
    match text with
    | '[' :: rest =>
      (flowItems fuel (skipFlow fuel rest)).map fun (items, behind) => (.sequence items, behind)
    | '{' :: rest =>
      (flowEntries fuel (skipFlow fuel rest)).map fun (es, behind) => (.mapping es, behind)
    | _ => if startsQuoted text then quoted text else flowPlain text

/-- A node, and the value behind a colon if it is a key. -/
def flowPair : (fuel : Nat) → List Char → Option (Node × Option Node × List Char)
  | 0, _ => none
  | fuel + 1, text => do
    let (k, behind) ← flowNode fuel text
    match skipFlow fuel behind with
    | ':' :: rest =>
      let rest := skipFlow fuel rest
      if rest.head? == some ',' || rest.head? == some ']' || rest.head? == some '}' then
        return (k, some .empty, rest)
      let (v, behind) ← flowNode fuel rest
      return (k, some v, skipFlow fuel behind)
    | rest => return (k, none, rest)

/-- The items of a flow sequence up to its closing bracket. -/
def flowItems : (fuel : Nat) → List Char → Option (List Node × List Char)
  | 0, _ => none
  | _ + 1, ']' :: rest => some ([], rest)
  | fuel + 1, text => do
    let (k, v, behind) ← flowPair fuel text
    let item := match v with
      | some v => .mapping [(k, v)]
      | none => k
    match behind with
    | ',' :: rest =>
      let (items, behind) ← flowItems fuel (skipFlow fuel rest)
      return (item :: items, behind)
    | ']' :: rest => return ([item], rest)
    | _ => none

/-- The entries of a flow mapping up to its closing brace. -/
def flowEntries : (fuel : Nat) → List Char → Option (List (Node × Node) × List Char)
  | 0, _ => none
  | _ + 1, '}' :: rest => some ([], rest)
  | fuel + 1, text => do
    let (k, v, behind) ← flowPair fuel text
    let entry := (k, v.getD .empty)
    match behind with
    | ',' :: rest =>
      let (entries, behind) ← flowEntries fuel (skipFlow fuel rest)
      return (entry :: entries, behind)
    | '}' :: rest => return ([entry], rest)
    | _ => none

end

/-! ### Plain scalars and keys in block form -/

/-- A plain text up to a comment, and whether there is one. A colon that would make it a key is not
allowed. -/
def plainLine? (previous : Char) : List Char → Option (List Char × Bool)
  | [] => some ([], false)
  | c :: rest =>
    let endsKey := c == ':' && match rest with
      | [] => true
      | d :: _ => isBlank d
    if endsKey then none
    else if c == '#' && isBlank previous then some ([], true)
    else (plainLine? c rest).map fun (s, comment) => (c :: s, comment)

/-- The lines that continue a plain scalar: indented by `least` at least. Empty lines in between
are line ends of the scalar. -/
def continuePlain (least : Nat) : (emptyLines : Nat) → List Line → Option (List Char × List Line)
  | _, [] => some ([], [])
  | k, line :: rest =>
    if isEmptyLine line then
      match continuePlain least (k + 1) rest with
      | some ([], _) => some ([], line :: rest)
      | outcome => outcome
    else if indentOf line < least || (content line).head? == some '#' then
      some ([], line :: rest)
    else do
      let (s, comment) ← plainLine? ' ' ((content line).dropWhile isBlank)
      let joint := if k == 0 then [' '] else List.replicate k '\n'
      if comment then return (joint ++ trimRight s, rest)
      let (more, behind) ← continuePlain least 0 rest
      return (joint ++ trimRight s ++ more, behind)

/-- The part of a line in front of the colon that ends a plain key, and behind it. -/
def splitKey? (previous : Char) : List Char → Option (List Char × List Char)
  | [] => none
  | c :: rest =>
    let endsKey := c == ':' && match rest with
      | [] => true
      | d :: _ => isBlank d
    if endsKey then some ([], rest)
    else if c == '#' && isBlank previous then none
    else (splitKey? c rest).map fun (k, behind) => (c :: k, behind)

/-- **The key of an entry** at the front of a line, and the text behind its colon. -/
def blockKey? (text : List Char) : Option (Node × List Char) :=
  if startsQuoted text then do
    let (k, behind) ← quoted text
    match behind.dropWhile isBlank with
    | [':'] => return (k, [])
    | ':' :: c :: rest => if isBlank c then some (k, c :: rest) else none
    | _ => none
  else if startsPlain false text then
    (splitKey? ' ' text).map fun (k, behind) =>
      (.scalar (String.ofList (trimRight k)) true, behind)
  else none

/-- A line starts an item of a block sequence. -/
def startsItem : List Char → Bool
  | ['-'] => true
  | '-' :: c :: _ => isBlank c
  | _ => false

/-! ### Block scalars -/

/-- How a block scalar ends: with one line end, with none, or with all there are. -/
inductive Chomp where
  | clip | strip | keep
  deriving DecidableEq, Repr

/-- What follows the sign of a block scalar: how it ends, and its indentation if given. -/
def blockHeader? (chomp : Chomp) (width : Option Nat) : List Char → Option (Chomp × Option Nat)
  | [] => some (chomp, width)
  | '+' :: rest => blockHeader? .keep width rest
  | '-' :: rest => blockHeader? .strip width rest
  | c :: rest =>
    if isBlank c then
      if isFiller rest then some (chomp, width) else none
    else if '1' ≤ c && c ≤ '9' then blockHeader? chomp (some (c.toNat - '0'.toNat)) rest
    else none

/-- The lines of a block scalar without their indentation, and the lines behind it. An empty last
line only says that the line before it has an end. -/
def blockLines (width : Nat) : List Line → List Line × List Line
  | [] => ([], [])
  | [[]] => ([], [[]])
  | line :: rest =>
    if width ≤ indentOf line || (content line).isEmpty then
      let (body, behind) := blockLines width rest
      (line.drop width :: body, behind)
    else ([], line :: rest)

/-- The text of the lines of a block scalar that keeps its line ends. -/
def literalText (lines : List Line) : List Char := lines.flatMap (· ++ ['\n'])

/-- The text of the lines of a block scalar that is folded: a single line end between two lines that
start with no blank is a space. -/
def foldedText : (previous : Option Line) → (emptyLines : Nat) → List Line → List Char
  | none, k, [] => List.replicate k '\n'
  | some _, k, [] => List.replicate (k + 1) '\n'
  | previous, k, [] :: rest => foldedText previous (k + 1) rest
  | none, k, line :: rest => List.replicate k '\n' ++ line ++ foldedText (some line) 0 rest
  | some before, k, line :: rest =>
    let isSpaced := fun l : Line => (l.head?.map isBlank).getD false
    let joint :=
      if isSpaced before || isSpaced line then List.replicate (k + 1) '\n'
      else if k == 0 then [' ']
      else List.replicate k '\n'
    joint ++ line ++ foldedText (some line) 0 rest

/-- Ends the text of a block scalar. -/
def Chomp.apply (chomp : Chomp) (text : List Char) : List Char :=
  let body := (text.reverse.dropWhile (· == '\n')).reverse
  match chomp with
  | .keep => text
  | .strip => body
  | .clip => if body.isEmpty then [] else body ++ (text.drop body.length).take 1

/-- A block scalar behind its sign, with lines indented by `least` at least. -/
def blockScalar (folded : Bool) (least : Nat) (header : List Char) (rest : List Line) :
    Option (Node × List Line) := do
  let (chomp, given) ← blockHeader? .clip none header
  let found := ((rest.find? fun l => !(content l).isEmpty).map indentOf).getD least
  let width := match given with
    | some n => least - 1 + n
    | none => max found least
  let (lines, behind) := blockLines width rest
  let text := if folded then foldedText none 0 lines else literalText lines
  let ended := if behind.isEmpty then text.dropLast else text
  return (.scalar (String.ofList (chomp.apply ended)) false, behind)

/-! ### Nodes in block form -/

/-- A scalar or flow collection that starts at `text`, the rest of a line before `rest`. Its further
lines are indented by `least` at least. -/
def inlineNode (least : Nat) (text : List Char) (rest : List Line) : Option (Node × List Line) :=
  let closing (outcome : Option (Node × List Char)) : Option (Node × List Line) := do
    let (node, behind) ← outcome
    match splitLines behind with
    | [] => return (node, [])
    | last :: rest => if isFiller last then some (node, rest) else none
  let whole := joinLines (text :: rest)
  match text with
  | '|' :: header => blockScalar false least header rest
  | '>' :: header => blockScalar true least header rest
  | '[' :: _ => closing (flowNode (whole.length + 1) whole)
  | '{' :: _ => closing (flowNode (whole.length + 1) whole)
  | _ =>
    if startsQuoted text then closing (quoted whole)
    else if startsPlain false text then do
      let (s, comment) ← plainLine? ' ' text
      if comment then return (.scalar (String.ofList (trimRight s)) true, rest)
      let (more, behind) ← continuePlain least 0 rest
      return (.scalar (String.ofList (trimRight s ++ more)) true, behind)
    else none

mutual

/-- **A node in block form**, from lines indented by `least` at least. -/
def blockNode : (fuel : Nat) → (least : Nat) → List Line → Option (Node × List Line)
  | 0, _, _ => none
  | fuel + 1, least, lines =>
    match skipFiller lines with
    | [] => some (.empty, [])
    | line :: rest =>
      if indentOf line < least then some (.empty, line :: rest)
      else if startsItem (content line) then
        (blockItems fuel (indentOf line) (line :: rest)).map fun (items, behind) =>
          (.sequence items, behind)
      else if (blockKey? (content line)).isSome then
        (blockEntries fuel (indentOf line) (line :: rest)).map fun (entries, behind) =>
          (.mapping entries, behind)
      else inlineNode least (content line) rest

/-- The items of a block sequence whose dashes stand at `indent`. The text behind a dash is a line
of its own, as far in as it stands. -/
def blockItems : (fuel : Nat) → (indent : Nat) → List Line → Option (List Node × List Line)
  | 0, _, _ => none
  | fuel + 1, indent, lines =>
    match skipFiller lines with
    | [] => some ([], [])
    | line :: rest =>
      if indentOf line < indent then some ([], line :: rest)
      else if indent < indentOf line then none
      else if !startsItem (content line) then some ([], line :: rest)
      else do
        let inner := List.replicate (indent + 1) ' ' ++ (content line).drop 1
        let (item, behind) ← blockNode fuel (indent + 1) (inner :: rest)
        let (items, behind) ← blockItems fuel indent behind
        return (item :: items, behind)

/-- The entries of a block mapping whose keys stand at `indent`. -/
def blockEntries : (fuel : Nat) → (indent : Nat) → List Line →
    Option (List (Node × Node) × List Line)
  | 0, _, _ => none
  | fuel + 1, indent, lines =>
    match skipFiller lines with
    | [] => some ([], [])
    | line :: rest =>
      if indentOf line < indent then some ([], line :: rest)
      else if indent < indentOf line then none
      else do
        let (k, behind) ← blockKey? (content line)
        let text := behind.dropWhile isBlank
        let (v, behind) ←
          if !isFiller text then inlineNode (indent + 1) text rest
          else match skipFiller rest with
            | next :: _ =>
              if indentOf next == indent && startsItem (content next) then
                (blockItems fuel indent rest).map fun (items, behind) =>
                  (Node.sequence items, behind)
              else blockNode fuel (indent + 1) rest
            | [] => some (.empty, [])
        let (entries, behind) ← blockEntries fuel indent behind
        return ((k, v) :: entries, behind)

end

/-! ### Documents -/

/-- A line that starts or ends a document. -/
def isMarker (mark : String) (line : Line) : Bool :=
  mark.toList.isPrefixOf line && ((line.drop 3).head?.map isBlank).getD true

/-- The lines up to the next mark; the line before a mark has an end. -/
def toMarker : List Line → List Line
  | [] => []
  | line :: rest =>
    if isMarker "---" line || isMarker "..." line then [[]] else line :: toMarker rest

/-- **The lines of the first document.** Directives need the mark of a document's start. -/
def firstDocument (lines : List Line) : List Line :=
  let isDirective := fun line : Line => line.head? == some '%'
  match lines.dropWhile fun line => isDirective line || isFiller line with
  | line :: rest =>
    if isMarker "---" line then ("   ".toList ++ line.drop 3) :: toMarker rest
    else toMarker lines
  | [] => toMarker lines

/-- **The tree of a text.** A byte order mark in front is passed over. -/
def read? (text : String) : Option Node :=
  let chars := plainLines (match text.toList with
    | '\uFEFF' :: rest => rest
    | chars => chars)
  if chars.all isAllowed then
    match blockNode (chars.length + 2) 0 (firstDocument (splitLines chars)) with
    | some (node, behind) => if (skipFiller behind).isEmpty then some node else none
    | none => none
  else none

/-! ### Settings -/

/-- The plain scalars that denote nothing. -/
def isNull (text : String) : Bool := ["", "~", "null", "Null", "NULL"].contains text

/-- The truth value of a scalar. The short words denote one whether quoted or not. -/
def truth? (text : String) (plain : Bool) : Option Bool :=
  if plain && ["true", "True", "TRUE"].contains text then some true
  else if plain && ["false", "False", "FALSE"].contains text then some false
  else if ["y", "Y", "yes", "on"].contains text then some true
  else if ["n", "N", "no", "off"].contains text then some false
  else none

/-- Sets a field to a node. A null sets nothing. -/
def setField (o : Overrides) (f : Field) : Node → Option Overrides
  | .scalar text plain =>
    if plain && isNull text then some o
    else if f.isFlag then (truth? text plain).bind fun b => o.set? f (.flag b)
    else o.set? f (.text text)
  | _ => none

/-- Adds an entry of the document's mapping. A key that is no scalar has no name. -/
def addEntry (o : Overrides) : Node × Node → Option Overrides
  | (.scalar name plain, v) =>
    match Field.names.lookup name with
    | some f => if plain && isNull name then some o else setField o f v
    | none => some o
  | _ => none

/-- What tells keys apart: a scalar by its text, and collections only by their sort. -/
def keyText : Node → String × Nat
  | .scalar text _ => (text, 0)
  | .sequence _ => ("", 1)
  | .mapping _ => ("", 2)

/-- The settings of a document. -/
def Node.overrides? : Node → Option Overrides
  | .scalar text plain => if plain && isNull text then some {} else none
  | .sequence _ => none
  | .mapping entries =>
    let keys := entries.map fun e => keyText e.1
    if keys.eraseDups.length < keys.length then none
    else entries.foldlM addEntry {}

/-- **The settings of a text.** -/
def overrides? (text : String) : Option Overrides :=
  (read? text).bind Node.overrides?

end Lox.Settings.Yaml
