/-!
# Token kinds

The kinds of a token: punctuation, operators, literals, reserved words and the end of input. A kind
has a number below 256; numbers past the named kinds are kinds too, with a name made from the number.

* `TokenKind`: the kinds; `TokenKind.named` lists those with a name in the order of their numbers.
* `TokenKind.name`: the name shown in token dumps.
* `TokenKind.keyword?`, `TokenKind.keywords`: the reserved words.
* `TokenKind.startsStatement`: the reserved words at which recovery from a syntax error stops.
-/

namespace Lox

/-- **The kind of a token.** `unnamed i` is the kind with number `39 + i`. -/
inductive TokenKind where
  | leftParen | rightParen | leftBrace | rightBrace | comma | dot | minus | plus | semicolon
  | slash | star
  | bang | bangEqual | equal | equalEqual | greater | greaterEqual | less | lessEqual
  | identifier | string | number
  | andWord | classWord | elseWord | falseWord | funWord | forWord | ifWord | nilWord | orWord
  | printWord | returnWord | superWord | thisWord | trueWord | varWord | whileWord
  | eof
  | unnamed (offset : Fin 217)
  deriving DecidableEq, Repr, Inhabited

namespace TokenKind

/-- **The name of a kind.** -/
def name : TokenKind → String
  | leftParen => "LEFT_PAREN"
  | rightParen => "RIGHT_PAREN"
  | leftBrace => "LEFT_BRACE"
  | rightBrace => "RIGHT_BRACE"
  | comma => "COMMA"
  | dot => "DOT"
  | minus => "MINUS"
  | plus => "PLUS"
  | semicolon => "SEMICOLON"
  | slash => "SLASH"
  | star => "STAR"
  | bang => "BANG"
  | bangEqual => "BANG_EQUAL"
  | equal => "EQUAL"
  | equalEqual => "EQUAL_EQUAL"
  | greater => "GREATER"
  | greaterEqual => "GREATER_EQUAL"
  | less => "LESS"
  | lessEqual => "LESS_EQUAL"
  | identifier => "IDENTIFIER"
  | string => "STRING"
  | number => "NUMBER"
  | andWord => "AND"
  | classWord => "CLASS"
  | elseWord => "ELSE"
  | falseWord => "FALSE"
  | funWord => "FUN"
  | forWord => "FOR"
  | ifWord => "IF"
  | nilWord => "NIL"
  | orWord => "OR"
  | printWord => "PRINT"
  | returnWord => "RETURN"
  | superWord => "SUPER"
  | thisWord => "THIS"
  | trueWord => "TRUE"
  | varWord => "VAR"
  | whileWord => "WHILE"
  | eof => "EOF"
  | unnamed i => "TokenType(" ++ toString (39 + i.val) ++ ")"

/-- The kinds with a name of their own; the position of each is its number. -/
def named : List TokenKind :=
  [leftParen, rightParen, leftBrace, rightBrace, comma, dot, minus, plus, semicolon, slash, star,
   bang, bangEqual, equal, equalEqual, greater, greaterEqual, less, lessEqual,
   identifier, string, number,
   andWord, classWord, elseWord, falseWord, funWord, forWord, ifWord, nilWord, orWord, printWord,
   returnWord, superWord, thisWord, trueWord, varWord, whileWord, eof]

/-- **The kind with a number**, `none` from 256 on. -/
def ofCode? (code : Nat) : Option TokenKind :=
  match named[code]? with
  | some kind => some kind
  | none => if h : code - 39 < 217 then some (unnamed ⟨code - 39, h⟩) else none

/-- **The number of a kind.** -/
def code : TokenKind → Nat
  | unnamed i => 39 + i.val
  | kind => named.idxOf kind

/-- The reserved words with their kinds, in alphabetical order. -/
def reservedWords : List (String × TokenKind) :=
  [("and", andWord), ("class", classWord), ("else", elseWord), ("false", falseWord),
   ("for", forWord), ("fun", funWord), ("if", ifWord), ("nil", nilWord), ("or", orWord),
   ("print", printWord), ("return", returnWord), ("super", superWord), ("this", thisWord),
   ("true", trueWord), ("var", varWord), ("while", whileWord)]

/-- **The kind of a reserved word**, `none` for every other word. -/
def keyword? (word : String) : Option TokenKind :=
  reservedWords.lookup word

/-- **All reserved words**, in alphabetical order. -/
def keywords : List String :=
  reservedWords.map Prod.fst

/-- **The kind of a word**: that of the reserved word, or an identifier. -/
def ofWord (word : String) : TokenKind :=
  (keyword? word).getD identifier

/-- **A reserved word that starts a statement.** -/
def startsStatement : TokenKind → Bool
  | classWord | funWord | varWord | forWord | ifWord | whileWord | printWord | returnWord => true
  | _ => false

end TokenKind

end Lox
