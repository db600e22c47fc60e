import Lox.Proofs.Parse
import Lox.Proofs.Spacing

/-!
# Writing expressions as source text

A tree is written by putting its operators between or in front of its operands, with single spaces
between the lexemes. No parentheses are added, so a tree can be read back only if its shape agrees
with the precedence of its operators; then scanning and parsing the text returns the tree.

- `Expr.RespectsPrecedence`: the operands of every operator bind at least as tightly as it needs.
- `Expr.Written`: the lexemes that write a tree. A number may be written by any of its spellings.
- `Expr.unplaced`, `Expr.respelled`: a tree without the lines of its operator tokens, and a tree
  with the tokens that its operators are spelled by.
- `derives_of_written`: the grammar derives the tree from the tokens of its lexemes.
- `parse_scan_written`: scanning and parsing return the tree.
-/

namespace Lox

/-! ### Operator tokens -/

/-- The kind of the token that spells the operator. -/
def UnaryOp.kind : UnaryOp → TokenKind
  | not => .bang
  | negate => .minus

/-- The kind of the token that spells the operator. -/
def BinaryOp.kind : BinaryOp → TokenKind
  | equal => .equalEqual
  | notEqual => .bangEqual
  | less => .less
  | lessEqual => .lessEqual
  | greater => .greater
  | greaterEqual => .greaterEqual
  | add => .plus
  | subtract => .minus
  | multiply => .star
  | divide => .slash

/-- A token without its line. -/
def Token.unplaced (t : Token) : Token := { t with line := 0 }

/-- A tree with its operator tokens replaced. -/
def Expr.mapTokens (unaryToken : UnaryOp → Token → Token)
    (binaryToken : BinaryOp → Token → Token) : Expr → Expr
  | literal v => literal v
  | grouping inner => grouping (inner.mapTokens unaryToken binaryToken)
  | unary op t right => unary op (unaryToken op t) (right.mapTokens unaryToken binaryToken)
  | binary left op t right =>
    binary (left.mapTokens unaryToken binaryToken) op (binaryToken op t)
      (right.mapTokens unaryToken binaryToken)

/-- **A tree without the lines of its operator tokens.** Two trees are the same up to lines if
nothing else tells them apart. -/
def Expr.unplaced (e : Expr) : Expr :=
  e.mapTokens (fun _ => Token.unplaced) fun _ => Token.unplaced

/-- **A tree with the tokens that its operators are spelled by**, whatever tokens it had. -/
def Expr.respelled (e : Expr) : Expr :=
  e.mapTokens (fun op _ => ⟨op.kind, op.symbol, "", 0⟩) fun op _ => ⟨op.kind, op.symbol, "", 0⟩

/-! ### Precedence -/

/-- How tightly a binary operator binds. -/
def BinaryOp.tightness : BinaryOp → Nat
  | equal | notEqual => 1
  | less | lessEqual | greater | greaterEqual => 2
  | add | subtract => 3
  | multiply | divide => 4

namespace Expr

/-- **How tightly a tree is bound together** at its root. -/
def tightness : Expr → Nat
  | literal _ => 6
  | grouping _ => 6
  | unary _ _ _ => 5
  | binary _ op _ _ => op.tightness

/-- **The tree needs no parentheses beyond those it has**: a left operand may bind as loosely as its
operator, a right operand must bind more tightly. -/
def RespectsPrecedence : Expr → Prop
  | literal _ => True
  | grouping inner => inner.RespectsPrecedence
  | unary _ _ right => 5 ≤ right.tightness ∧ right.RespectsPrecedence
  | binary left op _ right =>
    op.tightness ≤ left.tightness ∧ op.tightness + 1 ≤ right.tightness
      ∧ left.RespectsPrecedence ∧ right.RespectsPrecedence

instance decidableRespectsPrecedence : DecidablePred RespectsPrecedence
  | literal _ => .isTrue trivial
  | grouping inner => decidableRespectsPrecedence inner
  | unary _ _ right =>
    have := decidableRespectsPrecedence right
    inferInstanceAs (Decidable (_ ∧ _))
  | binary left _ _ right =>
    have := decidableRespectsPrecedence left
    have := decidableRespectsPrecedence right
    inferInstanceAs (Decidable (_ ∧ _ ∧ _ ∧ _))

/-- The values of the literals of a tree, from left to right. -/
def values : Expr → List Value
  | literal v => [v]
  | grouping inner => inner.values
  | unary _ _ right => right.values
  | binary left _ _ right => left.values ++ right.values

end Expr

/-! ### Writing -/

/-- **A lexeme writes a value.** A string stands between quotes as it is, so it must hold none; a
number has no lexeme, one or many. -/
inductive Value.Written : Value → String → Prop
  | nil : Written .nil "nil"
  | yes : Written (.bool true) "true"
  | no : Written (.bool false) "false"
  | number {n : Number} {text : String} : Segment.Belongs .number text.toList →
      Number.read? text = some n → Written (.number n) text
  | string {s : String} : '"' ∉ s.toList → Written (.string s) ("\"" ++ s ++ "\"")

/-- **Lexemes write a tree**, operators between or in front of their operands. -/
inductive Expr.Written : Expr → List String → Prop
  | literal {v : Value} {lexeme : String} : v.Written lexeme → Written (.literal v) [lexeme]
  | grouping {inner : Expr} {w : List String} :
      Written inner w → Written (.grouping inner) ("(" :: (w ++ [")"]))
  | unary {op : UnaryOp} {t : Token} {right : Expr} {w : List String} :
      Written right w → Written (.unary op t right) (op.symbol :: w)
  | binary {left right : Expr} {op : BinaryOp} {t : Token} {u v : List String} :
      Written left u → Written right v → Written (.binary left op t right) (u ++ op.symbol :: v)

theorem Expr.exists_written {e : Expr} (h : ∀ v ∈ e.values, ∃ lexeme, v.Written lexeme) :
    ∃ lexemes, e.Written lexemes := by
  induction e with
  | literal v =>
    obtain ⟨lexeme, hv⟩ := h v List.mem_cons_self
    exact ⟨[lexeme], .literal hv⟩
  | grouping inner ih =>
    obtain ⟨w, hw⟩ := ih h
    exact ⟨_, .grouping hw⟩
  | unary op t right ih =>
    obtain ⟨w, hw⟩ := ih h
    exact ⟨_, .unary hw⟩
  | binary left op t right ihl ihr =>
    obtain ⟨u, hu⟩ := ihl fun v hv => h v (List.mem_append_left _ hv)
    obtain ⟨v, hv⟩ := ihr fun v hv => h v (List.mem_append_right _ hv)
    exact ⟨_, .binary hu hv⟩

/-! ### Lexemes of a tree -/

namespace Segment

variable {lexeme : String} {t : Token}

theorem Lexes.eq_of_spelling (h : Lexes lexeme t) (kind : TokenKind)
    (hkind : spelling? kind = some lexeme.toList) : t = ⟨kind, lexeme, "", t.line⟩ := by
  have hdenotes := h.denotes (.mark hkind)
  generalize htext : lexeme.toList = text at hdenotes
  cases hdenotes with
  | mark _ => rw [← htext, String.ofList_toList]

theorem Lexes.kind_of_keyword {kind : TokenKind} (h : Lexes lexeme t)
    (hword : Belongs .word lexeme.toList) (hkind : TokenKind.keyword? lexeme = some kind) :
    t.kind = kind := by
  have hdenotes := h.denotes hword
  generalize htext : lexeme.toList = text at hdenotes
  have hlexeme : String.ofList text = lexeme := by rw [← htext, String.ofList_toList]
  cases hdenotes with
  | reserved hreserved =>
    rw [hlexeme, hkind] at hreserved
    exact (Option.some.inj hreserved).symm
  | identifier hnone =>
    rw [hlexeme, hkind] at hnone
    cases hnone

theorem Lexes.of_number (h : Lexes lexeme t) (hnumber : Belongs .number lexeme.toList) :
    t.kind = .number ∧ t.literal = lexeme := by
  have hdenotes := h.denotes hnumber
  generalize htext : lexeme.toList = text at hdenotes
  cases hdenotes with
  | number => exact ⟨rfl, by rw [← htext, String.ofList_toList]⟩

theorem belongs_quoted {s : String} (h : '"' ∉ s.toList) :
    Belongs .string ("\"" ++ s ++ "\"").toList := by
  simpa using Belongs.string h

theorem Lexes.of_quoted {s : String} (h : Lexes ("\"" ++ s ++ "\"") t) (hs : '"' ∉ s.toList) :
    t.kind = .string ∧ t.literal = s := by
  have hdenotes := h.denotes (belongs_quoted hs)
  generalize htext : ("\"" ++ s ++ "\"").toList = text at hdenotes
  cases hdenotes with
  | @string body _ =>
    -- the text between the quotes is the same on both sides
    obtain rfl : s.toList = body := by simpa using htext
    exact ⟨rfl, String.ofList_toList⟩

theorem belongs_word {word : String} {c : Char} {rest : List Char} (h : word.toList = c :: rest)
    (hstart : isWordStart c) (hparts : rest.all isWordPart) : Belongs .word word.toList := by
  rw [h]
  rw [List.all_eq_true] at hparts
  exact .word (isWordStart_iff.mp hstart) fun d hd => isWordPart_iff.mp (hparts d hd)

end Segment

open Segment

theorem UnaryOp.spelling?_kind (op : UnaryOp) : spelling? op.kind = some op.symbol.toList := by
  cases op <;> rfl

theorem BinaryOp.spelling?_kind (op : BinaryOp) : spelling? op.kind = some op.symbol.toList := by
  cases op <;> rfl

theorem isLexeme_of_spelling (kind : TokenKind) {lexeme : String}
    (h : spelling? kind = some lexeme.toList) : IsLexeme lexeme :=
  ⟨.mark kind, rfl, .mark h⟩

theorem belongs_nil : Belongs .word "nil".toList := belongs_word rfl rfl rfl

theorem belongs_true : Belongs .word "true".toList := belongs_word rfl rfl rfl

theorem belongs_false : Belongs .word "false".toList := belongs_word rfl rfl rfl

theorem Value.Written.isLexeme {v : Value} {lexeme : String} (h : v.Written lexeme) :
    IsLexeme lexeme := by
  cases h with
  | nil => exact ⟨.word, rfl, belongs_nil⟩
  | yes => exact ⟨.word, rfl, belongs_true⟩
  | no => exact ⟨.word, rfl, belongs_false⟩
  | number hnumber _ => exact ⟨.number, rfl, hnumber⟩
  | string hs => exact ⟨.string, rfl, belongs_quoted hs⟩

/-- The token of a value's lexeme spells the value. -/
theorem Value.Written.spells {v : Value} {lexeme : String} (h : v.Written lexeme) {t : Token}
    (ht : Lexes lexeme t) : Grammar.Spells t v := by
  cases h with
  | nil => exact .nothing (ht.kind_of_keyword belongs_nil rfl)
  | yes => exact .yes (ht.kind_of_keyword belongs_true rfl)
  | no => exact .no (ht.kind_of_keyword belongs_false rfl)
  | number hnumber hread =>
    obtain ⟨hkind, hliteral⟩ := ht.of_number hnumber
    exact .number hkind (hliteral ▸ hread)
  | string hs =>
    obtain ⟨hkind, hliteral⟩ := ht.of_quoted hs
    rw [← hliteral]
    exact .string hkind

theorem Expr.Written.isLexeme {e : Expr} {lexemes : List String} (h : e.Written lexemes) :
    ∀ l ∈ lexemes, IsLexeme l := by
  induction h with
  | literal hv => exact List.forall_mem_singleton.mpr hv.isLexeme
  | grouping _ ih =>
    have hopen : IsLexeme "(" := isLexeme_of_spelling .leftParen rfl
    have hclose : IsLexeme ")" := isLexeme_of_spelling .rightParen rfl
    simp only [List.forall_mem_cons, List.forall_mem_append]
    exact ⟨hopen, ih, hclose, List.forall_mem_nil _⟩
  | @unary op _ _ _ _ ih =>
    exact List.forall_mem_cons.mpr ⟨isLexeme_of_spelling op.kind op.spelling?_kind, ih⟩
  | @binary _ _ op _ _ _ _ _ ihl ihr =>
    simp only [List.forall_mem_cons, List.forall_mem_append]
    exact ⟨ihl, isLexeme_of_spelling op.kind op.spelling?_kind, ihr⟩

/-! ### The grammar derives a written tree -/

namespace Grammar

/-- The category of the trees that bind this tightly. -/
def category : Nat → Category
  | 1 => .level .equality
  | 2 => .level .comparison
  | 3 => .level .term
  | 4 => .level .factor
  | 5 => .unary
  | _ => .primary

/-- What binds more tightly may stand where less is asked for. -/
theorem Derives.loosen {w : List Token} {e : Expr} {m n : Nat} (h : Derives (category n) w e)
    (hle : m ≤ n) (hm : 1 ≤ m) (hn : n ≤ 6) : Derives (category m) w e := by
  induction hle with
  | refl => exact h
  | @step n hle ih =>
    have hstep : Derives (category n) w e := by
      obtain rfl | rfl | rfl | rfl | rfl : n = 1 ∨ n = 2 ∨ n = 3 ∨ n = 4 ∨ n = 5 := by
        have : m ≤ n := hle
        omega
      · exact .operand h
      · exact .operand h
      · exact .operand h
      · exact .operand h
      · exact .primary h
    exact ih hstep (by omega)

/-- The level of a binary operator takes operands that bind more tightly on its right. -/
theorem category_tightness (op : BinaryOp) :
    ∃ l, category op.tightness = .level l ∧ category (op.tightness + 1) = operands l
      ∧ operator? l op.kind = some op := by
  cases op
  · exact ⟨.equality, rfl, rfl, rfl⟩
  · exact ⟨.equality, rfl, rfl, rfl⟩
  · exact ⟨.comparison, rfl, rfl, rfl⟩
  · exact ⟨.comparison, rfl, rfl, rfl⟩
  · exact ⟨.comparison, rfl, rfl, rfl⟩
  · exact ⟨.comparison, rfl, rfl, rfl⟩
  · exact ⟨.term, rfl, rfl, rfl⟩
  · exact ⟨.term, rfl, rfl, rfl⟩
  · exact ⟨.factor, rfl, rfl, rfl⟩
  · exact ⟨.factor, rfl, rfl, rfl⟩

end Grammar

theorem BinaryOp.tightness_bounds (op : BinaryOp) : 1 ≤ op.tightness ∧ op.tightness ≤ 4 := by
  cases op <;> decide

theorem Expr.tightness_bounds (e : Expr) : 1 ≤ e.tightness ∧ e.tightness ≤ 6 := by
  cases e with
  | literal v => simp [tightness]
  | grouping inner => simp [tightness]
  | unary op t right => simp [tightness]
  | binary left op t right =>
    have hop := op.tightness_bounds
    simp only [tightness]
    omega

/-- Tokens of lexemes are split where the lexemes are. -/
theorem lexes_append {u v : List String} {w : List Token}
    (h : List.Forall₂ Lexes (u ++ v) w) :
    ∃ w₁ w₂, w = w₁ ++ w₂ ∧ List.Forall₂ Lexes u w₁ ∧ List.Forall₂ Lexes v w₂ := by
  refine ⟨w.take u.length, w.drop u.length, (List.take_append_drop _ w).symm, ?_, ?_⟩
  · have htake := List.forall₂_take u.length h
    rwa [List.take_left] at htake
  · have hdrop := List.forall₂_drop u.length h
    rwa [List.drop_left] at hdrop

open Grammar in
/-- **The grammar derives a written tree from the tokens of its lexemes**, with those tokens as its
operator tokens. -/
theorem derives_of_written {e : Expr} {lexemes : List String} (h : e.Written lexemes)
    (hprec : e.RespectsPrecedence) {w : List Token} (hw : List.Forall₂ Lexes lexemes w) :
    ∃ e', Derives (category e.tightness) w e' ∧ e'.unplaced = e.respelled := by
  induction h generalizing w with
  | literal hv =>
    obtain ⟨t, _, ht, hnil, rfl⟩ := List.forall₂_cons_left_iff.mp hw
    obtain rfl := List.forall₂_nil_left_iff.mp hnil
    exact ⟨_, .literal (hv.spells ht), rfl⟩
  | @grouping inner lexemes hinner ih =>
    obtain ⟨opening, rest, hopen, hrest, rfl⟩ := List.forall₂_cons_left_iff.mp hw
    obtain ⟨w', tail, rfl, hw', htail⟩ := lexes_append hrest
    obtain ⟨closing, _, hclose, hnil, rfl⟩ := List.forall₂_cons_left_iff.mp htail
    obtain rfl := List.forall₂_nil_left_iff.mp hnil
    obtain ⟨e', hder, he'⟩ := ih hprec hw'
    have hbounds := inner.tightness_bounds
    refine ⟨.grouping e', .grouping ?_ (hder.loosen hbounds.1 (by omega) hbounds.2) ?_, ?_⟩
    · exact congrArg Token.kind (hopen.eq_of_spelling .leftParen rfl)
    · exact congrArg Token.kind (hclose.eq_of_spelling .rightParen rfl)
    · exact congrArg Expr.grouping he'
  | @unary op t right lexemes hright ih =>
    obtain ⟨tok, rest, htok, hrest, rfl⟩ := List.forall₂_cons_left_iff.mp hw
    obtain ⟨htight, hprec⟩ := hprec
    obtain ⟨e', hder, he'⟩ := ih hprec hrest
    have htok' := htok.eq_of_spelling op.kind op.spelling?_kind
    refine ⟨.unary op tok e',
      .unary ?_ (hder.loosen htight (by omega) right.tightness_bounds.2), ?_⟩
    · rw [htok']
      cases op <;> rfl
    · show Expr.unary op tok.unplaced e'.unplaced = .unary op _ right.respelled
      rw [he', htok']
      rfl
  | @binary left right op t u v hleft hright ihl ihr =>
    obtain ⟨w₁, tail, rfl, hw₁, htail⟩ := lexes_append hw
    obtain ⟨tok, w₂, htok, hw₂, rfl⟩ := List.forall₂_cons_left_iff.mp htail
    obtain ⟨htightl, htightr, hprecl, hprecr⟩ := hprec
    obtain ⟨left', hderl, hleft'⟩ := ihl hprecl hw₁
    obtain ⟨right', hderr, hright'⟩ := ihr hprecr hw₂
    have htok' := htok.eq_of_spelling op.kind op.spelling?_kind
    obtain ⟨l, hlevel, hoperands, hop⟩ := category_tightness op
    have hbounds := op.tightness_bounds
    have hl := hderl.loosen htightl hbounds.1 left.tightness_bounds.2
    have hr := hderr.loosen htightr (by omega) right.tightness_bounds.2
    refine ⟨.binary left' op tok right', ?_, ?_⟩
    · show Derives (category op.tightness) _ _
      rw [hlevel] at hl ⊢
      rw [hoperands] at hr
      refine .binary hl ?_ hr
      rw [htok']
      exact hop
    · show Expr.binary left'.unplaced op tok.unplaced right'.unplaced
        = .binary left.respelled op _ right.respelled
      rw [hleft', hright', htok']
      rfl

theorem kind_ne_eof_of_lexes {lexemes : List String} {tokens : List Token}
    (h : List.Forall₂ Lexes lexemes tokens) : ∀ t ∈ tokens, t.kind ≠ .eof := by
  induction h with
  | nil => exact List.forall_mem_nil _
  | cons hlexes _ ih =>
    obtain ⟨form, -, hdenotes⟩ := hlexes
    exact List.forall_mem_cons.mpr ⟨hdenotes.kind_ne_eof, ih⟩

/-- The end token of a scan is its first one. -/
theorem Parser.inner_append_eof {tokens : List Token} (h : ∀ t ∈ tokens, t.kind ≠ .eof)
    (line : Int) : Parser.inner (tokens ++ [.eof line]) = tokens := by
  have hall : ∀ t ∈ tokens, Parser.isInner t := fun t ht => by
    simpa [Parser.isInner] using h t ht
  rw [Parser.inner, List.takeWhile_append_of_pos hall]
  simp [Parser.isInner, Token.eof]

/-- **A written tree is read back.** A tree that respects precedence, whose strings hold no quotes
and whose numbers can be spelled, can be written. However it is written, scanning the text finds no
error and parsing it returns the tree, its operator tokens being those that spell its operators; a
tree that had such tokens comes back as it was, up to their lines. -/
theorem parse_scan_written (e : Expr) (hprec : e.RespectsPrecedence)
    (hstrings : ∀ s, .string s ∈ e.values → '"' ∉ s.toList)
    (hnumbers : ∀ n, .number n ∈ e.values →
      ∃ text : String, Belongs .number text.toList ∧ Number.read? text = some n) :
    (∃ lexemes, e.Written lexemes) ∧ ∀ lexemes, e.Written lexemes →
      (scan (" ".intercalate lexemes)).errors = [] ∧
      ∃ e', (Parser.ofTokens (scan (" ".intercalate lexemes)).tokens).parse.result = .ok e'
        ∧ e'.unplaced = e.respelled ∧ (e.unplaced = e.respelled → e'.unplaced = e.unplaced) := by
  refine ⟨Expr.exists_written fun v hv => ?_, fun lexemes hwritten => ?_⟩
  · cases v with
    | nil => exact ⟨_, .nil⟩
    | bool b => cases b with
      | true => exact ⟨_, .yes⟩
      | false => exact ⟨_, .no⟩
    | number n =>
      obtain ⟨text, hnumber, hread⟩ := hnumbers n hv
      exact ⟨text, .number hnumber hread⟩
    | string s => exact ⟨_, .string (hstrings s hv)⟩
  · obtain ⟨tokens, endLine, htokens, hlexes, herrors⟩ := scan_spaced hwritten.isLexeme
    obtain ⟨e', hder, he'⟩ := derives_of_written hwritten hprec hlexes
    have hbounds := e.tightness_bounds
    have hsentence : Grammar.Derives (.level .equality) tokens e' :=
      hder.loosen hbounds.1 (by omega) hbounds.2
    have hinner : Parser.inner (scan (" ".intercalate lexemes)).tokens = tokens := by
      rw [htokens]
      exact Parser.inner_append_eof (kind_ne_eof_of_lexes hlexes) endLine
    have hparse : (Parser.ofTokens (scan (" ".intercalate lexemes)).tokens).parse.view.1
        = .ok e' := by
      rw [Parser.view_parse_of_derives rfl (by rwa [Parser.ahead_ofTokens, hinner])]
    exact ⟨herrors, e', hparse, he', fun htokens => he'.trans htokens.symm⟩

/-- A string that looks like a comment, a binary and a unary minus: `"a // b" - - 0.5`. -/
theorem parse_scan_written_minus_minus :
    let minus : Token := ⟨.minus, "-", "", 7⟩
    let half : Number := .finite false (1 <<< 1073)
    let e : Expr := .binary (.literal (.string "a // b")) .subtract minus
      (.unary .negate minus (.literal (.number half)))
    e.RespectsPrecedence ∧ e.Written ["\"a // b\"", "-", "-", "0.5"] ∧
      ∃ e', (Parser.ofTokens (scan "\"a // b\" - - 0.5").tokens).parse.result = .ok e'
        ∧ e'.unplaced = e.unplaced := by
  intro minus half e
  have hprec : e.RespectsPrecedence := by decide
  have hhalf : Belongs .number "0.5".toList :=
    Belongs.fraction (List.cons_ne_nil '0' []) (List.forall_mem_singleton.mpr rfl)
      (List.cons_ne_nil '5' []) (List.forall_mem_singleton.mpr rfl)
  have hread : Number.read? "0.5" = some half := by decide +kernel
  have hstring : '"' ∉ "a // b".toList := by decide
  have hwritten : e.Written ["\"a // b\"", "-", "-", "0.5"] :=
    .binary (.literal (.string hstring)) (.unary (.literal (.number hhalf hread)))
  have hround := parse_scan_written e hprec (fun s hs => ?_) (fun n hn => ?_)
  · obtain ⟨-, e', hparse, -, hsame⟩ := hround.2 _ hwritten
    exact ⟨hprec, hwritten, e', hparse, hsame rfl⟩
  · obtain rfl : s = "a // b" := by simpa [e, Expr.values] using hs
    exact hstring
  · obtain rfl : n = half := by simpa [e, Expr.values] using hn
    exact ⟨"0.5", hhalf, hread⟩

end Lox
