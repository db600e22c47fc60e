import Mathlib
import Lox.Proofs.PrintedValues
import Lox.Proofs.Script
import Lox.Proofs.Unquoting

/-!
# Tokens told from their dumps

A dump of tokens has a line for each of them, and a token may hold any text: line ends, quotes,
whatever looks like the marks between the fields of a dump. Still the tokens can be told from it. All
characters of a dump are printable, so that a line of it is the dump of one token; and the fields of
a token can be told one after another, a kind by its name up to the comma, a text by its quotes, the
line by its digits.

- `Text.Quoted.isPrintable_of_mem_string`: nothing in quoted text but printable characters.
- `TokenKind.name_inj`: a kind is told by its name, also if it has none of its own.
- `Token.dump_inj`, `Token.isPrintable_dump`: the dump of one token.
- `linesText_inj`: lines are told from their text if no line end stands in them.
- `token_dumps_eq_iff`: the dumps of lists of tokens.
-/

namespace Lox

/-! ### Printable characters -/

namespace Text

/-- The characters from the space to the tilde. -/
def isBasic (c : Char) : Bool := 0x20 ≤ c.toNat && c.toNat ≤ 0x7E

theorem isPrintable_of_isBasic {c : Char} (h : isBasic c = true) : isPrintable c = true :=
  List.any_eq_true.mpr ⟨(0x20, 0x7E), List.mem_cons_self, h⟩

theorem isBasic_of_isDigit {c : Char} (h : c.isDigit = true) : isBasic c = true := by
  obtain ⟨hlow, hhigh⟩ := Char.isDigit_iff_toNat.mp h
  simp only [isBasic, Bool.and_eq_true, decide_eq_true_eq]
  exact ⟨Nat.le_trans (by decide) hlow, Nat.le_trans hhigh (by decide)⟩

/-- **A line end is not printable.** -/
theorem isPrintable_newline : isPrintable '\n' = false := by decide +kernel

namespace Quoted

theorem isBasic_of_mem_toDigits {n : Nat} {d : Char} (h : d ∈ Nat.toDigits 16 n) :
    isBasic d = true := by
  have hdigit : ∀ k < 16, isBasic (Nat.digitChar k) = true := by decide
  induction n using Nat.strongRecOn with
  | ind n ih =>
    rw [Nat.toDigits_eq_if (by decide)] at h
    split at h
    · next hlt =>
      obtain rfl := List.mem_singleton.mp h
      exact hdigit n hlt
    · rcases List.mem_append.mp h with h | h
      · exact ih (n / 16) (by omega) h
      · obtain rfl := List.mem_singleton.mp h
        exact hdigit _ (Nat.mod_lt n (by decide))

theorem isBasic_of_mem_hex {width n : Nat} {d : Char} (h : d ∈ hex width n) : isBasic d = true := by
  rcases List.mem_append.mp h with h | h
  · rw [List.eq_of_mem_replicate h]
    rfl
  · exact isBasic_of_mem_toDigits h

theorem isBasic_of_mem_numericEscape {c d : Char} (h : d ∈ numericEscape c) :
    isBasic d = true := by
  obtain ⟨mark, width, hmark, -, -, heq⟩ := numericEscape_eq c
  have hbasic : isBasic mark = true := by
    unfold digitCount? at hmark
    split at hmark <;> cases hmark <;> rfl
  rw [heq] at h
  rcases List.mem_cons.mp h with rfl | h
  · rfl
  rcases List.mem_cons.mp h with rfl | h
  · exact hbasic
  · exact isBasic_of_mem_hex h

theorem isBasic_controlLetter {c letter : Char} (h : controlLetter? c = some letter) :
    isBasic letter = true := by
  unfold controlLetter? at h
  split at h <;> cases h <;> rfl

/-- **Whatever a character is, it is written with printable ones.** -/
theorem isPrintable_of_mem_escape {c d : Char} (h : d ∈ escape '"' c) : isPrintable d = true := by
  have hslash : isBasic '\\' = true := rfl
  unfold escape at h
  split at h
  · next hquote =>
    have hbasic : isBasic c = true := by
      rcases Bool.or_eq_true _ _ ▸ hquote with hc | hc <;> rw [eq_of_beq hc] <;> rfl
    rcases List.mem_pair.mp h with rfl | rfl
    · exact isPrintable_of_isBasic hslash
    · exact isPrintable_of_isBasic hbasic
  split at h
  · next hprintable =>
    obtain rfl := List.mem_singleton.mp h
    exact hprintable
  split at h
  · next letter hletter =>
    rcases List.mem_pair.mp h with rfl | rfl
    · exact isPrintable_of_isBasic hslash
    · exact isPrintable_of_isBasic (isBasic_controlLetter hletter)
  · exact isPrintable_of_isBasic (isBasic_of_mem_numericEscape h)

/-- **Nothing stands in quoted text but printable characters.** -/
theorem isPrintable_of_mem_string {s : String} {d : Char} (h : d ∈ (string s).toList) :
    isPrintable d = true := by
  rw [string, between, String.toList_ofList] at h
  rcases List.mem_cons.mp h with rfl | h
  · rfl
  rcases List.mem_append.mp h with h | h
  · obtain ⟨c, -, hd⟩ := List.mem_flatMap.mp h
    exact isPrintable_of_mem_escape hd
  · obtain rfl := List.mem_singleton.mp h
    rfl

end Quoted

end Text

open Text (isBasic isPrintable)

/-! ### Kinds and lines -/

namespace TokenKind

theorem mem_named_or_unnamed (kind : TokenKind) : kind ∈ named ∨ ∃ i, kind = unnamed i := by
  cases kind with
  | unnamed i => exact .inr ⟨i, rfl⟩
  | _ => exact .inl (by decide)

theorem toList_name_unnamed (i : Fin 217) :
    (unnamed i).name.toList = "TokenType(".toList ++ (Nat.toDigits 10 (39 + i.val) ++ [')']) := by
  have hclose : ")".toList = [')'] := rfl
  rw [name, String.toList_append, String.toList_append, Nat.toString_eq_repr, Nat.toList_repr,
    hclose, List.append_assoc]

/-- In a name of its own a kind has no comma and no parenthesis. -/
theorem named_chars {kind : TokenKind} (h : kind ∈ named) :
    ∀ c ∈ kind.name.toList, isBasic c = true ∧ c ≠ ',' ∧ c ≠ '(' := by
  have hall : ∀ kind ∈ named,
      kind.name.toList.all (fun c => isBasic c && c != ',' && c != '(') = true := by decide
  simpa [and_assoc] using hall kind h

theorem name_ne_unnamed {kind : TokenKind} (h : kind ∈ named) (i : Fin 217) :
    kind.name ≠ (unnamed i).name := by
  intro heq
  have hparen : '(' ∈ kind.name.toList := by
    rw [heq, toList_name_unnamed]
    exact List.mem_append_left _ (by decide)
  exact (named_chars h '(' hparen).2.2 rfl

/-- **A kind is told by its name.** -/
theorem name_inj {kind kind' : TokenKind} (h : kind.name = kind'.name) : kind = kind' := by
  rcases kind.mem_named_or_unnamed with hnamed | ⟨i, rfl⟩ <;>
    rcases kind'.mem_named_or_unnamed with hnamed' | ⟨j, rfl⟩
  · exact List.inj_on_of_nodup_map (by decide : (named.map name).Nodup) hnamed hnamed' h
  · exact absurd h (name_ne_unnamed hnamed j)
  · exact absurd h.symm (name_ne_unnamed hnamed' i)
  · have htext := congrArg String.toList h
    rw [toList_name_unnamed, toList_name_unnamed] at htext
    have hdigits := List.append_cancel_right (List.append_cancel_left htext)
    rw [← Nat.toList_repr, ← Nat.toList_repr, String.toList_inj, Nat.repr_inj] at hdigits
    exact congrArg unnamed (Fin.ext (by omega))

/-- The comma behind a name is not in the name. -/
theorem name_chars (kind : TokenKind) : ∀ c ∈ kind.name.toList, isBasic c = true ∧ c ≠ ',' := by
  rcases kind.mem_named_or_unnamed with hnamed | ⟨i, rfl⟩
  · exact fun c hc => (named_chars hnamed c hc).imp_right And.left
  · rw [toList_name_unnamed]
    simp only [List.forall_mem_append]
    refine ⟨by simp [isBasic], fun c hc => ?_, by simp [isBasic]⟩
    have hdigit := Nat.isDigit_of_mem_toDigits (by decide) (by decide) hc
    refine ⟨Text.isBasic_of_isDigit hdigit, ?_⟩
    rintro rfl
    cases hdigit

theorem comma_notMem_name (kind : TokenKind) : ',' ∉ kind.name.toList :=
  fun hcomma => (kind.name_chars ',' hcomma).2 rfl

end TokenKind

/-- The text of a line is a number, perhaps with a sign. -/
theorem isBasic_of_mem_toString {line : Int} {c : Char} (h : c ∈ (toString line).toList) :
    isBasic c = true := by
  have hdigits : ∀ {n : Nat}, c ∈ n.repr.toList → isBasic c = true := by
    intro n hc
    rw [Nat.toList_repr] at hc
    exact Text.isBasic_of_isDigit (Nat.isDigit_of_mem_toDigits (by decide) (by decide) hc)
  rw [Int.toString_eq_repr, Int.repr_eq_if] at h
  split at h
  · exact hdigits h
  · rw [String.toList_append] at h
    rcases List.mem_append.mp h with h | h
    · obtain rfl := List.mem_singleton.mp h
      rfl
    · exact hdigits h

/-! ### One token -/

namespace Token

/-- The fields of a dump with the marks between them. -/
theorem toList_dump (t : Token) :
    t.dump.toList = "\x7bType: ".toList ++ (t.kind.name.toList ++ (", Lexeme: ".toList
      ++ ((Text.Quoted.string t.lexeme).toList ++ (", Literal: ".toList
      ++ ((Text.Quoted.string t.literal).toList ++ (", Line: ".toList
      ++ ((toString t.line).toList ++ "\x7d".toList))))))) := by
  unfold dump
  simp only [String.toList_append, List.append_assoc]

/-- **A token is told by its dump**, whatever its texts hold. -/
theorem dump_inj {t t' : Token} (h : t.dump = t'.dump) : t = t' := by
  have htext := congrArg String.toList h
  rw [toList_dump, toList_dump] at htext
  obtain ⟨hkind, hlater⟩ := append_mark_inj t.kind.comma_notMem_name t'.kind.comma_notMem_name
    (List.append_cancel_left htext)
  -- quoted text ends by itself, whatever follows it
  obtain ⟨hlexeme, hlater⟩ := Text.Quoted.string_append_inj (List.append_cancel_left hlater)
  obtain ⟨hliteral, hlater⟩ := Text.Quoted.string_append_inj (List.append_cancel_left hlater)
  have hline := String.toList_inj.mp (List.append_cancel_right (List.append_cancel_left hlater))
  rw [Int.toString_eq_repr, Int.toString_eq_repr, Int.repr_inj] at hline
  cases t
  cases t'
  rw [Token.mk.injEq]
  exact ⟨TokenKind.name_inj (String.toList_inj.mp hkind), hlexeme, hliteral, hline⟩

/-- **All characters of a dump are printable.** -/
theorem isPrintable_dump (t : Token) : ∀ c ∈ t.dump.toList, isPrintable c = true := by
  have hmark : ∀ mark : String, mark.toList.all isBasic = true →
      ∀ c ∈ mark.toList, isPrintable c = true := by
    intro mark hall c hc
    exact Text.isPrintable_of_isBasic (List.all_eq_true.mp hall c hc)
  have hkind : ∀ c ∈ t.kind.name.toList, isPrintable c = true := by
    intro c hc
    exact Text.isPrintable_of_isBasic (t.kind.name_chars c hc).1
  have hquoted : ∀ s : String, ∀ c ∈ (Text.Quoted.string s).toList, isPrintable c = true := by
    intro s c hc
    exact Text.Quoted.isPrintable_of_mem_string hc
  have hline : ∀ c ∈ (toString t.line).toList, isPrintable c = true := by
    intro c hc
    exact Text.isPrintable_of_isBasic (isBasic_of_mem_toString hc)
  rw [toList_dump]
  simp only [List.forall_mem_append]
  exact ⟨hmark _ (by decide), hkind, hmark _ (by decide), hquoted _, hmark _ (by decide), hquoted _,
    hmark _ (by decide), hline, hmark _ (by decide)⟩

theorem newline_notMem_dump (t : Token) : '\n' ∉ t.dump.toList := by
  intro h
  have hprintable := t.isPrintable_dump '\n' h
  rw [Text.isPrintable_newline] at hprintable
  cases hprintable

end Token

/-! ### Lines of tokens -/

theorem toList_linesText_cons (line : String) (later : List String) :
    (linesText (line :: later)).toList = line.toList ++ '\n' :: (linesText later).toList := by
  simp [linesText, Reporter.line]

/-- **Lines are told from their text** if no line end stands in them. -/
theorem linesText_inj {lines lines' : List String} (hlines : ∀ line ∈ lines, '\n' ∉ line.toList)
    (hlines' : ∀ line ∈ lines', '\n' ∉ line.toList) (h : linesText lines = linesText lines') :
    lines = lines' := by
  have hne : ∀ (line : String) (later : List String), linesText [] ≠ linesText (line :: later) := by
    intro line later heq
    have htext := congrArg String.toList heq
    rw [toList_linesText_cons] at htext
    exact List.append_ne_nil_of_right_ne_nil _ (List.cons_ne_nil _ _) htext.symm
  induction lines generalizing lines' with
  | nil =>
    cases lines' with
    | nil => rfl
    | cons line' later' => exact absurd h (hne line' later')
  | cons line later ih =>
    cases lines' with
    | nil => exact absurd h.symm (hne line later)
    | cons line' later' =>
      obtain ⟨hline, hlines⟩ := List.forall_mem_cons.mp hlines
      obtain ⟨hline', hlines'⟩ := List.forall_mem_cons.mp hlines'
      have htext := congrArg String.toList h
      rw [toList_linesText_cons, toList_linesText_cons] at htext
      obtain ⟨hsame, hlater⟩ := append_mark_inj hline hline' htext
      rw [String.toList_inj.mp hsame, ih hlines hlines' (String.toList_inj.mp hlater)]

/-- **Dumps of tokens are the same text if and only if the tokens are the same**: what the program
writes with a line for each token tells all of them, in number, in order and in every field, whatever
their texts hold. No line end stands in the dump of a token. -/
theorem token_dumps_eq_iff (ts ts' : List Token) :
    (Event.stdout (ts.map fun t => App.printed t.dump)
        = Event.stdout (ts'.map fun t => App.printed t.dump) ↔ ts = ts')
      ∧ ∀ t : Token, '\n' ∉ t.dump.toList := by
  have hdumps : ∀ ts : List Token, Event.stdout (ts.map fun t => App.printed t.dump)
      = linesText (ts.map Token.dump) := by
    intro ts
    rw [← App.stdout_printed, List.map_map]
    rfl
  have hone : ∀ ts : List Token, ∀ line ∈ ts.map Token.dump, '\n' ∉ line.toList := by
    intro ts line hline
    obtain ⟨t, -, rfl⟩ := List.mem_map.mp hline
    exact t.newline_notMem_dump
  refine ⟨?_, Token.newline_notMem_dump⟩
  constructor
  · intro h
    rw [hdumps, hdumps] at h
    have hlines := linesText_inj (hone ts) (hone ts') h
    exact List.map_injective_iff.mpr (fun _ _ => Token.dump_inj) hlines
  · rintro rfl
    rfl

end Lox
