import Lox.Proofs.Lines
import Lox.Proofs.Relabelling

/-!
# Source text written again with single spaces

A lexeme has one token up to the line it stands on. So the lexemes of a source text, written again
with single spaces between them, are scanned to the same tokens up to lines, whatever errors, blanks
and comments stood between them; and parsing does not see lines.

- `Segment.Lexes.unplaced_eq`: the tokens of a lexeme are the same up to lines.
- `Segment.Cuts.lexes`: the tokens of a cut are tokens of their lexemes.
- `Segment.alike_of_lexes`: token lists of the same lexemes.
- `scan_written_again`: scanning and parsing the lexemes of a source text once more.
-/

namespace Lox

namespace Segment

/-! ### The token of a lexeme -/

theorem Denotes.isLexeme {s : Segment} {t : Token} (h : Denotes s t) : s.form.isLexeme := by
  cases h <;> rfl

theorem Denotes.lexeme_eq {s : Segment} {t : Token} (h : Denotes s t) :
    t.lexeme.toList = s.text := by
  cases h <;> exact String.toList_ofList

/-- A segment tells everything about its token but the line. -/
theorem Denotes.unplaced_eq {s : Segment} {t t' : Token} (h : Denotes s t) (h' : Denotes s t') :
    t.unplaced = t'.unplaced := by
  cases h with
  | mark _ => cases h'; rfl
  | @string body line =>
    -- the text between the quotes is told by the whole text
    generalize htext : '"' :: (body ++ ['"']) = text at h'
    cases h' with
    | @string body' line' =>
      obtain rfl : body = body' := List.append_cancel_right (List.cons.inj htext).2
      rfl
  | number => cases h'; rfl
  | reserved hword =>
    cases h' with
    | reserved hword' =>
      obtain rfl := Option.some.inj (hword.symm.trans hword')
      rfl
    | identifier hword' => cases hword.symm.trans hword'
  | identifier hword =>
    cases h' with
    | reserved hword' => cases hword.symm.trans hword'
    | identifier _ => rfl

/-- **The tokens of a lexeme are the same up to lines.** -/
theorem Lexes.unplaced_eq {lexeme : String} {t t' : Token} (h : Lexes lexeme t)
    (h' : Lexes lexeme t') : t.unplaced = t'.unplaced := by
  obtain ⟨form, hform, hdenotes⟩ := h
  exact hdenotes.unplaced_eq (h'.denotes hform)

theorem Lexes.isLexeme {lexeme : String} {t : Token} (h : Lexes lexeme t) : IsLexeme lexeme := by
  obtain ⟨form, hform, hdenotes⟩ := h
  exact ⟨form, hdenotes.isLexeme, hform⟩

/-- **Token lists of the same lexemes are the same up to lines.** -/
theorem alike_of_lexes {lexemes : List String} {tokens tokens' : List Token}
    (h : List.Forall₂ Lexes lexemes tokens) (h' : List.Forall₂ Lexes lexemes tokens') :
    tokens.map Token.unplaced = tokens'.map Token.unplaced := by
  induction h generalizing tokens' with
  | nil =>
    rw [List.forall₂_nil_left_iff.mp h']
  | cons ht _ ih =>
    obtain ⟨t', rest', ht', hrest', rfl⟩ := List.forall₂_cons_left_iff.mp h'
    rw [List.map_cons, List.map_cons, ht.unplaced_eq ht', ih hrest']

/-! ### The tokens of a scan -/

theorem Heads.belongs {s : Segment} {rest : List Char} (h : Heads s rest)
    (hform : s.form.isLexeme) : Belongs s.form s.text := by
  cases h with
  | longest hbelongs _ => exact hbelongs
  | unterminated _ => cases hform
  | bad _ => cases hform

theorem Heads.lexes {s : Segment} {rest : List Char} (h : Heads s rest) {line : Int} {t : Token}
    (ht : s.token? line = some t) : Lexes t.lexeme t := by
  have hdenotes := h.denotes line
  rw [ht] at hdenotes
  obtain ⟨s', rest', hst, -, hs'⟩ := List.forall₂_cons_right_iff.mp hdenotes
  have hmem : s' ∈ [s].filter (·.form.isLexeme) := hs' ▸ List.mem_cons_self
  obtain rfl := List.mem_singleton.mp (List.mem_filter.mp hmem).1
  refine ⟨s'.form, ?_, ?_⟩ <;> rw [hst.lexeme_eq]
  · exact h.belongs hst.isLexeme
  · exact hst

/-- **The tokens of a cut are tokens of their lexemes.** -/
theorem Cuts.lexes {text : List Char} {segments : List Segment} (h : Cuts text segments)
    (line : Int) : ∀ t ∈ tokens line segments, Lexes t.lexeme t := by
  induction h generalizing line with
  | done => exact List.forall_mem_nil _
  | next hheads _ ih =>
    intro t ht
    rcases List.mem_append.mp ht with ht | ht
    · exact hheads.lexes (Option.mem_toList.mp ht)
    · exact ih _ t ht

end Segment

open Segment

theorem lexes_of_mem_lexemes {source : String} {t : Token} (ht : t ∈ (scan source).lexemes) :
    Lexes t.lexeme t := by
  rw [lexemes_scan] at ht
  exact (cuts_cut source.toList).lexes 1 t ht

theorem sealed_scan (source : String) : Parser.Sealed (scan source).tokens :=
  ⟨(scan source).lexemes, .eof (scan source).endLine, tokens_scan source,
    Scan.kind_ne_eof_of_mem_lexemes, rfl⟩

/-! ### Once more -/

/-- **The lexemes of a source text, with single spaces between them, come to the same.** The source
may have errors; scanning its lexemes finds none. It gives the same tokens up to lines, then the end
token, and parsing the two token lists gives the same trees up to lines, or fails at the same places
for the same causes. The places are those of the kinds and literals alone: tokens on other lines
fail there too. -/
theorem scan_written_again (source : String) :
    let first := scan source
    let again := scan (" ".intercalate (first.lexemes.map Token.lexeme))
    again.errors = []
      ∧ (∃ tokens endLine, again.tokens = tokens ++ [.eof endLine]
        ∧ tokens.map Token.unplaced = first.lexemes.map Token.unplaced)
      ∧ ((∃ es es', (Parser.ofTokens first.tokens).parseAll.1 = .ok es
          ∧ (Parser.ofTokens again.tokens).parseAll.1 = .ok es'
          ∧ es'.map Expr.unplaced = es.map Expr.unplaced)
        ∨ ∃ places, Parser.FailsAt places first.tokens ∧ Parser.FailsAt places again.tokens
          ∧ ∀ tokens, Parser.Alike tokens first.tokens → Parser.FailsAt places tokens) := by
  intro first again
  have hlexes : List.Forall₂ Lexes (first.lexemes.map Token.lexeme) first.lexemes := by
    rw [List.forall₂_map_left_iff, List.forall₂_same]
    exact fun t ht => lexes_of_mem_lexemes ht
  have hlexeme : ∀ l ∈ first.lexemes.map Token.lexeme, IsLexeme l := by
    intro l hl
    obtain ⟨t, ht, rfl⟩ := List.mem_map.mp hl
    exact (lexes_of_mem_lexemes ht).isLexeme
  obtain ⟨tokens, endLine, htokens, hlexes', herrors⟩ := scan_spaced hlexeme
  have hsame : tokens.map Token.unplaced = first.lexemes.map Token.unplaced :=
    alike_of_lexes hlexes' hlexes
  have halike : Parser.Alike again.tokens first.tokens := by
    show again.tokens.map Token.unplaced = first.tokens.map Token.unplaced
    rw [htokens, show first.tokens = first.lexemes ++ [.eof first.endLine] from tokens_scan source,
      List.map_append, List.map_append, hsame]
    rfl
  refine ⟨herrors, ⟨tokens, endLine, htokens, hsame⟩, ?_⟩
  rcases Parser.parseAll_alike (sealed_scan source) with ⟨trees, htrees⟩ | ⟨places, hplaces⟩
  · left
    obtain ⟨es, hes, hunplaced⟩ := htrees first.tokens rfl
    obtain ⟨es', hes', hunplaced'⟩ := htrees again.tokens halike
    exact ⟨es, es', hes, hes', hunplaced'.trans hunplaced.symm⟩
  · right
    exact ⟨places, hplaces first.tokens rfl, hplaces again.tokens halike, hplaces⟩

end Lox
