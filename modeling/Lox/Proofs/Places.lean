import Lox.Proofs.Lines

/-!
# Lines and places

The segments of a text stand one right behind the other, so each has its place, and a place has a
line: the first one, and one more for each line end before it. A token is on the line of the place
behind its lexeme, however many lines the lexeme covers, and so is an error. Bad characters end no
line, so their errors are as well on the line of the place before them.

- `Segment.Placed`, `Segment.placed`: a segment and where it starts; all segments of a text.
- `Segment.pairwise_placed`: no segment starts before the one in front of it has ended.
- `lineAt`: the line of a place.
- `Segment.TokenAt`, `Segment.ErrorAt`: what the place of a segment tells about its token and its
  error.
- `Segment.Cuts.tokenAt`, `Segment.Cuts.errorAt`: it does so for every cut, behind any text.
- `lines_by_place`: the tokens and errors of a scan are on the lines of their places, in order.
-/

namespace Lox

/-- **The line of a place**, behind the first `n` characters of a text. Lines count from one. -/
def lineAt (text : List Char) (n : Nat) : Int := 1 + (text.take n).count '\n'

theorem lineAt_mono (text : List Char) {m n : Nat} (h : m ≤ n) : lineAt text m ≤ lineAt text n := by
  have hcount := (List.take_sublist_take_left h (l := text)).count_le '\n'
  unfold lineAt
  omega

theorem lineAt_le (text : List Char) (n : Nat) : lineAt text n ≤ 1 + text.count '\n' := by
  have hcount := (List.take_sublist n text).count_le '\n'
  unfold lineAt
  omega

theorem lineAt_append (front rest : List Char) :
    lineAt (front ++ rest) front.length = 1 + front.count '\n' := by
  rw [lineAt, List.take_left]

namespace Segment

/-! ### Segments at their places -/

/-- **A segment at its place**: `start` characters of the text stand before it. -/
structure Placed where
  segment : Segment
  start : Nat

namespace Placed

/-- The number of characters up to the end of the segment. -/
def stop (p : Placed) : Nat := p.start + p.segment.text.length

/-- The segment becomes a token. -/
def isLexeme (p : Placed) : Bool := p.segment.form.isLexeme

/-- The segment becomes an error. -/
def isFaulty (p : Placed) : Bool := p.segment.form.isFaulty

end Placed

/-- **Segments at their places**, one right behind the other, the first behind `start` characters. -/
def placed (start : Nat) : List Segment → List Placed
  | [] => []
  | s :: rest => ⟨s, start⟩ :: placed (start + s.text.length) rest

theorem start_le_of_mem_placed {start : Nat} {segments : List Segment} :
    ∀ p ∈ placed start segments, start ≤ p.start := by
  induction segments generalizing start with
  | nil => exact List.forall_mem_nil _
  | cons s rest ih =>
    intro p hp
    rcases List.mem_cons.mp hp with rfl | hp
    · exact Nat.le_refl _
    · have := ih p hp
      omega

/-- **No segment starts before the one in front of it has ended.** -/
theorem pairwise_placed (start : Nat) (segments : List Segment) :
    (placed start segments).Pairwise fun p q => p.stop ≤ q.start := by
  induction segments generalizing start with
  | nil => exact .nil
  | cons s rest ih => exact .cons start_le_of_mem_placed (ih _)

/-- What is told of places in order has a place for each item. -/
theorem exists_place {α : Type} {R : Placed → α → Prop} {places : List Placed} {items : List α}
    (h : List.Forall₂ R places items) {a : α} (ha : a ∈ items) : ∃ p ∈ places, R p a := by
  induction h with
  | nil => cases ha
  | @cons p b places items hp _ ih =>
    rcases List.mem_cons.mp ha with rfl | ha
    · exact ⟨p, List.mem_cons_self, hp⟩
    · obtain ⟨q, hq, hqa⟩ := ih ha
      exact ⟨q, List.mem_cons_of_mem p hq, hqa⟩

/-- **Lines of places in the order of the segments never go back.** -/
theorem pairwise_le_of_placed {α : Type} {line : α → Int} {items : List α} {text : List Char}
    {start : Nat} {segments : List Segment} {wanted : Placed → Bool}
    (h : List.Forall₂ (fun p a => line a = lineAt text p.stop)
      ((placed start segments).filter wanted) items) : (items.map line).Pairwise (· ≤ ·) := by
  have hplaces := (pairwise_placed start segments).filter wanted
  generalize (placed start segments).filter wanted = places at h hplaces
  rw [List.pairwise_map]
  induction h with
  | nil => exact .nil
  | @cons p a places items hp hrest ih =>
    obtain ⟨hbehind, hplaces⟩ := List.pairwise_cons.mp hplaces
    refine .cons (fun b hb => ?_) (ih hplaces)
    obtain ⟨q, hq, hline⟩ := exists_place hrest hb
    have hstop : p.stop ≤ q.stop := by
      have := hbehind q hq
      unfold Placed.stop at this ⊢
      omega
    rw [hp, hline]
    exact lineAt_mono text hstop

/-! ### What a place tells -/

/-- **The token of a segment at its place**: its lexeme is the text of the place, its line that of
the place behind it. -/
structure TokenAt (text : List Char) (p : Placed) (t : Token) : Prop where
  denotes : Denotes p.segment t
  lexeme_eq : t.lexeme.toList = (text.take p.stop).drop p.start
  line_eq : t.line = lineAt text p.stop

/-- **The error of a segment at its place.** A string that is left open reaches to the end of the
text, and its error is on the last line; a bad character is on the line of the place before it. -/
structure ErrorAt (text : List Char) (p : Placed) (e : ScanError) : Prop where
  reports : Reports p.segment e
  unterminated : e.cause = .unterminatedString →
    p.stop = text.length ∧ e.line = 1 + text.count '\n'
  bad : e.cause = .unexpectedCharacter →
    ∃ c, text[p.start]? = some c ∧ e.details = Text.Quoted.char c ∧ e.line = lineAt text p.start
  line_eq : e.line = lineAt text p.stop

theorem token?_eq_some {s : Segment} {line : Int} {t : Token} (h : s.token? line = some t) :
    t.lexeme = String.ofList s.text ∧ t.line = line := by
  unfold token? at h
  split at h <;> cases h <;> exact ⟨rfl, rfl⟩

/-- The line behind a segment that stands behind the text `front`. -/
theorem lineAt_stop (s : Segment) (front rest : List Char) :
    lineAt (front ++ (s.text ++ rest)) (Placed.stop ⟨s, front.length⟩)
      = 1 + (front ++ s.text).count '\n' := by
  rw [Placed.stop, ← List.length_append, ← List.append_assoc, lineAt_append]

/-- A segment moves the line on by its line ends. -/
theorem line_add_newlines (s : Segment) (front : List Char) :
    (1 + front.count '\n' : Int) + s.newlines = 1 + (front ++ s.text).count '\n' := by
  rw [List.count_append, newlines]
  omega

section

variable {s : Segment} {rest : List Char} (h : Heads s rest) (front : List Char)

include h

/-- The token of a segment that stands behind the text `front`, if it is a lexeme. -/
theorem Heads.tokenAt :
    List.Forall₂ (TokenAt (front ++ (s.text ++ rest)))
      ([⟨s, front.length⟩].filter Placed.isLexeme)
      (s.token? (1 + (front ++ s.text).count '\n')).toList := by
  have hdenotes := h.denotes (1 + (front ++ s.text).count '\n')
  have hplaced : [⟨s, front.length⟩].filter Placed.isLexeme
      = bif s.form.isLexeme then [⟨s, front.length⟩] else [] := List.filter_singleton
  rw [List.filter_singleton] at hdenotes
  rw [hplaced]
  cases hform : s.form.isLexeme with
  | false =>
    rw [hform] at hdenotes
    rw [List.forall₂_nil_left_iff.mp hdenotes]
    exact .nil
  | true =>
    rw [hform] at hdenotes
    obtain ⟨t, _, hst, hnil, htoken⟩ := List.forall₂_cons_left_iff.mp hdenotes
    obtain rfl := List.forall₂_nil_left_iff.mp hnil
    obtain ⟨hlexeme, hline⟩ := token?_eq_some (Option.toList_eq_singleton_iff.mp htoken)
    rw [htoken]
    refine .cons ⟨hst, ?_, ?_⟩ .nil
    · rw [hlexeme, String.toList_ofList]
      simp [Placed.stop, List.take_append]
    · rw [hline, lineAt_stop]

/-- The error of a segment that stands behind the text `front`, if something is wrong with it. -/
theorem Heads.errorAt :
    List.Forall₂ (ErrorAt (front ++ (s.text ++ rest)))
      ([⟨s, front.length⟩].filter Placed.isFaulty)
      (s.error? (1 + (front ++ s.text).count '\n')).toList := by
  have hstop := lineAt_stop s front rest
  cases h with
  | longest hbelongs _ => cases hbelongs <;> exact .nil
  | @unterminated body _ =>
    refine .cons ⟨.unterminated, fun _ => ?_, fun hcause => ?_, hstop.symm⟩ .nil
    · simp [Placed.stop]
    · cases hcause
  | @bad c rest hnone =>
    have hnewline : c ≠ '\n' := by
      rintro rfl
      exact hnone .blank [] (.blank (by decide))
    refine .cons ⟨.bad, fun hcause => ?_, fun _ => ⟨c, by simp, rfl, ?_⟩, hstop.symm⟩ .nil
    · cases hcause
    · -- the character itself adds no line
      show (1 : Int) + (front ++ [c]).count '\n' = _
      rw [lineAt_append, List.count_append, List.count_cons_of_ne hnewline, List.count_nil,
        Nat.add_zero]

end

/-! ### Cuts -/

section

variable {text : List Char} {segments : List Segment} (h : Cuts text segments) (front : List Char)

include h

/-- **The tokens of a cut that stands behind the text `front`.** -/
theorem Cuts.tokenAt :
    List.Forall₂ (TokenAt (front ++ text)) ((placed front.length segments).filter Placed.isLexeme)
      (tokens (1 + front.count '\n') segments) := by
  induction h generalizing front with
  | done => exact .nil
  | @next s rest segments hheads _ ih =>
    have hrest := ih (front ++ s.text)
    rw [List.append_assoc, List.length_append] at hrest
    rw [tokens, line_add_newlines, placed, ← List.singleton_append, List.filter_append]
    exact List.rel_append (hheads.tokenAt front) hrest

/-- **The errors of a cut that stands behind the text `front`.** -/
theorem Cuts.errorAt :
    List.Forall₂ (ErrorAt (front ++ text)) ((placed front.length segments).filter Placed.isFaulty)
      (errors (1 + front.count '\n') segments) := by
  induction h generalizing front with
  | done => exact .nil
  | @next s rest segments hheads _ ih =>
    have hrest := ih (front ++ s.text)
    rw [List.append_assoc, List.length_append] at hrest
    rw [errors, line_add_newlines, placed, ← List.singleton_append, List.filter_append]
    exact List.rel_append (hheads.errorAt front) hrest

end

end Segment

open Segment

/-- **The lines of a scan.** The source has one cut. Each token is on the line of the place behind
its lexeme, and the end token on the line of the end. An error about a string that is left open is on
that line too, and one about a bad character on the line of the place before the character. So the
lines of the tokens never go back, nor do those of the errors. -/
theorem lines_by_place (source : String) :
    ∃ segments lexemes, (∀ cut, Cuts source.toList cut ↔ cut = segments) ∧
      (scan source).tokens = lexemes ++ [.eof (1 + source.toList.count '\n')] ∧
      List.Forall₂ (TokenAt source.toList) ((placed 0 segments).filter Placed.isLexeme) lexemes ∧
      List.Forall₂ (ErrorAt source.toList) ((placed 0 segments).filter Placed.isFaulty)
        (scan source).errors ∧
      ((scan source).tokens.map Token.line).Pairwise (· ≤ ·) ∧
      ((scan source).errors.map ScanError.line).Pairwise (· ≤ ·) := by
  have hcut := cuts_cut source.toList
  have htokens : List.Forall₂ (TokenAt source.toList)
      ((placed 0 (cut source.toList)).filter Placed.isLexeme)
      (Segment.tokens 1 (cut source.toList)) := hcut.tokenAt []
  have herrors : List.Forall₂ (ErrorAt source.toList)
      ((placed 0 (cut source.toList)).filter Placed.isFaulty) (scan source).errors :=
    hcut.errorAt []
  have hscan : (scan source).tokens
      = Segment.tokens 1 (cut source.toList) ++ [.eof (1 + source.toList.count '\n')] := by
    rw [← lineAfter_cut]
    rfl
  refine ⟨cut source.toList, Segment.tokens 1 (cut source.toList), fun _ => cuts_iff, hscan,
    htokens, herrors, ?_, ?_⟩
  · rw [hscan, List.map_append, List.pairwise_append]
    refine ⟨pairwise_le_of_placed (htokens.imp fun _ _ ht => ht.line_eq),
      List.pairwise_singleton _ _, ?_⟩
    intro line hline ending hending
    obtain ⟨t, ht, rfl⟩ := List.mem_map.mp hline
    obtain rfl := List.mem_singleton.mp hending
    obtain ⟨p, -, hp⟩ := exists_place htokens ht
    rw [hp.line_eq]
    exact lineAt_le source.toList p.stop
  · exact pairwise_le_of_placed (herrors.imp fun _ _ he => he.line_eq)

end Lox
