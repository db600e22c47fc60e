import Lox.Proofs.Regions
import Lox.Source.Scan

/-!
# What is reported

Errors go two ways: they are collected into the fault that scanning or parsing returns, and they are
reported one by one as they are found. Both ways lead to the same texts in the same order.

- `Parser.exists_errors`: the faults of a list of statements are errors at tokens, in the order of
  the tokens.
- `Fault.reportText`: what is written about a fault, each of its errors on a line.
- `Reporter.told`: the reporter after a fault was reported; `reportTo_eq_told` and
  `reportParseAll_eq_told` say that scanning and parsing report the fault they return.
- `sourceFault?`: the fault of a source text, of its characters or else of its tokens; by
  `isStatic_of_sourceFault?` it always lies in the user's text.
-/

namespace Lox

namespace Parser

/-! ### Errors among statements, in the order of their tokens -/

theorem mem_of_mem_regions {finish : Token} {tokens : List Token} {r : Region}
    (hr : r ∈ regions finish tokens) : ∀ t ∈ r.body, t ∈ tokens := by
  induction tokens generalizing r with
  | nil => cases hr
  | cons t rest ih =>
    intro t' ht'
    rw [regions] at hr
    split at hr
    · rcases List.mem_cons.mp hr with rfl | hr
      · cases ht'
      · exact List.mem_cons_of_mem t (ih hr t' ht')
    · cases hrest : regions finish rest with
      | nil =>
        rw [hrest] at hr
        obtain rfl := List.mem_singleton.mp hr
        rw [List.mem_singleton.mp ht']
        exact List.mem_cons_self
      | cons first later =>
        rw [hrest] at ih hr
        rcases List.mem_cons.mp hr with rfl | hr
        · rcases List.mem_cons.mp ht' with rfl | ht'
          · exact List.mem_cons_self
          · exact List.mem_cons_of_mem t (ih List.mem_cons_self t' ht')
        · exact List.mem_cons_of_mem t (ih (List.mem_cons_of_mem first hr) t' ht')

/-- The regions hold the tokens in their order. -/
theorem regions_sublist (finish : Token) (tokens : List Token) :
    ((regions finish tokens).flatMap fun r => r.body ++ [r.terminator]).Sublist
      (tokens ++ [finish]) := by
  induction tokens with
  | nil => exact List.nil_sublist _
  | cons t rest ih =>
    rw [regions]
    split
    · exact ih.cons_cons t
    · cases hrest : regions finish rest with
      | nil => exact (List.sublist_append_right rest [finish]).cons_cons t
      | cons first later =>
        rw [hrest] at ih
        exact ih.cons_cons t

/-- **The faults of a region are errors at its tokens**, in their order; at its end they name its
terminator. -/
theorem Region.exists_errors {r : Region} (hbody : ∀ t ∈ r.body, t.kind ≠ .eof) :
    ∃ es : List ParseError, r.faults = es.map .parse
      ∧ (es.map ParseError.token).Sublist (r.body ++ [r.terminator]) := by
  cases hresult : (ofTokens r.body).parse.result with
  | ok e => exact ⟨[], by simp [faults, hresult], List.nil_sublist _⟩
  | error f =>
    obtain ⟨w, rest, s, ha, -, -, -, rfl, hposition⟩ := halt_of_parse_error hresult
    rw [inner_of_no_eof hbody] at ha
    have hstray : r.strays.Sublist (r.body.drop (w.length + 1)) := by
      refine List.filter_sublist.trans (List.drop_sublist_drop_left _ ?_)
      show w.length + 1 ≤ (ofTokens r.body).parse.next.position + 1
      rw [hposition]
      split <;> omega
    refine ⟨⟨if (s.error rest (ofTokens r.body).finish).token.kind = .eof then r.terminator
        else (s.error rest (ofTokens r.body).finish).token,
      asStatement (s.error rest (ofTokens r.body).finish).cause⟩ ::
        r.strays.map fun t => ⟨t, .unexpectedToken⟩, ?_, ?_⟩
    · simp [faults, hresult, relocate]
    · have hid : (ParseError.token ∘ fun t => ⟨t, .unexpectedToken⟩) = (id : Token → Token) := rfl
      rw [List.map_cons, List.map_map, hid, List.map_id]
      cases rest with
      | nil =>
        -- at the end of the region nothing is left for recovery to stop at
        rw [ha, List.append_nil, List.drop_of_length_le (Nat.le_succ _)] at hstray
        rw [List.sublist_nil.mp hstray]
        have heof : (s.error [] (ofTokens r.body).finish).token.kind = .eof :=
          (closed_eq_ahead r.body).2
        rw [if_pos heof]
        exact List.sublist_append_right _ _
      | cons t rest =>
        have ht : t.kind ≠ .eof := hbody t (by simp [ha])
        have htoken : (s.error (t :: rest) (ofTokens r.body).finish).token = t := rfl
        rw [htoken, if_neg ht]
        rw [ha, List.drop_length_add_append] at hstray
        rw [ha, List.append_assoc]
        refine List.Sublist.trans ?_ (List.sublist_append_right w _)
        exact (hstray.trans (List.sublist_append_left rest _)).cons_cons t

theorem exists_errors_flatMap {rs : List Region}
    (h : ∀ r ∈ rs, ∀ t ∈ r.body, t.kind ≠ .eof) :
    ∃ es : List ParseError, rs.flatMap Region.faults = es.map .parse
      ∧ (es.map ParseError.token).Sublist (rs.flatMap fun r => r.body ++ [r.terminator]) := by
  induction rs with
  | nil => exact ⟨[], rfl, List.nil_sublist _⟩
  | cons r rs ih =>
    obtain ⟨es, hes, hsub⟩ := Region.exists_errors (h r List.mem_cons_self)
    obtain ⟨es', hes', hsub'⟩ := ih fun r' hr' => h r' (List.mem_cons_of_mem r hr')
    refine ⟨es ++ es', ?_, ?_⟩
    · rw [List.flatMap_cons, List.map_append, hes, hes']
    · rw [List.flatMap_cons, List.map_append]
      exact hsub.append hsub'

/-- **The faults of a list of statements are errors at its tokens**, in the order of the tokens. -/
theorem exists_errors (tokens : List Token) :
    ∃ es : List ParseError, faults (ofTokens tokens).statements.1 = es.map .parse
      ∧ (es.map ParseError.token).Sublist (closed tokens) := by
  have hinner : ∀ r ∈ regionsOf tokens, ∀ t ∈ r.body, t.kind ≠ .eof := fun r hr t ht =>
    kind_ne_eof_of_mem_inner (mem_of_mem_regions hr t ht)
  obtain ⟨es, hes, hsub⟩ := exists_errors_flatMap hinner
  refine ⟨es, ?_, ?_⟩
  · rw [statements_ofTokens, faults_flatMap, hes]
  · have hregions := regions_sublist (ofTokens tokens).finish (inner tokens)
    have hclosed := (closed_eq_ahead tokens).1
    rw [hclosed, List.append_cons]
    exact (hsub.trans hregions).trans (List.sublist_append_left _ _)

end Parser

/-! ### Reporting errors at their places -/

namespace Reporter

/-- The line of an error. -/
theorem reportFault_scan (r : Reporter) (e : ScanError) :
    r.reportFault (.scan e) = r.writeError (Fault.scan e).message := by
  simp [reportFault, reportSingle, Fault.firstDiagnostic?, report, Fault.message]

theorem reportFault_parse (r : Reporter) (e : ParseError) :
    r.reportFault (.parse e) = r.writeError (Fault.parse e).message := by
  simp [reportFault, reportSingle, Fault.firstDiagnostic?, report, Fault.message]

end Reporter

/-- **The text of lines.** -/
def linesText (lines : List String) : String := String.join (lines.map Reporter.line)

/-- Faults that are each reported by their text are reported line by line. -/
theorem Reporter.reportFaults_eq {fs : List Fault}
    (h : ∀ f ∈ fs, ∀ r : Reporter, r.reportFault f = r.writeError f.message) (r : Reporter) :
    r.reportFaults fs
      = ⟨r.output ++ linesText (fs.map Fault.message), r.hadError || !fs.isEmpty⟩ := by
  induction fs generalizing r with
  | nil => simp [reportFaults, linesText]
  | cons f fs ih =>
    rw [reportFaults, h f List.mem_cons_self, ih fun f' hf' => h f' (List.mem_cons_of_mem f hf')]
    simp [writeError, linesText, String.append_assoc]

/-- **What is written about a fault**: each of the errors it collects on a line. -/
def Fault.reportText : Option Fault → String
  | none => ""
  | some f => linesText ((f.parts?.getD [f]).map message)

/-- **The reporter after a fault was reported**, if there was one. -/
def Reporter.told (r : Reporter) (f : Option Fault) : Reporter :=
  ⟨r.output ++ Fault.reportText f, r.hadError || f.isSome⟩

theorem Fault.reportText_join (fs : List Fault) :
    Fault.reportText (Fault.join (fs.map some)) = linesText (fs.map Fault.message) := by
  rw [join_map_some]
  split
  · next h => rw [h]; rfl
  · rfl

theorem Reporter.reportFaults_eq_told {fs : List Fault}
    (h : ∀ f ∈ fs, ∀ r : Reporter, r.reportFault f = r.writeError f.message) (r : Reporter) :
    r.reportFaults fs = r.told (Fault.join (fs.map some)) := by
  rw [reportFaults_eq h, told, Fault.reportText_join, Fault.join_map_some]
  cases fs <;> rfl

theorem Scan.fault?_eq (s : Scan) : s.fault? = Fault.join ((s.errors.map .scan).map some) := by
  rw [fault?, List.map_map]
  rfl

/-- **Scanning reports the fault it returns.** -/
theorem Scan.reportTo_eq_told (s : Scan) (r : Reporter) : s.reportTo r = r.told s.fault? := by
  have hall : ∀ f ∈ s.errors.map Fault.scan, ∀ r : Reporter,
      r.reportFault f = r.writeError f.message := by
    intro f hf r
    obtain ⟨e, -, rfl⟩ := List.mem_map.mp hf
    exact r.reportFault_scan e
  rw [reportTo, Reporter.reportFaults_eq_told hall, fault?_eq]

/-- The fault of tokens that are parsed as a list of statements. -/
def tokensFault? (tokens : List Token) : Option Fault :=
  match (Parser.ofTokens tokens).parseAll.1 with
  | .error f => some f
  | .ok _ => none

theorem tokensFault?_eq (tokens : List Token) :
    tokensFault? tokens
      = Fault.join ((Parser.faults (Parser.ofTokens tokens).statements.1).map some) := by
  unfold tokensFault? Parser.parseAll Parser.gather
  cases Fault.join ((Parser.faults (Parser.ofTokens tokens).statements.1).map some) <;> rfl

/-- **Parsing reports the fault it returns.** -/
theorem reportParseAll_eq_told (tokens : List Token) (r : Reporter) :
    (Parser.ofTokens tokens).reportParseAll r = r.told (tokensFault? tokens) := by
  obtain ⟨es, hes, -⟩ := Parser.exists_errors tokens
  have hall : ∀ f ∈ Parser.faults (Parser.ofTokens tokens).statements.1, ∀ r : Reporter,
      r.reportFault f = r.writeError f.message := by
    intro f hf r
    rw [hes] at hf
    obtain ⟨e, -, rfl⟩ := List.mem_map.mp hf
    exact r.reportFault_parse e
  rw [Parser.reportParseAll, Reporter.reportFaults_eq_told hall, tokensFault?_eq]

/-! ### The fault of a source text -/

/-- **The fault of a source text**: of its characters or, only if they have none, of its tokens. -/
def sourceFault? (source : String) : Option Fault :=
  (scan source).fault?.or (tokensFault? (scan source).tokens)

theorem isStatic_join {fs : List Fault} (hfs : ∀ f ∈ fs, f.isStatic) {f : Fault}
    (h : Fault.join (fs.map some) = some f) : f.isStatic := by
  rw [Fault.join_map_some] at h
  cases fs with
  | nil => cases h
  | cons g fs =>
    cases h
    simp [Fault.isStatic, Fault.anyStatic, hfs g List.mem_cons_self]

/-- **A fault of a source text lies in the user's text**: it is never one of the program. -/
theorem isStatic_of_sourceFault? {source : String} {f : Fault} (h : sourceFault? source = some f) :
    f.isStatic := by
  rcases Option.or_eq_some_iff.mp h with hscan | ⟨-, hparse⟩
  · have hall : ∀ f ∈ (scan source).errors.map Fault.scan, f.isStatic := by
      intro f hf
      obtain ⟨e, -, rfl⟩ := List.mem_map.mp hf
      simp [Fault.isStatic]
    exact isStatic_join hall ((scan source).fault?_eq ▸ hscan)
  · obtain ⟨es, hes, -⟩ := Parser.exists_errors (scan source).tokens
    rw [tokensFault?_eq, hes] at hparse
    refine isStatic_join (fun f hf => ?_) hparse
    obtain ⟨e, -, rfl⟩ := List.mem_map.mp hf
    simp [Fault.isStatic]

end Lox
