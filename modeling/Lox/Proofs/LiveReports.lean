import Lox.Proofs.FaultTrees
import Lox.Proofs.Statements

/-!
# Reports while errors are found

An error goes to the reporter as soon as it is found, and it is kept for the fault that is returned
in the end. The reporter knows nothing of that fault, and the fault nothing of the reporter, but the
two tell the same.

- `Findings`: the reporter and the errors kept, in the middle of a pass; `Segment.findings` and
  `Parser.findings` go through a source text and through a list of statements.
- `Segment.findings_eq`, `Parser.findings_eq`: a pass reports and keeps its errors one by one.
- `Tells`: the reporter was told the fault that was returned, no more and no less.
- `told_as_returned`: so it is with scanning and with both ways of parsing.
-/

namespace Lox

/-! ### Passes over the input -/

/-- **What a pass has found so far**: the reporter that has seen every error, and the errors kept. -/
structure Findings where
  reporter : Reporter
  kept : List Fault

namespace Findings

/-- Nothing is found yet. -/
def start (r : Reporter) : Findings := ⟨r, []⟩

/-- An error is found: it is kept, and reported at once. -/
def add (found : Findings) (f : Fault) : Findings :=
  ⟨found.reporter.reportFault f, found.kept ++ [f]⟩

/-- The fault that is returned when the pass is over. -/
def fault? (found : Findings) : Option Fault := Fault.join (found.kept.map some)

theorem foldl_add (found : Findings) (fs : List Fault) :
    fs.foldl add found = ⟨found.reporter.reportFaults fs, found.kept ++ fs⟩ := by
  induction fs generalizing found with
  | nil => simp [Reporter.reportFaults]
  | cons f rest ih => simp [ih, add, Reporter.reportFaults]

end Findings

/-- **Segments are scanned**, the first of them starting on `line`. -/
def Segment.findings (line : Int) (found : Findings) : List Segment → Findings
  | [] => found
  | s :: rest =>
    let ending := line + s.newlines
    match s.error? ending with
    | some e => findings ending (found.add (.scan e)) rest
    | none => findings ending found rest

theorem Segment.findings_eq (line : Int) (found : Findings) (segments : List Segment) :
    findings line found segments
      = ⟨found.reporter.reportFaults ((errors line segments).map .scan),
        found.kept ++ (errors line segments).map .scan⟩ := by
  rw [← Findings.foldl_add]
  induction segments generalizing line found with
  | nil => rfl
  | cons s rest ih =>
    rw [findings, errors]
    cases s.error? (line + s.newlines) with
    | none => exact ih _ found
    | some e => exact ih _ (found.add (.scan e))

/-- **Statements are parsed**, one after another. After a faulty one the parser goes on at the next
boundary. -/
def Parser.findings (p : Parser) (found : Findings) : Findings :=
  if _h : p.ahead = [] then found
  else
    match (statement p).result with
    | .error f => findings p.afterStatement (found.add f)
    | .ok _ => findings p.afterStatement found
termination_by p.ahead.length
decreasing_by all_goals exact length_afterStatement_lt _h

theorem Parser.findings_eq (p : Parser) (found : Findings) :
    p.findings found = ⟨found.reporter.reportFaults (faults p.statements.1),
      found.kept ++ faults p.statements.1⟩ := by
  rw [← Findings.foldl_add]
  fun_induction findings p found with
  | case1 p found h =>
    rw [statements, dif_pos h]
    rfl
  | case2 p found h f hresult ih =>
    rw [ih, statements_of_ahead_cons h, hresult]
    rfl
  | case3 p found h e hresult ih =>
    rw [ih, statements_of_ahead_cons h, hresult]
    rfl

/-! ### The reporter is told what is returned -/

/-- **The reporter is told the fault that is returned**: `report` is what happens to the reporter. -/
structure Tells (fault? : Option Fault) (report : Reporter → Reporter) : Prop where
  /-- Without a fault nothing is written. -/
  output_of_none : fault? = none → ∀ r, (report r).output = r.output
  /-- Else the text of the fault is written, on a line. -/
  output_of_some : ∀ f, fault? = some f → ∀ r, (report r).output = r.output ++ (f.message ++ "\n")
  /-- Reporting the fault itself would write the same, to any reporter. -/
  output_again : ∀ f, fault? = some f → ∀ r other : Reporter, ∃ text,
    (report r).output = r.output ++ text ∧ (other.reportFault f).output = other.output ++ text
  /-- The flag is raised exactly if there is a fault, and it is never taken back. -/
  hadError_eq : ∀ r, (report r).hadError = (r.hadError || fault?.isSome)

theorem Tells.of_reportOption {fault? : Option Fault} {report : Reporter → Reporter}
    (hreport : ∀ r, report r = r.reportOption fault?)
    (hmessage : ∀ f, fault? = some f → ∀ r : Reporter, r.reportFault f = r.writeError f.message) :
    Tells fault? report := by
  have hsome : ∀ f, fault? = some f → ∀ r, report r = r.writeError f.message := by
    intro f hf r
    rw [hreport, hf, Reporter.reportOption, hmessage f hf]
  refine ⟨fun hnone r => ?_, fun f hf r => ?_, fun f hf r other => ⟨f.message ++ "\n", ?_, ?_⟩,
    fun r => ?_⟩
  · rw [hreport, hnone, Reporter.reportOption]
  · rw [hsome f hf]
    rfl
  · rw [hsome f hf]
    rfl
  · rw [hmessage f hf]
    rfl
  · cases hf : fault? with
    | none =>
      rw [hreport, hf, Reporter.reportOption]
      exact (Bool.or_false r.hadError).symm
    | some f =>
      rw [hsome f hf]
      exact (Bool.or_true r.hadError).symm

/-- Errors that are kept and reported one by one tell what their joining tells. -/
theorem Tells.of_join {fs : List Fault} (hfs : ∀ f ∈ fs, f.Simple) :
    Tells (Fault.join (fs.map some)) (fun r => r.reportFaults fs) := by
  rw [Fault.join_map_some]
  refine .of_reportOption (fun r => ?_) fun f hf r => ?_
  · split
    · next hnil => rw [hnil]; rfl
    · rw [Reporter.reportOption, Reporter.reportFault]
  · split at hf
    · cases hf
    · next hne =>
      cases hf
      exact Reporter.reportFault_joined hne (fun f hf => Reporter.reportFault_of_simple (hfs f hf)) r

/-- The fault of tokens that are parsed as one expression. -/
def expressionFault? (tokens : List Token) : Option Fault :=
  match (Parser.ofTokens tokens).parse.result with
  | .error f => some f
  | .ok _ => none

theorem tells_scan (source : String) : Tells (scan source).fault? (scan source).reportTo := by
  rw [Scan.fault?_eq]
  refine .of_join fun f hf => ?_
  obtain ⟨e, -, rfl⟩ := List.mem_map.mp hf
  exact .inl rfl

theorem tells_parseAll (tokens : List Token) :
    Tells (tokensFault? tokens) (Parser.ofTokens tokens).reportParseAll := by
  rw [tokensFault?_eq]
  refine .of_join fun f hf => ?_
  obtain ⟨es, hes, -⟩ := Parser.exists_errors tokens
  rw [hes] at hf
  obtain ⟨e, -, rfl⟩ := List.mem_map.mp hf
  exact .inl rfl

theorem tells_parse (tokens : List Token) :
    Tells (expressionFault? tokens) (Parser.ofTokens tokens).reportParse := by
  refine .of_reportOption (fun r => ?_) fun f hf => ?_
  · unfold Parser.reportParse expressionFault?
    cases (Parser.ofTokens tokens).parse.result <;> rfl
  · unfold expressionFault? at hf
    split at hf
    · next g hresult =>
      cases hf
      obtain ⟨w, rest, s, -, -, -, -, rfl, -⟩ := Parser.halt_of_parse_error hresult
      exact Reporter.reportFault_of_simple (.inl rfl)
    · cases hf

/-- **The reporter is told what is returned**, by scanning any text, by parsing any tokens as a list
of statements and by parsing them as one expression, whatever the reporter was told before. And it
is told while the errors are found: the fault and the reporter of the passes are these. -/
theorem told_as_returned (source : String) (tokens : List Token) :
    Tells (scan source).fault? (scan source).reportTo
    ∧ Tells (tokensFault? tokens) (Parser.ofTokens tokens).reportParseAll
    ∧ Tells (expressionFault? tokens) (Parser.ofTokens tokens).reportParse
    ∧ (∀ r, (Segment.findings 1 (.start r) (Segment.cut source.toList)).fault? = (scan source).fault?
      ∧ (Segment.findings 1 (.start r) (Segment.cut source.toList)).reporter
        = (scan source).reportTo r)
    ∧ ∀ r, ((Parser.ofTokens tokens).findings (.start r)).fault? = tokensFault? tokens
      ∧ ((Parser.ofTokens tokens).findings (.start r)).reporter
        = (Parser.ofTokens tokens).reportParseAll r := by
  refine ⟨tells_scan source, tells_parseAll tokens, tells_parse tokens, fun r => ?_, fun r => ?_⟩
  · rw [Segment.findings_eq, Scan.fault?_eq]
    exact ⟨rfl, rfl⟩
  · rw [Parser.findings_eq, tokensFault?_eq]
    exact ⟨rfl, rfl⟩

end Lox
