import Lox.Parser.Program
import Lox.Source.Scan

/-!
# The flag of the reporter

The reporter sets its flag in two places and leaves it alone in others: no fault, an empty
collection, a text written past it. Yet the flag is up exactly when the reporter has written
something since it was last reset.

- `Reporter.Grows`: writing, and raising the flag just if something was written.
- `Reporter.grows_reportFault`, `Reporter.grows_scan`, `Reporter.grows_parseAll`: all reporting is
  of this kind, over every tree of errors and every input.
- `Reporter.Call`, `Reporter.Ledger`: what can be done with a reporter, and a count of the bytes
  that it wrote itself since the last reset.
- `Reporter.hadError_iff_written`: the flag tells whether the count is zero, after any calls.
-/

namespace Lox.Reporter

/-! ### Writing raises the flag -/

/-- **Something may be written, and if it is, the flag is raised.** What was written stays. -/
def Grows (r r' : Reporter) : Prop :=
  ∃ text : String, r' = ⟨r.output ++ text, r.hadError || decide (0 < text.utf8ByteSize)⟩

variable {r r' r'' : Reporter}

theorem Grows.refl (r : Reporter) : r.Grows r := ⟨"", by simp⟩

theorem Grows.trans (h : r.Grows r') (h' : r'.Grows r'') : r.Grows r'' := by
  obtain ⟨first, rfl⟩ := h
  obtain ⟨second, rfl⟩ := h'
  refine ⟨first ++ second, ?_⟩
  have hsize : decide (0 < (first ++ second).utf8ByteSize)
      = (decide (0 < first.utf8ByteSize) || decide (0 < second.utf8ByteSize)) := by
    rw [String.utf8ByteSize_append, ← Bool.decide_or]
    exact decide_eq_decide.mpr (by omega)
  rw [hsize, String.append_assoc, Bool.or_assoc]

theorem Grows.exists_output (h : r.Grows r') : ∃ text, r'.output = r.output ++ text := by
  obtain ⟨text, rfl⟩ := h
  exact ⟨text, rfl⟩

/-- A line has at least its end. -/
theorem utf8ByteSize_line_pos (text : String) : 0 < (line text).utf8ByteSize := by
  have hend : ("\n" : String).utf8ByteSize = 1 := rfl
  rw [line, String.utf8ByteSize_append, hend]
  omega

theorem grows_writeError (r : Reporter) (text : String) : r.Grows (r.writeError text) :=
  ⟨line text, by simp [writeError, utf8ByteSize_line_pos]⟩

theorem grows_reportSingle (r : Reporter) (f : Fault) : r.Grows (r.reportSingle f) := by
  unfold reportSingle
  split
  · exact grows_writeError r _
  · exact grows_writeError r _

mutual

/-- **Reporting a fault writes something or leaves the flag**, whatever the fault is made of. -/
theorem grows_reportFault (r : Reporter) : (f : Fault) → r.Grows (r.reportFault f)
  | .joined parts => by
    rw [reportFault]
    exact grows_reportFaults r parts
  | .paired _ first second => by
    rw [reportFault]
    exact (grows_reportOption r first).trans (grows_reportOption (r.reportOption first) second)
  | .scan e => by
    rw [reportFault]
    exact grows_reportSingle r (.scan e)
  | .parse e => by
    rw [reportFault]
    exact grows_reportSingle r (.parse e)
  | .plain c => by
    rw [reportFault]
    exact grows_reportSingle r (.plain c)
  | .noOperator kind => by
    rw [reportFault]
    exact grows_reportSingle r (.noOperator kind)
  | .scanFrom line cause details => by
    rw [reportFault]
    exact grows_reportSingle r (.scanFrom line cause details)
  | .parseFrom token cause => by
    rw [reportFault]
    exact grows_reportSingle r (.parseFrom token cause)
  | .wrapped text inner => by
    rw [reportFault]
    exact grows_reportSingle r (.wrapped text inner)

theorem grows_reportFaults (r : Reporter) : (fs : List Fault) → r.Grows (r.reportFaults fs)
  | [] => by
    rw [reportFaults]
    exact .refl r
  | f :: rest => by
    rw [reportFaults]
    exact (grows_reportFault r f).trans (grows_reportFaults (r.reportFault f) rest)

theorem grows_reportOption (r : Reporter) : (f : Option Fault) → r.Grows (r.reportOption f)
  | none => by
    rw [reportOption]
    exact .refl r
  | some f => by
    rw [reportOption]
    exact grows_reportFault r f

end

theorem grows_scan (r : Reporter) (source : String) : r.Grows ((scan source).reportTo r) :=
  grows_reportFaults r _

theorem grows_parse (r : Reporter) (p : Parser) : r.Grows (p.reportParse r) := by
  unfold Parser.reportParse
  split
  · exact grows_reportFault r _
  · exact .refl r

theorem grows_parseAll (r : Reporter) (p : Parser) : r.Grows (p.reportParseAll r) :=
  grows_reportFaults r _

/-! ### Calls -/

/-- **What can be done with a reporter**: reporting, resetting, scanning and parsing with it, and
writing to its output past it. -/
inductive Call where
  | report (d : Diagnostic)
  | reportFault (f : Option Fault)
  | reset
  | scan (source : String)
  | parse (p : Parser)
  | parseAll (p : Parser)
  | note (d : Diagnostic)
  | noteFault (f : Option Fault)

namespace Call

/-- The reporter after a call. -/
def perform (r : Reporter) : Call → Reporter
  | report d => r.report d
  | reportFault f => r.reportOption f
  | reset => r.reset
  | scan source => (Lox.scan source).reportTo r
  | parse p => p.reportParse r
  | parseAll p => p.reportParseAll r
  | note d => r.note d
  | noteFault f => r.noteFault f

/-- **No call takes back what was written.** -/
theorem exists_output_perform (r : Reporter) (call : Call) :
    ∃ text, (call.perform r).output = r.output ++ text := by
  cases call with
  | report d => exact (grows_writeError r d.text).exists_output
  | reportFault f => exact (grows_reportOption r f).exists_output
  | reset => exact ⟨"", (String.append_empty).symm⟩
  | scan source => exact (grows_scan r source).exists_output
  | parse p => exact (grows_parse r p).exists_output
  | parseAll p => exact (grows_parseAll r p).exists_output
  | note d => exact ⟨_, rfl⟩
  | noteFault f => exact ⟨_, rfl⟩

end Call

/-! ### What was written since the last reset -/

/-- **A reporter and the number of bytes that it wrote itself since the last reset.** -/
structure Ledger where
  reporter : Reporter
  written : Nat

namespace Ledger

/-- A new reporter on a writer to which `output` was written before. -/
def start (output : String) : Ledger := ⟨⟨output, false⟩, 0⟩

/-- The reporter writes until it is `r`. -/
def add (l : Ledger) (r : Reporter) : Ledger where
  reporter := r
  written := l.written + (r.output.utf8ByteSize - l.reporter.output.utf8ByteSize)

/-- A call, and what it adds to the count. What is written past the reporter does not count. -/
def step (l : Ledger) (call : Call) : Ledger :=
  match call with
  | .reset => ⟨call.perform l.reporter, 0⟩
  | .note _ | .noteFault _ => ⟨call.perform l.reporter, l.written⟩
  | .report _ | .reportFault _ | .scan _ | .parse _ | .parseAll _ => l.add (call.perform l.reporter)

/-- Calls, one after another. -/
def run (l : Ledger) (calls : List Call) : Ledger := calls.foldl step l

/-- **The flag is up just if something was written.** -/
def Faithful (l : Ledger) : Prop := l.reporter.hadError = true ↔ 0 < l.written

variable {l : Ledger}

theorem faithful_add (h : l.Faithful) {r : Reporter} (hgrows : l.reporter.Grows r) :
    (l.add r).Faithful := by
  obtain ⟨text, rfl⟩ := hgrows
  have hwritten : (l.add ⟨l.reporter.output ++ text,
      l.reporter.hadError || decide (0 < text.utf8ByteSize)⟩).written
      = l.written + text.utf8ByteSize := by
    show l.written + ((l.reporter.output ++ text).utf8ByteSize - _) = _
    rw [String.utf8ByteSize_append]
    omega
  unfold Faithful at h ⊢
  rw [hwritten]
  show (l.reporter.hadError || decide (0 < text.utf8ByteSize)) = true ↔ _
  rw [Bool.or_eq_true, decide_eq_true_eq, h]
  omega

theorem faithful_step (h : l.Faithful) (call : Call) : (l.step call).Faithful := by
  cases call with
  | report d => exact faithful_add h (grows_writeError _ d.text)
  | reportFault f => exact faithful_add h (grows_reportOption _ f)
  | reset => exact iff_of_false Bool.false_ne_true (Nat.lt_irrefl 0)
  | scan source => exact faithful_add h (grows_scan _ source)
  | parse p => exact faithful_add h (grows_parse _ p)
  | parseAll p => exact faithful_add h (grows_parseAll _ p)
  | note d => exact h
  | noteFault f => exact h

theorem faithful_run (h : l.Faithful) (calls : List Call) : (l.run calls).Faithful := by
  induction calls generalizing l with
  | nil => exact h
  | cons call later ih => exact ih (faithful_step h call)

/-- The reporter of a ledger is the one that the calls are made on. -/
theorem reporter_run (l : Ledger) (calls : List Call) :
    (l.run calls).reporter = calls.foldl Call.perform l.reporter := by
  induction calls generalizing l with
  | nil => rfl
  | cons call later ih =>
    have hstep : (l.step call).reporter = call.perform l.reporter := by
      cases call <;> rfl
    show ((l.step call).run later).reporter = _
    rw [ih, hstep]
    rfl

end Ledger

/-- **The flag tells whether something was written.** After any calls on a new reporter the flag is
up if and only if the reporter has written at least one byte since the last reset, or since it was
made. What a call writes comes behind what was written before, and texts written past the reporter
leave the flag as it is. -/
theorem hadError_iff_written (output : String) (calls : List Call) :
    (((Ledger.start output).run calls).reporter.hadError = true
      ↔ 0 < ((Ledger.start output).run calls).written)
    ∧ ((Ledger.start output).run calls).reporter = calls.foldl Call.perform ⟨output, false⟩
    ∧ (∀ (r : Reporter) (call : Call), ∃ text, (call.perform r).output = r.output ++ text)
    ∧ (∀ (r : Reporter) (d : Diagnostic), (r.note d).hadError = r.hadError)
    ∧ ∀ (r : Reporter) (f : Option Fault), (r.noteFault f).hadError = r.hadError := by
  have hstart : (Ledger.start output).Faithful :=
    iff_of_false Bool.false_ne_true (Nat.lt_irrefl 0)
  exact ⟨Ledger.faithful_run hstart calls, Ledger.reporter_run _ calls, Call.exists_output_perform,
    fun _ _ => rfl, fun _ _ => rfl⟩

end Lox.Reporter
