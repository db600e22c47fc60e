import Lox.Command.Readers
import Lox.Proofs.MaximalMunch
import Lox.Proofs.Reports

/-!
# Running a script

What a run of the program comes to, by its channels. Running a unit of input changes nothing of the
program but its error flag, and reports the fault of the source text. A script that can be read
therefore ends with status 0 or 65, by the fault of its text and the flag alone.

- `Event.stdout_append`, `Event.reported_append`: the channels of events in order;
  `Event.stdout_flatMap`, `Event.reported_flatMap`: of events in groups.
- `App.withFlag`: the program with another error flag.
- `App.run_fault`, `App.run_app`: the fault of a unit of input and the program after it.
- `App.reported_run`, `App.stdout_run`: what is reported and what is printed.
- `App.configure_eq`: putting settings into effect leaves nothing of the program but its flag.
- `App.runFile_eq`: a script.
- `App.call_script`: a whole run with a script, from the command line to the exit status.
-/

namespace Lox

/-! ### Channels -/

namespace Event

theorem stdout_append (first second : List Event) :
    stdout (first ++ second) = stdout first ++ stdout second := by
  simp [stdout]

theorem reported_append (first second : List Event) :
    reported (first ++ second) = reported first ++ reported second := by
  simp [reported]

theorem stdout_flatMap {α : Type} (f : α → List Event) (items : List α) :
    stdout (items.flatMap f) = String.join (items.map fun item => stdout (f item)) := by
  induction items with
  | nil => rfl
  | cons item items ih => rw [List.flatMap_cons, stdout_append, ih, List.map_cons, String.join_cons]

theorem reported_flatMap {α : Type} (f : α → List Event) (items : List α) :
    reported (items.flatMap f) = String.join (items.map fun item => reported (f item)) := by
  induction items with
  | nil => rfl
  | cons item items ih =>
    rw [List.flatMap_cons, reported_append, ih, List.map_cons, String.join_cons]

end Event

namespace App

theorem stdout_printed (lines : List String) :
    Event.stdout (lines.map printed) = linesText lines := by
  rw [Event.stdout, linesText, List.map_map]
  rfl

theorem reported_printed (lines : List String) : Event.reported (lines.map printed) = "" := by
  induction lines with
  | nil => rfl
  | cons line lines ih =>
    rw [List.map_cons, ← List.singleton_append, Event.reported_append, ih]
    rfl

section

variable (app : App) (message : String) (values : List (String × String))

theorem stdout_debug : Event.stdout (app.debug message values) = "" := by
  unfold debug
  split <;> rfl

theorem reported_debug : Event.reported (app.debug message values) = "" := by
  unfold debug
  split <;> rfl

end

/-! ### The error flag -/

/-- **The program with another error flag.** -/
def withFlag (app : App) (flag : Bool) : App := { app with hadError := flag }

@[simp] theorem hadError_withFlag (app : App) (flag : Bool) :
    (app.withFlag flag).hadError = flag := rfl

@[simp] theorem withFlag_hadError (app : App) : app.withFlag app.hadError = app := rfl

@[simp] theorem withFlag_withFlag (app : App) (flag flag' : Bool) :
    (app.withFlag flag).withFlag flag' = app.withFlag flag' := rfl

theorem debug_withFlag (app : App) (flag : Bool) : (app.withFlag flag).debug = app.debug := rfl

/-- The diagnostics about a fault. -/
def diagnostics (f : Option Fault) : List Event :=
  if Fault.reportText f == "" then [] else [.diagnostic (Fault.reportText f)]

theorem stdout_diagnostics (f : Option Fault) : Event.stdout (diagnostics f) = "" := by
  unfold diagnostics
  split <;> rfl

theorem reported_diagnostics (f : Option Fault) :
    Event.reported (diagnostics f) = Fault.reportText f := by
  unfold diagnostics
  split
  · next h => exact (eq_of_beq h).symm
  · simp [Event.reported]

theorem reported_told (app : App) (f : Option Fault) :
    app.reported (app.reporter.told f)
      = (app.withFlag (app.hadError || f.isSome), diagnostics f) := by
  simp [reported, reporter, Reporter.told, withFlag, diagnostics]

/-! ### One unit of input -/

/-- What tokens come to when they are parsed and their trees are printed. -/
theorem runTokens_eq (app : App) (tokens : List Token) :
    app.runTokens tokens = match (Parser.ofTokens tokens).parseAll.1 with
      | .error f => ⟨app.withFlag true, diagnostics (some f) ++ app.debug "parsed"
          [("expressions", toString 0), ("error", Parser.faultText (some f))], some f⟩
      | .ok trees => ⟨app, app.debug "parsed"
          [("expressions", toString trees.length), ("error", Parser.faultText none)]
          ++ (trees.map app.printer.print).map printed, none⟩ := by
  unfold runTokens
  simp only [reportParseAll_eq_told, reported_told, tokensFault?, debug_withFlag]
  cases (Parser.ofTokens tokens).parseAll.1 with
  | error f => simp
  | ok trees => simp [diagnostics, Fault.reportText, Function.comp_def]

/-- The tokens of a source text as they are shown. -/
def shownTokens (app : App) (source : String) : List String :=
  if app.settings.showTokens then (scan source).tokens.map Token.dump else []

/-- The events of scanning, before the tokens are parsed. -/
def scanEvents (app : App) (source : String) : List Event :=
  diagnostics (scan source).fault? ++ app.debug "scanned"
    [("tokens", toString (scan source).tokens.length),
      ("error", Parser.faultText (scan source).fault?)]
    ++ (app.shownTokens source).map printed

theorem run_eq (app : App) (source : String) :
    app.run source = match (scan source).fault? with
      | some f => ⟨app.withFlag true, app.scanEvents source, some f⟩
      | none =>
        let ran := app.runTokens (scan source).tokens
        { ran with events := app.scanEvents source ++ ran.events } := by
  have hshown : (if app.settings.showTokens then
      (scan source).tokens.map fun t => printed t.dump else [])
        = (app.shownTokens source).map printed := by
    unfold shownTokens
    split <;> simp
  unfold run
  simp only [Scan.reportTo_eq_told, reported_told, debug_withFlag, hshown, scanEvents]
  cases (scan source).fault? with
  | some f => simp
  | none => simp

/-- **The fault of a unit of input is that of its text.** -/
theorem run_fault (app : App) (source : String) :
    (app.run source).fault = sourceFault? source := by
  rw [run_eq, sourceFault?]
  cases (scan source).fault? with
  | some f => rfl
  | none =>
    rw [Option.none_or, tokensFault?, runTokens_eq]
    cases (Parser.ofTokens (scan source).tokens).parseAll.1 <;> rfl

/-- **Only the flag changes**, and only to tell of a fault. -/
theorem run_app (app : App) (source : String) :
    (app.run source).app = app.withFlag (app.hadError || (sourceFault? source).isSome) := by
  rw [run_eq, sourceFault?]
  cases (scan source).fault? with
  | some f => simp
  | none =>
    rw [Option.none_or, tokensFault?, runTokens_eq]
    cases (Parser.ofTokens (scan source).tokens).parseAll.1 <;> simp

/-- **The fault of the text is reported**, and nothing else is. -/
theorem reported_run (app : App) (source : String) :
    Event.reported (app.run source).events = Fault.reportText (sourceFault? source) := by
  have hscan : Event.reported (app.scanEvents source)
      = Fault.reportText (scan source).fault? := by
    rw [scanEvents, Event.reported_append, Event.reported_append, reported_diagnostics,
      reported_debug, reported_printed, String.append_empty, String.append_empty]
  rw [run_eq, sourceFault?]
  cases hfault : (scan source).fault? with
  | some f =>
    rw [hfault] at hscan
    exact hscan
  | none =>
    rw [hfault] at hscan
    dsimp only
    rw [Event.reported_append, hscan, Option.none_or, tokensFault?, runTokens_eq]
    cases (Parser.ofTokens (scan source).tokens).parseAll.1 with
    | error f =>
      dsimp only
      rw [Event.reported_append, reported_diagnostics, reported_debug, String.append_empty]
      exact String.empty_append
    | ok trees =>
      dsimp only
      rw [Event.reported_append, reported_debug, reported_printed]
      rfl

/-- The trees of a source text as they are printed; none if it has a fault. -/
def shownTrees (app : App) (source : String) : List String :=
  match (scan source).fault?, (Parser.ofTokens (scan source).tokens).parseAll.1 with
  | none, .ok trees => trees.map app.printer.print
  | _, _ => []

/-- **The tokens are printed if they are to be shown, and the trees if there is no fault.** -/
theorem stdout_run (app : App) (source : String) :
    Event.stdout (app.run source).events
      = linesText (app.shownTokens source) ++ linesText (app.shownTrees source) := by
  have hscan : Event.stdout (app.scanEvents source) = linesText (app.shownTokens source) := by
    rw [scanEvents, Event.stdout_append, Event.stdout_append, stdout_diagnostics, stdout_debug,
      stdout_printed]
    exact String.empty_append
  rw [run_eq, shownTrees]
  cases (scan source).fault? with
  | some f =>
    dsimp only
    rw [hscan]
    exact String.append_empty.symm
  | none =>
    dsimp only
    rw [Event.stdout_append, hscan, runTokens_eq]
    cases (Parser.ofTokens (scan source).tokens).parseAll.1 with
    | error f =>
      dsimp only
      rw [Event.stdout_append, stdout_diagnostics, stdout_debug]
      rfl
    | ok trees =>
      dsimp only
      rw [Event.stdout_append, stdout_debug, stdout_printed]
      exact congrArg _ String.empty_append

/-- **What a unit of input writes does not depend on the flag.** -/
theorem run_events_withFlag (app : App) (flag : Bool) (source : String) :
    ((app.withFlag flag).run source).events = (app.run source).events := by
  rw [run_eq, run_eq]
  have hscan : (app.withFlag flag).scanEvents source = app.scanEvents source := rfl
  cases (scan source).fault? with
  | some f => exact hscan
  | none =>
    dsimp only
    rw [hscan, runTokens_eq, runTokens_eq]
    cases (Parser.ofTokens (scan source).tokens).parseAll.1 <;> rfl

/-- A unit of input never fails by itself. -/
theorem run_fault_filter (app : App) (source : String) :
    (app.run source).fault.filter (!·.isStatic) = none := by
  rw [run_fault]
  cases h : sourceFault? source with
  | none => rfl
  | some f => simp [isStatic_of_sourceFault? h]

/-! ### Settings and command lines -/

/-- **Putting settings into effect leaves nothing of the program but its flag**, whatever reads the
documents. -/
theorem configure_eq (app other : App) (decoders : Settings.Decoders) (files : Files)
    (line : CommandLine) :
    app.configure decoders files line = (other.configure decoders files line).map
      fun done => (done.1.withFlag app.hadError, done.2) := by
  unfold configure
  cases Settings.load decoders files line.config with
  | error e => rfl
  | ok loaded =>
    dsimp only
    cases (loaded.override line.overrides).validate with
    | error e => rfl
    | ok _ =>
      dsimp only [withSettings?]
      cases Printer.ofName? (loaded.override line.overrides).printer <;> rfl

/-- Settings are put into effect with at most a log line, and without touching the flag. -/
theorem configure_ok {app app' : App} {decoders : Settings.Decoders} {files : Files}
    {line : CommandLine} {events : List Event}
    (h : app.configure decoders files line = .ok (app', events)) :
    app'.hadError = app.hadError ∧ ∃ message values, events = app'.debug message values := by
  unfold configure at h
  split at h
  · cases h
  dsimp only at h
  split at h
  · cases h
  split at h
  · cases h
  · next hsettings =>
    cases h
    obtain ⟨printer, -, rfl⟩ := Option.map_eq_some_iff.mp hsettings
    exact ⟨rfl, _, _, rfl⟩

section

variable {readers : Readers} {app app' : App} {files : Files} {arguments : List String}
variable {line : CommandLine} {configured : List Event}

theorem call_of_run (hline : readers.arguments arguments = .run line) (terminal : Terminal) :
    app.call readers files terminal arguments
      = app.execute readers.documents files terminal line := by
  rw [call, hline]

/-- A script's run, put behind what was written before it. -/
theorem call_of_script {path : String} (hline : readers.arguments arguments = .run line)
    (hscript : line.script = some path)
    (hconfigure : app.configure readers.documents files line = .ok (app', configured))
    (terminal : Terminal) :
    app.call readers files terminal arguments
      = Finished.toCall { app'.runFile files path with
          events := configured ++ (app'.runFile files path).events } := by
  rw [call_of_run hline, execute, hconfigure, hscript]

/-- Interactive input, put behind what was written before it. -/
theorem call_of_prompt (hline : readers.arguments arguments = .run line)
    (hnone : line.script = none)
    (hconfigure : app.configure readers.documents files line = .ok (app', configured))
    (terminal : Terminal) :
    app.call readers files terminal arguments
      = Finished.toCall { app'.prompt terminal with
          events := configured ++ (app'.prompt terminal).events } := by
  rw [call_of_run hline, execute, hconfigure, hnone]

end

/-! ### Scripts -/

/-- **A script that can be read** ends well or with errors in its text, never otherwise. -/
theorem runFile_eq {app : App} {files : Files} {path : String} {bytes : List UInt8}
    (h : files path = .ok bytes) :
    let source := Text.Utf8.decode bytes
    let flag := app.hadError || (sourceFault? source).isSome
    app.runFile files path
      = ⟨app.withFlag flag,
        app.debug "running file" [("path", path), ("bytes", toString bytes.length)]
          ++ (app.run source).events,
        if flag then some .staticErrors else none⟩ := by
  unfold runFile
  simp only [h, run_fault_filter, run_app, hadError_withFlag]

theorem toCall_static (app : App) (events : List Event) (flag : Bool) :
    Finished.toCall ⟨app, events, if flag then some .staticErrors else none⟩
      = ⟨app, events, if flag then 65 else 0⟩ := by
  cases flag <;> rfl

theorem isSome_sourceFault?_eq_false_iff (source : String) :
    (sourceFault? source).isSome = false
      ↔ (scan source).fault? = none ∧ tokensFault? (scan source).tokens = none := by
  rw [Option.isSome_eq_false_iff, Option.isNone_iff_eq_none, sourceFault?, Option.or_eq_none_iff]

/-- The end token of a scan closes its tokens. -/
theorem closed_scan (source : String) :
    Parser.closed (scan source).tokens = (scan source).tokens := by
  simp [Parser.closed, scan, Token.eof]

/-- **What running a script comes to** on a clear flag, with the settings of `app`: `c` has the
exit status, the reports and the output that its source text asks for. -/
structure ScriptOutcome (app : App) (source : String) (c : Call) : Prop where
  /-- The status is 0 exactly if neither scanning nor parsing finds an error. -/
  code_eq_zero_iff : c.code = 0 ↔
    (scan source).fault? = none ∧ tokensFault? (scan source).tokens = none
  /-- It is 65 otherwise. -/
  code_eq_or : c.code = 0 ∨ c.code = 65
  /-- Errors of the characters are reported one to a line, as the faulty segments of the text come;
  then no others are. -/
  reported_scan : ∀ f, (scan source).fault? = some f →
    f = .joined ((scan source).errors.map .scan)
      ∧ List.Forall₂ Segment.Reports ((Segment.cut source.toList).filter (·.form.isFaulty))
        (scan source).errors
      ∧ Event.reported c.events
        = linesText ((scan source).errors.map fun e => (Fault.scan e).message)
  /-- Else the errors of the tokens are, as the tokens come. -/
  reported_parse : (scan source).fault? = none → ∃ es : List ParseError,
    tokensFault? (scan source).tokens = Fault.join (es.map fun e => some (.parse e))
      ∧ (es.map ParseError.token).Sublist (scan source).tokens
      ∧ Event.reported c.events = linesText (es.map fun e => (Fault.parse e).message)
  /-- With an error of either sort no tree is printed. -/
  stdout_fault : (scan source).fault? ≠ none ∨ tokensFault? (scan source).tokens ≠ none →
    Event.stdout c.events = linesText (app.shownTokens source)
  /-- Else all trees are, behind the tokens if these are shown. -/
  stdout_trees : ∀ trees, (scan source).fault? = none →
    (Parser.ofTokens (scan source).tokens).parseAll.1 = .ok trees →
    Event.stdout c.events
      = linesText (app.shownTokens source) ++ linesText (trees.map app.printer.print)

/-- The outcome of a script, whatever log lines stand before it. -/
theorem scriptOutcome_of_run (app : App) (source : String) {c : Call}
    (hcode : c.code = if (sourceFault? source).isSome then 65 else 0)
    (hreported : Event.reported c.events = Event.reported (app.run source).events)
    (hstdout : Event.stdout c.events = Event.stdout (app.run source).events) :
    ScriptOutcome app source c := by
  rw [reported_run] at hreported
  rw [stdout_run] at hstdout
  refine ⟨?_, ?_, fun f hf => ⟨?_, ?_, ?_⟩, fun hnone => ?_, fun hfault => ?_,
    fun trees hnone htrees => ?_⟩
  · rw [← isSome_sourceFault?_eq_false_iff, hcode]
    cases (sourceFault? source).isSome <;> simp
  · rw [hcode]
    cases (sourceFault? source).isSome <;> simp
  · rw [Scan.fault?_eq, Fault.join_map_some] at hf
    split at hf
    · cases hf
    · exact (Option.some.inj hf).symm
  · exact (Segment.cuts_cut source.toList).reports 1
  · rw [hreported, sourceFault?, hf, Option.some_or, ← hf, Scan.fault?_eq, Fault.reportText_join,
      List.map_map]
    rfl
  · obtain ⟨es, hes, hsub⟩ := Parser.exists_errors (scan source).tokens
    rw [closed_scan] at hsub
    have hjoin : tokensFault? (scan source).tokens = Fault.join ((es.map .parse).map some) := by
      rw [tokensFault?_eq, hes]
    refine ⟨es, ?_, hsub, ?_⟩
    · rw [hjoin, List.map_map]
      rfl
    · rw [hreported, sourceFault?, hnone, Option.none_or, hjoin, Fault.reportText_join,
        List.map_map]
      rfl
  · have hshown : app.shownTrees source = [] := by
      unfold shownTrees
      split
      · next hscan hparse => simp [hscan, tokensFault?, hparse] at hfault
      · rfl
    rw [hstdout, hshown]
    exact String.append_empty
  · rw [hstdout, shownTrees, hnone, htrees]

/-- **A script's run by its source text**, whatever reads arguments and settings files. After settings
were put into effect, a script that can be read and that starts on a clear flag has the outcome of
its text. The status and the reports are the same with all other settings. -/
theorem call_script {readers : Readers} {app app' : App} {files : Files} {terminal : Terminal}
    {arguments : List String} {line : CommandLine} {path : String} {bytes : List UInt8}
    {configured : List Event}
    (hline : readers.arguments arguments = .run line) (hscript : line.script = some path)
    (hconfigure : app.configure readers.documents files line = .ok (app', configured))
    (hread : files path = .ok bytes) (hflag : app.hadError = false) :
    ScriptOutcome app' (Text.Utf8.decode bytes) (app.call readers files terminal arguments)
    ∧ ∀ other : App, other.hadError = false →
        (other.runFile files path).toCall.code = (app.call readers files terminal arguments).code
        ∧ Event.reported (other.runFile files path).toCall.events
          = Event.reported (app.call readers files terminal arguments).events := by
  obtain ⟨hkept, message, values, rfl⟩ := configure_ok hconfigure
  rw [call_of_script hline hscript hconfigure terminal, runFile_eq hread, hkept, hflag,
    Bool.false_or, toCall_static]
  refine ⟨scriptOutcome_of_run app' _ rfl ?_ ?_, fun other hother => ?_⟩
  · simp [Event.reported_append, reported_debug]
  · simp [Event.stdout_append, stdout_debug]
  · rw [runFile_eq hread, hother, Bool.false_or, toCall_static]
    refine ⟨rfl, ?_⟩
    simp [Event.reported_append, reported_debug, reported_run]

/-- A bad character is reported, and then the missing operand is not: `nil @ +`. -/
theorem call_script_bad_character :
    let files : Files := fun _ => .ok [110, 105, 108, 32, 64, 32, 43]
    let line : CommandLine := { showTokens := some true, script := some "a" }
    let app : App := { fresh with settings := { Settings.standard with showTokens := true } }
    let c := fresh.call .plain files (fun _ _ => .ok []) ["-t", "a"]
    Readers.plain.arguments ["-t", "a"] = .run line
      ∧ fresh.configure .plain files line = .ok (app, [])
      ∧ ScriptOutcome app "nil @ +" c ∧ c.code = 65
      ∧ Event.reported c.events = "[line 1] Error: Unexpected character. '@'\n" := by
  intro files line app c
  have hline : Readers.plain.arguments ["-t", "a"] = .run line := rfl
  have hconfigure : fresh.configure .plain files line = .ok (app, []) := rfl
  have hsource : Text.Utf8.decode [110, 105, 108, 32, 64, 32, 43] = "nil @ +" := by decide +kernel
  have herrors : (scan "nil @ +").errors = [⟨1, .unexpectedCharacter, "'@'"⟩] := by
    decide +kernel
  have hfault : (scan "nil @ +").fault?
      = some (.joined [.scan ⟨1, .unexpectedCharacter, "'@'"⟩]) := by
    rw [Scan.fault?, herrors]
    rfl
  have houtcome : ScriptOutcome app "nil @ +" c := by
    rw [← hsource]
    exact (call_script hline rfl hconfigure rfl rfl).1
  refine ⟨hline, hconfigure, houtcome, ?_, ?_⟩
  · refine houtcome.code_eq_or.resolve_left fun hzero => ?_
    rw [houtcome.code_eq_zero_iff, hfault] at hzero
    cases hzero.1
  · rw [(houtcome.reported_scan _ hfault).2.2, herrors]
    decide +kernel

end App

end Lox
