import Lox.Proofs.Session

/-!
# Runs in a row

The program may be run again and again, with the same readers. A run leaves nothing behind but the
error flag, and the flag can change a run only by turning the status of a sound script from 0 to 65.
This holds whatever reads arguments and settings files, and whatever a terminal gives: lines,
interrupts, failures, or nothing because it cannot be opened.

- `App.Request`, `App.serve`, `App.calls`: a run to be made, and runs made one after another.
- `App.Request.ReadsScript`, `App.Request.Prompts`: what a request comes to, apart from failing.
- `App.Request.Answers`: a run depends on the program by its flag alone; `answers_script`,
  `answers_prompt` and `answers_cases` say how.
- `App.Isolated`, `App.calls_isolated`: runs in a row compared with runs of a fresh program.
-/

namespace Lox.App

/-! ### Requests -/

/-- **A run to be made**: the files and the terminal it finds, and its arguments. -/
structure Request where
  files : Files
  terminal : Terminal
  arguments : List String

variable (readers : Readers)

/-- The program serves a request. -/
def serve (app : App) (r : Request) : Call := app.call readers r.files r.terminal r.arguments

/-- **Requests served one after another** by one program, each with the flag it found. -/
def calls (app : App) : List Request → List (Bool × Call)
  | [] => []
  | r :: rest => (app.hadError, app.serve readers r) :: (app.serve readers r).app.calls rest

/-- **The request starts**: it asks for a run by `line`, and the settings of `line` are put into effect
by a fresh program, which then is `app`. -/
structure Request.Starts (r : Request) (line : CommandLine) (app : App) : Prop where
  line_eq : readers.arguments r.arguments = .run line
  configure_eq : ∃ events, fresh.configure readers.documents r.files line = .ok (app, events)

/-- **The request runs a script that can be read**, with this source text. -/
def Request.ReadsScript (r : Request) (source : String) : Prop :=
  ∃ line app path bytes, r.Starts readers line app ∧ line.script = some path
    ∧ r.files path = .ok bytes ∧ source = Text.Utf8.decode bytes

/-- **The request runs interactive input**: the terminal can be opened, by the settings in effect, and
gives these readings. -/
def Request.Prompts (r : Request) (readings : List Reading) : Prop :=
  ∃ line app, r.Starts readers line app ∧ line.script = none
    ∧ r.terminal app.settings.prompt app.settings.historyFile = .ok readings

/-! ### What the answer depends on -/

/-- **The answer depends on the program by its flag alone**: what is written not at all, the status
by `code` and the flag afterwards by `after`. -/
structure Request.Answers (r : Request) (code : Bool → Nat) (after : Bool → Bool) : Prop where
  events_eq : ∀ app other : App, (app.serve readers r).events = (other.serve readers r).events
  code_eq : ∀ app : App, (app.serve readers r).code = code app.hadError
  hadError_eq : ∀ app : App, (app.serve readers r).app.hadError = after app.hadError

variable {readers} {r : Request}

theorem Request.Answers.of_serve {code : Bool → Nat} {after : Bool → Bool}
    (next : App → App) (hnext : ∀ app : App, (next app).hadError = after app.hadError)
    (events : List Event)
    (hserve : ∀ app : App, app.serve readers r = ⟨next app, events, code app.hadError⟩) :
    r.Answers readers code after where
  events_eq app other := by rw [hserve, hserve]
  code_eq app := by rw [hserve]
  hadError_eq app := by rw [hserve, hnext]

theorem Request.Starts.exists_configure {line : CommandLine} {configured : App}
    (h : r.Starts readers line configured) :
    ∃ events : List Event, ∀ app : App, app.configure readers.documents r.files line
      = .ok (configured.withFlag app.hadError, events) := by
  obtain ⟨events, hdone⟩ := h.configure_eq
  refine ⟨events, fun app => ?_⟩
  rw [App.configure_eq app fresh, hdone]
  rfl

/-- **A script** adds its fault to the flag, and the flag decides the status. -/
theorem answers_script {source : String} (h : r.ReadsScript readers source) :
    r.Answers readers (fun flag => if flag || (sourceFault? source).isSome then 65 else 0)
      (fun flag => flag || (sourceFault? source).isSome) := by
  obtain ⟨line, configured, path, bytes, hstarts, hscript, hread, rfl⟩ := h
  obtain ⟨events, hconfigure⟩ := hstarts.exists_configure
  refine .of_serve (fun app => configured.withFlag
    (app.hadError || (sourceFault? (Text.Utf8.decode bytes)).isSome)) (fun _ => rfl)
    (events ++ (configured.debug "running file" [("path", path), ("bytes", toString bytes.length)]
      ++ (configured.run (Text.Utf8.decode bytes)).events)) fun app => ?_
  rw [serve, call_of_script hstarts.line_eq hscript (hconfigure app), runFile_eq hread,
    toCall_static, run_events_withFlag]
  rfl

/-- The outcome of interactive input, from whether reading fails. -/
theorem toCall_software (app : App) (events : List Event) (f : Option Fault) :
    Finished.toCall ⟨app, events, f.map .software⟩
      = ⟨app, events ++ f.toList.map fun f => .complaint (f.message ++ "\n"),
        if f.isSome then 70 else 0⟩ := by
  cases f with
  | none => simp [Finished.toCall]
  | some f => rfl

/-- **Interactive input** has status 0, or 70 if reading fails, and clears the flag if there is a
line. -/
theorem answers_prompt {readings : List Reading} (h : r.Prompts readers readings) :
    r.Answers readers (fun _ => if (failure? readings).isSome then 70 else 0)
      (fun flag => if linesRun readings = [] then flag else false) := by
  obtain ⟨line, configured, hstarts, hnone, hopen⟩ := h
  obtain ⟨events, hconfigure⟩ := hstarts.exists_configure
  refine .of_serve (fun app => configured.withFlag
    (if linesRun readings = [] then app.hadError else false)) (fun _ => rfl)
    (events ++ ((linesRun readings).flatMap fun text => (configured.run text).events)
      ++ (failure? readings).toList.map fun f => .complaint (f.message ++ "\n")) fun app => ?_
  rw [serve, call_of_prompt hstarts.line_eq hnone (hconfigure app), prompt_withFlag, hopen]
  exact toCall_software _ _ (failure? readings)

/-- A request that starts has one answer and leaves the flag alone unless its script can be read or its
terminal can be opened. -/
theorem Request.Starts.answers_cases {line : CommandLine} {configured : App}
    (h : r.Starts readers line configured) : (∃ source, r.ReadsScript readers source)
    ∨ (∃ readings, r.Prompts readers readings) ∨ ∃ code, r.Answers readers (fun _ => code) id := by
  obtain ⟨events, hconfigure⟩ := h.exists_configure
  cases hscript : line.script with
  | some path =>
    cases hread : r.files path with
    | ok bytes => exact .inl ⟨_, line, configured, path, bytes, h, hscript, hread, rfl⟩
    | error e =>
      refine .inr (.inr ⟨(Exit.noInput e).code, .of_serve
        (fun app => configured.withFlag app.hadError) (fun _ => rfl)
        (events ++ [.complaint ((Exit.noInput e).fault.message ++ "\n")]) fun app => ?_⟩)
      rw [serve, call_of_script h.line_eq hscript (hconfigure app), runFile, hread]
      simp [Finished.toCall]
  | none =>
    cases hopen : r.terminal configured.settings.prompt configured.settings.historyFile with
    | ok readings => exact .inr (.inl ⟨readings, line, configured, h, hscript, hopen⟩)
    | error f =>
      refine .inr (.inr ⟨(Exit.software f).code, .of_serve
        (fun app => configured.withFlag app.hadError) (fun _ => rfl)
        (events ++ [.complaint (f.message ++ "\n")]) fun app => ?_⟩)
      rw [serve, call_of_prompt h.line_eq hscript (hconfigure app), prompt_withFlag, hopen,
        List.append_nil]
      exact toCall_software _ _ (some f)

/-- **All other requests** have one answer, whatever the flag, and leave it alone. -/
theorem answers_cases (readers : Readers) (r : Request) : (∃ source, r.ReadsScript readers source)
    ∨ (∃ readings, r.Prompts readers readings) ∨ ∃ code, r.Answers readers (fun _ => code) id := by
  cases hline : readers.arguments r.arguments with
  | aside written refusal =>
    cases refusal with
    | none =>
      refine .inr (.inr ⟨0, .of_serve id (fun _ => rfl) written fun app => ?_⟩)
      rw [serve, call, hline]
      rfl
    | some message =>
      refine .inr (.inr ⟨usageCode, .of_serve id (fun _ => rfl)
        (written ++ (fresh.misuse message).events) fun app => ?_⟩)
      rw [serve, call, hline]
      rfl
  | run line =>
    cases hdone : fresh.configure readers.documents r.files line with
    | error message =>
      refine .inr (.inr ⟨usageCode, .of_serve id (fun _ => rfl) (fresh.misuse message).events
        fun app => ?_⟩)
      rw [serve, call_of_run hline, execute, configure_eq app fresh, hdone]
      rfl
    | ok done =>
      have hstarts : r.Starts readers line done.1 := ⟨hline, done.2, hdone⟩
      exact hstarts.answers_cases

/-! ### Isolation -/

/-- **The call `c` is isolated**: served with the flag `flag`, the request comes to what a fresh
program makes of it, but for what the flag does. -/
structure Isolated (readers : Readers) (r : Request) (flag : Bool) (c : Call) : Prop where
  /-- A fresh program writes the same, on every channel. -/
  events_eq : c.events = (fresh.serve readers r).events
  /-- A script that would end well fails if the flag was set before. -/
  code_script : ∀ source, r.ReadsScript readers source →
    c.code = if flag = true ∧ (fresh.serve readers r).code = 0 then 65
      else (fresh.serve readers r).code
  /-- All other requests have the status that a fresh program gives them. -/
  code_other : (¬ ∃ source, r.ReadsScript readers source) →
    c.code = (fresh.serve readers r).code
  /-- A script adds to the flag whether it has a fault. -/
  flag_script : ∀ source, r.ReadsScript readers source →
    c.app.hadError = (flag || (sourceFault? source).isSome)
  /-- A line of interactive input clears the flag, also if reading fails later on. -/
  flag_prompt : ∀ readings, r.Prompts readers readings → linesRun readings ≠ [] →
    c.app.hadError = false
  /-- All other requests leave it alone, also those whose terminal cannot be opened. -/
  flag_other : (¬ ∃ source, r.ReadsScript readers source) →
    (∀ readings, r.Prompts readers readings → linesRun readings = []) → c.app.hadError = flag

/-- **One request on any program.** -/
theorem isolated_serve (readers : Readers) (app : App) (r : Request) :
    Isolated readers r app.hadError (app.serve readers r) where
  events_eq := by
    obtain ⟨source, hsource⟩ | ⟨readings, hprompts⟩ | ⟨code, hcode⟩ := answers_cases readers r
    · exact (answers_script hsource).events_eq app fresh
    · exact (answers_prompt hprompts).events_eq app fresh
    · exact hcode.events_eq app fresh
  code_script source hsource := by
    rw [(answers_script hsource).code_eq, (answers_script hsource).code_eq]
    cases app.hadError <;> cases (sourceFault? source).isSome <;> rfl
  code_other hnone := by
    obtain hscript | ⟨readings, hprompts⟩ | ⟨code, hcode⟩ := answers_cases readers r
    · exact absurd hscript hnone
    · rw [(answers_prompt hprompts).code_eq, (answers_prompt hprompts).code_eq]
    · rw [hcode.code_eq, hcode.code_eq]
  flag_script source hsource := (answers_script hsource).hadError_eq app
  flag_prompt readings hprompts hne := by rw [(answers_prompt hprompts).hadError_eq, if_neg hne]
  flag_other hnone hempty := by
    obtain hscript | ⟨readings, hprompts⟩ | ⟨code, hcode⟩ := answers_cases readers r
    · exact absurd hscript hnone
    · rw [(answers_prompt hprompts).hadError_eq, if_pos (hempty readings hprompts)]
    · exact hcode.hadError_eq app

/-- **Runs in a row are isolated** from each other but for the flag: whatever was run before, each
writes what it writes on a fresh program, with any readers and on any terminals. -/
theorem calls_isolated (readers : Readers) (start : App) (requests : List Request) :
    List.Forall₂ (fun r call => Isolated readers r call.1 call.2) requests
      (start.calls readers requests) := by
  induction requests generalizing start with
  | nil => exact .nil
  | cons r rest ih => exact .cons (isolated_serve readers start r) (ih _)

-- `nil` fails behind `+`, but no longer behind a line of interactive input, though reading then fails
example :
    let files : Files := fun path => .ok (if path = "bad" then [43] else [110, 105, 108])
    let terminal : Terminal := fun _ _ => .ok [.line "nil", .failure (.plain .internal)]
    let request (arguments : List String) : Request := ⟨files, terminal, arguments⟩
    let requests := [request ["bad"], request ["good"], request [], request ["good"]]
    (fresh.calls .plain requests).map (fun call => call.2.code) = [65, 65, 70, 0] := by
  decide +kernel

end Lox.App
