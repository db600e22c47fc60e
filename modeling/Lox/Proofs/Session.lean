import Lox.Proofs.Lines
import Lox.Proofs.Script

/-!
# Interactive sessions

Interactive input is answered line by line, and each line as if it were the first: the flag is reset
behind every line, nothing else of the program changes, and the lines of the text count from one
again.

- `Segment.line_of_scan`: the line of the tokens and errors of a single line.
- `App.linesRun`, `App.pending`, `App.failure?`: the lines that are run, the readings from the end of
  the session on, and the fault with which reading fails.
- `App.reply_line`, `App.events_repl`, `App.app_repl`, `App.exit_repl`: one line, and all readings;
  `App.prompt_eq`, `App.prompt_withFlag`: a terminal.
- `App.not_isFailure_run`: no failure of the program is logged.
- `App.repl_line_by_line`: what a session comes to.
-/

namespace Lox

/-! ### Lines count from one -/

namespace Segment

section

variable {segments : List Segment} (hsegments : ∀ s ∈ segments, s.newlines = 0) (line : Int)

include hsegments

theorem line_of_mem_tokens : ∀ t ∈ tokens line segments, t.line = line := by
  induction segments with
  | nil => exact List.forall_mem_nil _
  | cons s rest ih =>
    obtain ⟨hs, hrest⟩ := List.forall_mem_cons.mp hsegments
    simp only [tokens, hs, Int.natCast_zero, Int.add_zero, List.forall_mem_append]
    refine ⟨fun t ht => ?_, ih hrest⟩
    unfold token? at ht
    cases hform : s.form <;> simp [hform] at ht <;> rw [ht]

theorem line_of_mem_errors : ∀ e ∈ errors line segments, e.line = line := by
  induction segments with
  | nil => exact List.forall_mem_nil _
  | cons s rest ih =>
    obtain ⟨hs, hrest⟩ := List.forall_mem_cons.mp hsegments
    simp only [errors, hs, Int.natCast_zero, Int.add_zero, List.forall_mem_append]
    refine ⟨fun e he => ?_, ih hrest⟩
    unfold error? at he
    cases hform : s.form <;> simp [hform] at he <;> rw [he]

end

/-- **A single line is line 1**, to its tokens and to its errors. -/
theorem line_of_scan {text : String} (htext : '\n' ∉ text.toList) :
    (∀ t ∈ (scan text).tokens, t.line = 1) ∧ ∀ e ∈ (scan text).errors, e.line = 1 := by
  have hsegments : ∀ s ∈ cut text.toList, s.newlines = 0 := by
    intro s hs
    refine List.count_eq_zero.mpr fun hc => htext ?_
    rw [← (cuts_cut text.toList).flatten_text]
    exact List.mem_flatten.mpr ⟨s.text, List.mem_map_of_mem hs, hc⟩
  refine ⟨List.forall_mem_append.mpr ⟨line_of_mem_tokens hsegments 1, ?_⟩,
    line_of_mem_errors hsegments 1⟩
  rw [List.forall_mem_singleton]
  show (scan text).endLine = 1
  rw [endLine_scan, List.count_eq_zero.mpr htext]
  rfl

end Segment

namespace App

/-! ### Where a session ends -/

/-- **The session ends with this reading.** -/
def Reading.stops : Reading → Bool
  | .line _ => false
  | .interrupt text => text == ""
  | .endOfInput => true
  | .failure _ => true

/-- The text of a line that was not interrupted. -/
def Reading.line? : Reading → Option String
  | .line text => some text
  | _ => none

/-- **The lines that are run**: those before the reading that ends the session, without the
interrupted ones. -/
def linesRun (readings : List Reading) : List String :=
  (readings.takeWhile (!·.stops)).filterMap Reading.line?

/-- The readings from the one that ends the session on. -/
def pending (readings : List Reading) : List Reading :=
  readings.dropWhile (!·.stops)

/-- The fault of a reading that failed. -/
def Reading.fault? : Reading → Option Fault
  | .failure f => some f
  | _ => none

/-- **The fault with which reading fails**, if the session ends with that. -/
def failure? (readings : List Reading) : Option Fault :=
  (pending readings).head?.bind Reading.fault?

theorem Reading.stops_interrupt {text : String} (htext : text ≠ "") :
    (Reading.interrupt text).stops = false := by
  simp [stops, htext]

/-! ### Line by line -/

/-- **A line is run and then forgotten**: no internal error is ever logged, since every fault of a
line lies in its text. -/
theorem reply_line (app : App) (text : String) :
    app.reply (.line text) = .next (app.withFlag false) (app.run text).events := by
  unfold reply
  simp only [run_fault_filter, run_app, List.append_nil]
  rfl

theorem repl_line (app : App) (text : String) (rest : List Reading) :
    app.repl (.line text :: rest)
      = { (app.withFlag false).repl rest with
          turns := ((app.run text).events, false) :: ((app.withFlag false).repl rest).turns } := by
  rw [repl, reply_line]
  rfl

theorem repl_interrupted (app : App) {text : String} (htext : text ≠ "") (rest : List Reading) :
    app.repl (.interrupt text :: rest)
      = { app.repl rest with turns := ([], app.hadError) :: (app.repl rest).turns } := by
  have hreply : app.reply (.interrupt text) = .next app [] := by simp [reply, htext]
  rw [repl, hreply]

/-- A reading that ends the session has no other effect than to fail it, perhaps. -/
theorem repl_stop (app : App) {reading : Reading} (hstops : reading.stops = true)
    (rest : List Reading) :
    app.repl (reading :: rest)
      = ⟨[([], app.hadError)], app, reading.fault?.map .software, rest.length⟩ := by
  rw [repl]
  cases reading with
  | line text => cases hstops
  | interrupt text =>
    obtain rfl : text = "" := by simpa [Reading.stops] using hstops
    rfl
  | endOfInput => rfl
  | failure f => rfl

theorem linesRun_stop {reading : Reading} (hstops : reading.stops = true) (rest : List Reading) :
    linesRun (reading :: rest) = [] := by
  simp [linesRun, hstops]

theorem linesRun_line (text : String) (rest : List Reading) :
    linesRun (.line text :: rest) = text :: linesRun rest := by
  simp [linesRun, Reading.stops, Reading.line?]

theorem linesRun_interrupted {text : String} (htext : text ≠ "") (rest : List Reading) :
    linesRun (.interrupt text :: rest) = linesRun rest := by
  have hnone : Reading.line? (.interrupt text) = none := rfl
  simp [linesRun, Reading.stops_interrupt htext, hnone]

/-- A reading ends the session, or it is a line, or an interrupted text. -/
theorem Reading.cases_stops (reading : Reading) : reading.stops = true
    ∨ (∃ text, reading = .line text) ∨ ∃ text, text ≠ "" ∧ reading = .interrupt text := by
  cases reading with
  | line text => exact .inr (.inl ⟨text, rfl⟩)
  | interrupt text =>
    by_cases htext : text = ""
    · exact .inl (by simp [stops, htext])
    · exact .inr (.inr ⟨text, htext, rfl⟩)
  | endOfInput => exact .inl rfl
  | failure f => exact .inl rfl

/-- **A session writes what its lines write**, one after another. -/
theorem events_repl (app : App) (readings : List Reading) :
    (app.repl readings).turns.flatMap Prod.fst
      = (linesRun readings).flatMap fun text => (app.run text).events := by
  induction readings generalizing app with
  | nil => rfl
  | cons reading rest ih =>
    obtain hstops | ⟨text, rfl⟩ | ⟨text, htext, rfl⟩ := reading.cases_stops
    · rw [repl_stop app hstops, linesRun_stop hstops]
      rfl
    · -- the rest runs on a reset flag, which does not show in what it writes
      rw [repl_line, linesRun_line, List.flatMap_cons, List.flatMap_cons, ih]
      simp only [run_events_withFlag]
    · rw [repl_interrupted app htext, linesRun_interrupted htext, List.flatMap_cons, ih]
      rfl

/-- **A session resets the flag** once it has run a line, and changes nothing else. -/
theorem app_repl (app : App) (readings : List Reading) :
    (app.repl readings).app
      = app.withFlag (if linesRun readings = [] then app.hadError else false) := by
  induction readings generalizing app with
  | nil => rfl
  | cons reading rest ih =>
    obtain hstops | ⟨text, rfl⟩ | ⟨text, htext, rfl⟩ := reading.cases_stops
    · rw [repl_stop app hstops, linesRun_stop hstops]
      rfl
    · rw [repl_line, linesRun_line]
      dsimp only
      rw [ih, withFlag_withFlag, hadError_withFlag, ite_self]
      rfl
    · rw [repl_interrupted app htext, linesRun_interrupted htext]
      exact ih app

theorem pending_stop {reading : Reading} (hstops : reading.stops = true) (rest : List Reading) :
    pending (reading :: rest) = reading :: rest := by
  simp [pending, hstops]

theorem pending_interrupted {text : String} (htext : text ≠ "") (rest : List Reading) :
    pending (.interrupt text :: rest) = pending rest := by
  simp [pending, Reading.stops_interrupt htext]

/-- **A session fails exactly if reading does**, and leaves what follows unread. -/
theorem exit_repl (app : App) (readings : List Reading) :
    (app.repl readings).exit = (failure? readings).map .software
      ∧ (app.repl readings).unread = (pending readings).length - 1 := by
  unfold failure?
  induction readings generalizing app with
  | nil => exact ⟨rfl, rfl⟩
  | cons reading rest ih =>
    obtain hstops | ⟨text, rfl⟩ | ⟨text, htext, rfl⟩ := reading.cases_stops
    · rw [repl_stop app hstops, pending_stop hstops]
      exact ⟨rfl, rfl⟩
    · rw [repl_line]
      exact ih _
    · rw [repl_interrupted app htext, pending_interrupted htext]
      exact ih app

/-- **Interactive input from a terminal** fails if that cannot be opened; else it is what its readings
come to. -/
theorem prompt_eq (app : App) (terminal : Terminal) :
    app.prompt terminal = match terminal app.settings.prompt app.settings.historyFile with
      | .error f => ⟨app, [], some (.software f)⟩
      | .ok readings =>
        ⟨app.withFlag (if linesRun readings = [] then app.hadError else false),
          (linesRun readings).flatMap fun text => (app.run text).events,
          (failure? readings).map .software⟩ := by
  unfold prompt
  cases terminal app.settings.prompt app.settings.historyFile with
  | error f => rfl
  | ok readings =>
    dsimp only
    rw [events_repl, app_repl, (exit_repl _ _).1]

/-- **The flag does not show in interactive input**: neither the terminal nor what is written depends
on it. -/
theorem prompt_withFlag (app : App) (flag : Bool) (terminal : Terminal) :
    (app.withFlag flag).prompt terminal
      = match terminal app.settings.prompt app.settings.historyFile with
        | .error f => ⟨app.withFlag flag, [], some (.software f)⟩
        | .ok readings =>
          ⟨app.withFlag (if linesRun readings = [] then flag else false),
            (linesRun readings).flatMap fun text => (app.run text).events,
            (failure? readings).map .software⟩ := by
  rw [prompt_eq]
  simp only [run_events_withFlag, withFlag_withFlag, hadError_withFlag]
  rfl

/-! ### No failure is logged -/

/-- A log line begins with its level. -/
theorem exists_line_eq (level message : String) (values : List (String × String)) :
    ∃ rest, Log.line level message values = "level" ++ "=" ++ Log.value level ++ rest := by
  dsimp only [Log.line]
  rw [List.map_cons, List.map_cons, String.intercalate_cons_cons, String.append_assoc,
    String.append_assoc]
  exact ⟨_, rfl⟩

theorem line_debug_ne_line_error (message message' : String)
    (values values' : List (String × String)) :
    Log.line "DEBUG" message values ≠ Log.line "ERROR" message' values' := by
  obtain ⟨rest, hdebug⟩ := exists_line_eq "DEBUG" message values
  obtain ⟨rest', herror⟩ := exists_line_eq "ERROR" message' values'
  have hd : Log.value "DEBUG" = "DEBUG" := by decide
  have he : Log.value "ERROR" = "ERROR" := by decide
  intro h
  rw [hdebug, herror, hd, he] at h
  -- the two texts part at the first letter of the level
  have hlist := congrArg String.toList h
  simp at hlist

/-- **A log line that tells of a failure** of the program itself. -/
def IsFailure (e : Event) : Prop :=
  ∃ message values, e = .log (Log.line "ERROR" message values)

theorem not_isFailure_debug (app : App) (message : String) (values : List (String × String)) :
    ∀ e ∈ app.debug message values, ¬ IsFailure e := by
  rintro e he ⟨message', values', rfl⟩
  unfold debug at he
  split at he
  · have h := Event.log.inj (List.mem_singleton.mp he)
    exact line_debug_ne_line_error _ _ _ _ h.symm
  · cases he

theorem not_isFailure_printed (lines : List String) :
    ∀ e ∈ lines.map printed, ¬ IsFailure e := by
  rintro e he ⟨message, values, rfl⟩
  obtain ⟨text, -, htext⟩ := List.mem_map.mp he
  cases htext

theorem not_isFailure_diagnostics (f : Option Fault) : ∀ e ∈ diagnostics f, ¬ IsFailure e := by
  rintro e he ⟨message, values, rfl⟩
  unfold diagnostics at he
  split at he
  · cases he
  · cases List.mem_singleton.mp he

/-- **A unit of input logs no failure.** -/
theorem not_isFailure_run (app : App) (source : String) :
    ∀ e ∈ (app.run source).events, ¬ IsFailure e := by
  have hscan : ∀ e ∈ app.scanEvents source, ¬ IsFailure e := by
    simp only [scanEvents, List.forall_mem_append]
    exact ⟨⟨not_isFailure_diagnostics _, not_isFailure_debug _ _ _⟩, not_isFailure_printed _⟩
  rw [run_eq]
  cases (scan source).fault? with
  | some f => exact hscan
  | none =>
    dsimp only
    rw [runTokens_eq, List.forall_mem_append]
    refine ⟨hscan, ?_⟩
    cases (Parser.ofTokens (scan source).tokens).parseAll.1 with
    | error f =>
      exact List.forall_mem_append.mpr ⟨not_isFailure_diagnostics _, not_isFailure_debug _ _ _⟩
    | ok trees =>
      exact List.forall_mem_append.mpr ⟨not_isFailure_debug _ _ _, not_isFailure_printed _⟩

/-! ### Sessions -/

/-- Everything a session wrote, in order. -/
def Session.events (s : Session) : List Event := s.turns.flatMap Prod.fst

/-- **What a session comes to** when `app` is given `readings`. -/
structure SessionOutcome (app : App) (readings : List Reading) (s : Session) : Prop where
  /-- Nothing is read behind the first reading that ends the session. -/
  unread_eq : s.unread = (pending readings).length - 1
  /-- If reading fails, the session fails with status 70 and the very fault of that. -/
  exit_failure : ∀ f, (pending readings).head? = some (.failure f) →
    ∃ exit, s.exit = some exit ∧ exit.code = 70 ∧ exit.fault = f
  /-- Else it does not fail. -/
  exit_none : (∀ f, (pending readings).head? ≠ some (.failure f)) → s.exit = none
  /-- It prints what each line prints that is run alone on a clear flag. -/
  stdout_eq : Event.stdout s.events = String.join ((linesRun readings).map fun text =>
    Event.stdout ((app.withFlag false).run text).events)
  /-- It reports what each line reports that is run alone on a clear flag. -/
  reported_eq : Event.reported s.events = String.join ((linesRun readings).map fun text =>
    Event.reported ((app.withFlag false).run text).events)
  /-- Every line is line 1 again. -/
  line_eq_one : ∀ text ∈ linesRun readings, '\n' ∉ text.toList →
    (∀ t ∈ (scan text).tokens, t.line = 1) ∧ ∀ e ∈ (scan text).errors, e.line = 1
  /-- No failure of the program is logged. -/
  not_isFailure : ∀ e ∈ s.events, ¬ IsFailure e
  /-- The flag is clear if a line was run. Nothing else of the program changes. -/
  app_eq : s.app = app.withFlag (if linesRun readings = [] then app.hadError else false)

/-- **A session goes line by line**, and each line is run as if it were the first. -/
theorem repl_line_by_line (app : App) (readings : List Reading) :
    SessionOutcome app readings (app.repl readings) := by
  obtain ⟨hexit, hunread⟩ := exit_repl app readings
  have hevents : (app.repl readings).events
      = (linesRun readings).flatMap fun text => ((app.withFlag false).run text).events := by
    simp only [Session.events, events_repl, run_events_withFlag]
  refine ⟨hunread, fun f hf => ?_, fun hnone => ?_, ?_, ?_, fun text _ => Segment.line_of_scan,
    ?_, app_repl app readings⟩
  · rw [failure?, hf] at hexit
    exact ⟨_, hexit, rfl, rfl⟩
  · rw [hexit, failure?]
    match hhead : (pending readings).head? with
    | some (.failure f) => exact absurd hhead (hnone f)
    | some (.line _) | some (.interrupt _) | some .endOfInput | none => rfl
  · rw [hevents, Event.stdout_flatMap]
  · rw [hevents, Event.reported_flatMap]
  · rw [hevents]
    intro e he
    obtain ⟨text, -, htext⟩ := List.mem_flatMap.mp he
    exact not_isFailure_run _ text e htext

end App

end Lox
