import Lox.Proofs.Script

/-!
# Settings from flags, file and defaults

A setting has up to three values: of a flag, of the settings file, and the standard one. The file is
checked by itself before the flags are laid over it, so a bad printer in the file is an error even
if a flag names a good one. Whatever reads the documents, putting settings into effect is all or
nothing.

- `Settings.FileSets`: what the settings file sets; `Settings.load_eq_ok_iff`: when it loads.
- `Printer.isSome_ofName?`: the names that settings may give are the names of the printers.
- `App.configure_cases`, `App.configure_ok_iff`: what putting settings into effect can come to, and
  when it succeeds.
- `App.configure_by_layers`: the whole, with the call that fails for want of settings.
-/

namespace Lox

/-! ### The settings file -/

namespace Settings

/-- **The file at `path` sets the fields `o`**: no file is named, or it can be read, its name tells
the format, and the decoder of the format takes its contents. -/
inductive FileSets (decoders : Decoders) (files : Files) : String → Overrides → Prop
  | nothing : FileSets decoders files "" {}
  | toml {path : String} {bytes : List UInt8} {o : Overrides} (format : Format.ofPath path = .toml)
      (read : files path = .ok bytes) (decoded : decoders.toml bytes = .ok o) :
      FileSets decoders files path o
  | yaml {path : String} {bytes : List UInt8} {o : Overrides} (format : Format.ofPath path = .yaml)
      (read : files path = .ok bytes) (decoded : decoders.yaml bytes = .ok o) :
      FileSets decoders files path o

variable {decoders : Decoders} {files : Files} {path : String}

theorem decode_eq_ok_iff {format : Format} {bytes : List UInt8} {o : Overrides} :
    decode decoders format bytes = .ok o ↔
      format = .toml ∧ decoders.toml bytes = .ok o
        ∨ format = .yaml ∧ decoders.yaml bytes = .ok o := by
  cases format with
  | unknown => simp [decode]
  | toml => cases h : decoders.toml bytes <;> simp [decode, h, Except.mapError]
  | yaml => cases h : decoders.yaml bytes <;> simp [decode, h, Except.mapError]

theorem fileSets_empty {o : Overrides} : FileSets decoders files "" o ↔ o = {} := by
  have hformat : Format.ofPath "" = .unknown := by decide
  constructor
  · intro h
    cases h with
    | nothing => rfl
    | toml format _ _ => rw [hformat] at format; cases format
    | yaml format _ _ => rw [hformat] at format; cases format
  · rintro rfl
    exact .nothing

theorem fileSets_iff (hpath : path ≠ "") {o : Overrides} : FileSets decoders files path o ↔
    ∃ bytes, files path = .ok bytes ∧ decode decoders (.ofPath path) bytes = .ok o := by
  simp only [decode_eq_ok_iff]
  constructor
  · intro h
    cases h with
    | nothing => exact absurd rfl hpath
    | toml format read decoded => exact ⟨_, read, .inl ⟨format, decoded⟩⟩
    | yaml format read decoded => exact ⟨_, read, .inr ⟨format, decoded⟩⟩
  · rintro ⟨bytes, read, ⟨format, decoded⟩ | ⟨format, decoded⟩⟩
    · exact .toml format read decoded
    · exact .yaml format read decoded

theorem FileSets.unique {o o' : Overrides} (h : FileSets decoders files path o)
    (h' : FileSets decoders files path o') : o = o' := by
  by_cases hpath : path = ""
  · subst hpath
    rw [fileSets_empty.mp h, fileSets_empty.mp h']
  · obtain ⟨bytes, hread, hdecode⟩ := (fileSets_iff hpath).mp h
    obtain ⟨bytes', hread', hdecode'⟩ := (fileSets_iff hpath).mp h'
    cases hread.symm.trans hread'
    exact Except.ok.inj (hdecode.symm.trans hdecode')

/-- The steps of loading a file that is named. -/
theorem load_of_ne (hpath : path ≠ "") : load decoders files path =
    match files path with
    | .error e => .error ⟨path, .unreadable e⟩
    | .ok bytes =>
      match decode decoders (.ofPath path) bytes with
      | .error e => .error ⟨path, e⟩
      | .ok o =>
        if (standard.override o).isValid then .ok (standard.override o)
        else .error ⟨path, .invalidPrinter (standard.override o).printer⟩ := by
  unfold load parse validate
  rw [if_neg (by simpa using hpath)]
  cases files path with
  | error e => rfl
  | ok bytes =>
    cases hdecode : decode decoders (.ofPath path) bytes with
    | error e => simp [hdecode, Except.mapError, Except.map, bind, Except.bind]
    | ok o =>
      cases hvalid : (standard.override o).isValid <;>
        simp [hdecode, hvalid, Except.mapError, Except.map, bind, Except.bind, pure, Except.pure]

/-- **Settings load** exactly if the file sets fields that come to a printer there is. -/
theorem load_eq_ok_iff {s : Settings} : load decoders files path = .ok s ↔
    ∃ o, FileSets decoders files path o ∧ (standard.override o).isValid = true
      ∧ s = standard.override o := by
  by_cases hpath : path = ""
  · subst hpath
    have hvalid : (standard.override {}).isValid = true := by decide
    simp only [fileSets_empty, exists_eq_left, hvalid, true_and]
    exact ⟨fun h => (Except.ok.inj h).symm, fun h => h ▸ rfl⟩
  · rw [load_of_ne hpath]
    constructor
    · intro h
      split at h
      · cases h
      next bytes read =>
        split at h
        · cases h
        next o decoded =>
          split at h
          next hvalid =>
            exact ⟨o, (fileSets_iff hpath).mpr ⟨bytes, read, decoded⟩, hvalid,
              (Except.ok.inj h).symm⟩
          · cases h
    · rintro ⟨o, hsets, hvalid, rfl⟩
      obtain ⟨bytes, read, decoded⟩ := (fileSets_iff hpath).mp hsets
      simp only [read, decoded, hvalid, if_true]

end Settings

/-! ### Names of printers -/

/-- **The names that settings may give are the names of the printers.** The two lists are written
down apart. -/
theorem Printer.isSome_ofName? (name : String) :
    (Printer.ofName? name).isSome = Printer.names.contains name := by
  unfold ofName?
  split
  · rfl
  · rfl
  · rfl
  · next hast hrpn htree =>
    have hnot : name ∉ names := by
      simp only [names, List.mem_cons, List.not_mem_nil, or_false]
      rintro (h | h | h)
      · exact hast h
      · exact hrpn h
      · exact htree h
    exact (Bool.eq_false_iff.mpr fun h => hnot (List.contains_iff_mem.mp h)).symm

namespace Settings

theorem isValid_iff {s : Settings} : s.isValid = true ↔ s.printer ∈ Printer.names :=
  List.contains_iff_mem

theorem validate_eq_ok_iff {s : Settings} : s.validate = .ok () ↔ s.isValid = true := by
  unfold validate
  split <;> simp_all

/-- The flags are checked only as far as they name a printer. -/
theorem isValid_override_iff {s : Settings} (hs : s.isValid = true) (flags : Overrides) :
    (s.override flags).isValid = true ↔ ∀ name, flags.printer = some name → name ∈ Printer.names := by
  rw [isValid_iff, override]
  cases hflag : flags.printer with
  | none => simpa [isValid_iff] using hs
  | some name => simp

end Settings

/-! ### Putting settings into effect -/

namespace App

open Settings (FileSets Decoders)

variable {app : App} {decoders : Decoders} {files : Files} {line : CommandLine}

/-- Settings that pass the check have a printer. -/
theorem withSettings?_of_isValid (app : App) {s : Settings} (hs : s.isValid = true) :
    ∃ printer, Printer.ofName? s.printer = some printer
      ∧ app.withSettings? s = some { app with settings := s, printer, verbose := s.verbose } := by
  have hsome : (Printer.ofName? s.printer).isSome = true := by
    rw [Printer.isSome_ofName?]
    exact hs
  obtain ⟨printer, hprinter⟩ := Option.isSome_iff_exists.mp hsome
  refine ⟨printer, hprinter, ?_⟩
  rw [withSettings?, hprinter, Option.map_some]

/-- **What putting settings into effect comes to**: the file does not load, or a flag names a printer
there is not, or the settings of the file with the flags on top are in effect. -/
theorem configure_cases (app : App) (decoders : Decoders) (files : Files) (line : CommandLine) :
    (∃ e, Settings.load decoders files line.config = .error e
      ∧ app.configure decoders files line = .error e.message)
    ∨ (∃ loaded name, Settings.load decoders files line.config = .ok loaded
      ∧ line.overrides.printer = some name ∧ name ∉ Printer.names
      ∧ app.configure decoders files line = .error (Settings.Error.invalidPrinter name).message)
    ∨ ∃ loaded printer, Settings.load decoders files line.config = .ok loaded
      ∧ (∀ name, line.overrides.printer = some name → name ∈ Printer.names)
      ∧ Printer.ofName? (loaded.override line.overrides).printer = some printer
      ∧ ∃ events, app.configure decoders files line = .ok
        ({ app with
            settings := loaded.override line.overrides
            printer
            verbose := (loaded.override line.overrides).verbose }, events) := by
  unfold configure
  cases hload : Settings.load decoders files line.config with
  | error e => exact .inl ⟨e, rfl, rfl⟩
  | ok loaded =>
    obtain ⟨o, -, hvalid, rfl⟩ := Settings.load_eq_ok_iff.mp hload
    by_cases hflags : ((Settings.standard.override o).override line.overrides).isValid = true
    · obtain ⟨printer, hprinter, hwith⟩ := withSettings?_of_isValid app hflags
      refine .inr (.inr ⟨_, printer, rfl, (Settings.isValid_override_iff hvalid _).mp hflags,
        hprinter, ?_⟩)
      simp only [Settings.validate_eq_ok_iff.mpr hflags, hwith]
      exact ⟨_, rfl⟩
    · obtain ⟨name, hname, hnot⟩ : ∃ name, line.overrides.printer = some name
          ∧ name ∉ Printer.names := by
        rw [Settings.isValid_override_iff hvalid] at hflags
        simpa using hflags
      have hprinter : ((Settings.standard.override o).override line.overrides).printer = name := by
        simp [Settings.override, hname]
      refine .inr (.inl ⟨_, name, rfl, hname, hnot, ?_⟩)
      simp only [Settings.validate, hflags, hprinter]
      rfl

/-- Settings in effect are those of the file with the flags on top. -/
theorem exists_of_configure {app' : App} {events : List Event}
    (hdone : app.configure decoders files line = .ok (app', events)) :
    ∃ o printer, FileSets decoders files line.config o
      ∧ (Settings.standard.override o).isValid = true
      ∧ (∀ name, line.overrides.printer = some name → name ∈ Printer.names)
      ∧ Printer.ofName? app'.settings.printer = some printer
      ∧ app'.settings = (Settings.standard.override o).override line.overrides
      ∧ app' = { app with settings := app'.settings, printer, verbose := app'.settings.verbose } := by
  obtain ⟨e, -, h⟩ | ⟨_, _, -, -, -, h⟩ | ⟨loaded, printer, hload, hflag, hprinter, _, h⟩ :=
    configure_cases app decoders files line
  · rw [h] at hdone
    cases hdone
  · rw [h] at hdone
    cases hdone
  · obtain ⟨o, hsets, hvalid, rfl⟩ := Settings.load_eq_ok_iff.mp hload
    rw [h] at hdone
    cases hdone
    exact ⟨o, printer, hsets, hvalid, hflag, hprinter, rfl, rfl⟩

theorem configure_ok_iff : (∃ done, app.configure decoders files line = .ok done) ↔
    (∃ o, FileSets decoders files line.config o ∧ (Settings.standard.override o).isValid = true)
      ∧ ∀ name, line.overrides.printer = some name → name ∈ Printer.names := by
  constructor
  · rintro ⟨⟨app', events⟩, hdone⟩
    obtain ⟨o, _, hsets, hvalid, hflag, -⟩ := exists_of_configure hdone
    exact ⟨⟨o, hsets, hvalid⟩, hflag⟩
  · rintro ⟨⟨o, hsets, hvalid⟩, hflag⟩
    have hload := Settings.load_eq_ok_iff.mpr ⟨o, hsets, hvalid, rfl⟩
    obtain ⟨e, h, -⟩ | ⟨_, name, -, hname, hnot, -⟩ | ⟨_, _, -, -, -, events, h⟩ :=
      configure_cases app decoders files line
    · rw [h] at hload
      cases hload
    · exact absurd (hflag name hname) hnot
    · exact ⟨_, h⟩

/-- **How settings are put into effect** by a run that is asked for what `line` says. -/
structure Layered (app : App) (readers : Readers) (files : Files) (terminal : Terminal)
    (line : CommandLine) : Prop where
  /-- It succeeds exactly if the file loads, by itself, and a printer that a flag names is one. -/
  ok_iff : (∃ done, app.configure readers.documents files line = .ok done) ↔
    (∃ o, FileSets readers.documents files line.config o
        ∧ o.printer.getD "ast" ∈ ["ast", "rpn", "tree"])
      ∧ ∀ name, line.printer = some name → name ∈ ["ast", "rpn", "tree"]
  /-- Then flags go before the file, and the file before the standard settings. -/
  settings_eq : ∀ app' events o,
    app.configure readers.documents files line = .ok (app', events) →
    FileSets readers.documents files line.config o →
    app'.settings =
      { prompt := o.prompt.getD "> "
        historyFile := o.historyFile.getD ""
        printer := (line.printer.or o.printer).getD "ast"
        showTokens := (line.showTokens.or o.showTokens).getD false
        verbose := (line.verbose.or o.verbose).getD false }
  /-- The printer and the log are as these settings say, and the flag is as before. -/
  in_effect : ∀ app' events, app.configure readers.documents files line = .ok (app', events) →
    Printer.ofName? app'.settings.printer = some app'.printer
      ∧ app'.verbose = app'.settings.verbose ∧ app'.hadError = app.hadError
  /-- Settings that pass the check never fail for want of a printer. -/
  printer_exists : ∀ s : Settings, s.validate = .ok () → (app.withSettings? s).isSome = true
  /-- A call that fails leaves the program as it was, prints nothing and has status 64. -/
  call_of_error : ∀ message, app.configure readers.documents files line = .error message →
    ∀ arguments, readers.arguments arguments = .run line →
      (app.call readers files terminal arguments).app = app
        ∧ Event.stdout (app.call readers files terminal arguments).events = ""
        ∧ (app.call readers files terminal arguments).code = 64

/-- **Settings come from flags, file and defaults**, in this order, and are put into effect as a
whole or not at all, whatever reads the arguments and the documents. -/
theorem configure_by_layers (app : App) (readers : Readers) (files : Files) (terminal : Terminal)
    (line : CommandLine) : Layered app readers files terminal line where
  ok_iff := by
    simp only [configure_ok_iff, Settings.isValid_iff]
    rfl
  settings_eq app' events o hdone hsets := by
    obtain ⟨o', _, hsets', -, -, -, hsettings, -⟩ := exists_of_configure hdone
    rw [hsettings, hsets'.unique hsets]
    simp [Settings.override, Settings.standard, CommandLine.overrides]
  in_effect app' events hdone := by
    obtain ⟨_, printer, -, -, -, hprinter, -, happ⟩ := exists_of_configure hdone
    rw [happ]
    exact ⟨hprinter, rfl, rfl⟩
  printer_exists s hs := by
    obtain ⟨printer, -, hwith⟩ := withSettings?_of_isValid app (Settings.validate_eq_ok_iff.mp hs)
    rw [hwith, Option.isSome_some]
  call_of_error message hmessage arguments hline := by
    have hcall : app.call readers files terminal arguments = app.misuse message := by
      rw [call_of_run hline, execute, hmessage]
    rw [hcall]
    exact ⟨rfl, rfl, rfl⟩

/-- A file that names no printer there is fails the call, though a flag names one: `printer="x"` in
the file and `-p rpn`. -/
theorem configure_by_layers_bad_file :
    let files : Files := fun _ => .ok [112, 114, 105, 110, 116, 101, 114, 61, 34, 120, 34]
    let terminal : Terminal := fun _ _ => .ok []
    let arguments := ["--config", "c.toml", "-p", "rpn", "a"]
    let line : CommandLine := { config := "c.toml", printer := some "rpn", script := some "a" }
    Readers.plain.arguments arguments = .run line
      ∧ FileSets .plain files "c.toml" { printer := some "x" }
      ∧ (∀ done, fresh.configure .plain files line ≠ .ok done)
      ∧ (fresh.call .plain files terminal arguments).app = fresh
      ∧ (fresh.call .plain files terminal arguments).code = 64 := by
  intro files terminal arguments line
  have hline : Readers.plain.arguments arguments = .run line := rfl
  have hsets : FileSets .plain files "c.toml" { printer := some "x" } :=
    .toml (by decide) rfl (by decide +kernel)
  have hlayered := configure_by_layers fresh .plain files terminal line
  have hfails : ∀ done, fresh.configure .plain files line ≠ .ok done := by
    intro done hdone
    obtain ⟨⟨o, ho, hprinter⟩, -⟩ := hlayered.ok_iff.mp ⟨done, hdone⟩
    rw [ho.unique hsets] at hprinter
    simp at hprinter
  obtain ⟨message, hmessage⟩ : ∃ message, fresh.configure .plain files line = .error message := by
    cases h : fresh.configure .plain files line with
    | error message => exact ⟨message, rfl⟩
    | ok done => exact absurd h (hfails done)
  obtain ⟨happ, -, hcode⟩ := hlayered.call_of_error message hmessage arguments hline
  exact ⟨hline, hsets, hfails, happ, hcode⟩

end App

end Lox
