import Mathlib.Data.List.Basic
import Lox.Proofs.Reports

/-!
# Trees of errors and what is reported of them

A fault is a tree: collections and texts in front, over errors at places and bare causes. The
reporter takes a collection apart down to its units, the faults that are no collections, and writes
one line for each: the first diagnostic in the unit or, if it holds none, the text of the unit.

- `Fault.induction`: induction over a fault, with one case for both sorts of collection.
- `Fault.outermost`: the errors at places in a fault that do not lie below another one, in order;
  `Fault.firstDiagnostic?_eq_head?` and `Fault.isStatic_iff_outermost` say that both searches of a
  fault look for these.
- `Fault.units`, `Fault.entry`: what a fault is taken apart to and the line for each;
  `Reporter.reportFault_eq_units` says that these lines are written.
- `Fault.outermost_reported_iff`: all outermost diagnostics are reported if and only if no unit holds
  two of them, which only a text in front of a collection can.
- `Fault.Simple`: a fault that is reported by its text; `Reporter.reportFault_joined`: joining keeps
  the report to the text.
-/

namespace Lox

namespace Fault

/-! ### Induction -/

/-- **Induction over a fault.** Joined and paired faults are one case: collections of parts. -/
@[elab_as_elim]
theorem induction {motive : Fault → Prop}
    (scan : ∀ e, motive (.scan e)) (parse : ∀ e, motive (.parse e))
    (plain : ∀ c, motive (.plain c)) (noOperator : ∀ kind, motive (.noOperator kind))
    (scanFrom : ∀ line cause details, motive cause → motive (.scanFrom line cause details))
    (parseFrom : ∀ token cause, motive cause → motive (.parseFrom token cause))
    (wrapped : ∀ text inner, motive inner → motive (.wrapped text inner))
    (collection : ∀ f parts, f.parts? = some parts → (∀ g ∈ parts, motive g) → motive f)
    (f : Fault) : motive f := by
  refine @Fault.rec motive (fun parts => ∀ g ∈ parts, motive g) (fun f => ∀ g ∈ f.toList, motive g)
    scan parse plain noOperator scanFrom parseFrom (fun parts ih => collection _ parts rfl ih)
    wrapped (fun _ first second hfirst hsecond => collection _ _ rfl ?_) ?_ ?_ ?_ ?_ f
  · exact List.forall_mem_append.mpr ⟨hfirst, hsecond⟩
  · exact List.forall_mem_nil _
  · exact fun f rest hf hrest => List.forall_mem_cons.mpr ⟨hf, hrest⟩
  · exact List.forall_mem_nil _
  · exact fun f hf => List.forall_mem_singleton.mpr hf

/-! ### Outermost diagnostics -/

/-- **The diagnostic that a fault is**, if it is an error at a place itself. -/
def diagnostic? : Fault → Option Diagnostic
  | scan e => some e.diagnostic
  | parse e => some e.diagnostic
  | scanFrom line cause details => some (ScanError.mk line (.other cause.message) details).diagnostic
  | parseFrom token cause => some (ParseError.mk token (.other cause.message)).diagnostic
  | plain _ | noOperator _ | joined _ | wrapped _ _ | paired _ _ _ => none

mutual

/-- **The outermost diagnostics of a fault**, depth first from left to right: nothing below an error
at a place counts. -/
def outermost : Fault → List Diagnostic
  | joined parts => listOutermost parts
  | wrapped _ inner => outermost inner
  | paired _ first second => optionOutermost first ++ optionOutermost second
  | f => f.diagnostic?.toList

/-- The outermost diagnostics of several faults. -/
def listOutermost : List Fault → List Diagnostic
  | [] => []
  | f :: rest => outermost f ++ listOutermost rest

/-- The outermost diagnostics of a fault that may be absent. -/
def optionOutermost : Option Fault → List Diagnostic
  | none => []
  | some f => outermost f

end

theorem listOutermost_eq (fs : List Fault) : listOutermost fs = fs.flatMap outermost := by
  induction fs with
  | nil => rfl
  | cons f rest ih => rw [listOutermost, ih, List.flatMap_cons]

theorem optionOutermost_eq (f : Option Fault) : optionOutermost f = f.toList.flatMap outermost := by
  cases f <;> simp [optionOutermost]

theorem listDiagnostic?_eq (fs : List Fault) :
    listDiagnostic? fs = fs.findSome? firstDiagnostic? := by
  induction fs with
  | nil => rfl
  | cons f rest ih =>
    rw [listDiagnostic?, ih, List.findSome?_cons]
    cases f.firstDiagnostic? <;> rfl

theorem anyStatic_eq (fs : List Fault) : anyStatic fs = fs.any isStatic := by
  induction fs with
  | nil => rfl
  | cons f rest ih => rw [anyStatic, ih, List.any_cons]

section

variable {f : Fault} {parts : List Fault} (h : f.parts? = some parts)

include h

/-- The outermost diagnostics of a collection are those of its parts. -/
theorem outermost_of_parts? : f.outermost = parts.flatMap outermost := by
  cases f with
  | joined => cases h; rw [outermost, listOutermost_eq]
  | paired =>
    cases h
    rw [outermost, optionOutermost_eq, optionOutermost_eq, List.flatMap_append]
  | _ => cases h

theorem firstDiagnostic?_of_parts? :
    f.firstDiagnostic? = parts.findSome? firstDiagnostic? := by
  cases f with
  | joined => cases h; rw [firstDiagnostic?, listDiagnostic?_eq]
  | paired _ first second =>
    cases h
    rw [firstDiagnostic?, List.findSome?_append]
    cases first <;> cases second <;> simp [optionDiagnostic?]
  | _ => cases h

theorem isStatic_of_parts? : f.isStatic = parts.any isStatic := by
  cases f with
  | joined => cases h; rw [isStatic, anyStatic_eq]
  | paired _ first second =>
    cases h
    rw [isStatic, List.any_append]
    cases first <;> cases second <;> simp [optionStatic]
  | _ => cases h

end

/-- **A search finds the first of the outermost diagnostics.** -/
theorem firstDiagnostic?_eq_head? (f : Fault) : f.firstDiagnostic? = f.outermost.head? := by
  induction f using induction with
  | wrapped text inner ih => rw [firstDiagnostic?, ih, outermost]
  | collection f parts h ih =>
    rw [firstDiagnostic?_of_parts? h, outermost_of_parts? h, List.head?_flatMap,
      ← List.head?_filterMap, ← List.head?_filterMap, List.filterMap_congr ih]
  | _ => rfl

/-- **A fault lies in the user's text** if and only if it has an outermost diagnostic. -/
theorem isStatic_iff_outermost (f : Fault) : f.isStatic = true ↔ f.outermost ≠ [] := by
  induction f using induction with
  | wrapped text inner ih => rw [isStatic, ih, outermost]
  | collection f parts h ih =>
    simp only [isStatic_of_parts? h, outermost_of_parts? h, List.any_eq_true, Ne,
      List.flatMap_eq_nil_iff, Classical.not_forall, exists_prop]
    exact exists_congr fun g => and_congr_right (ih g)
  | _ => simp [isStatic, outermost, diagnostic?]

/-! ### What a fault is taken apart to -/

mutual

/-- **The units of a fault**: collections are taken apart, down to faults that are none. -/
def units : Fault → List Fault
  | joined parts => listUnits parts
  | paired _ first second => optionUnits first ++ optionUnits second
  | f => [f]

/-- The units of several faults. -/
def listUnits : List Fault → List Fault
  | [] => []
  | f :: rest => units f ++ listUnits rest

/-- The units of a fault that may be absent. -/
def optionUnits : Option Fault → List Fault
  | none => []
  | some f => units f

end

theorem listUnits_eq (fs : List Fault) : listUnits fs = fs.flatMap units := by
  induction fs with
  | nil => rfl
  | cons f rest ih => rw [listUnits, ih, List.flatMap_cons]

theorem optionUnits_eq (f : Option Fault) : optionUnits f = f.toList.flatMap units := by
  cases f <;> simp [optionUnits]

theorem units_of_parts? {f : Fault} {parts : List Fault} (h : f.parts? = some parts) :
    f.units = parts.flatMap units := by
  cases f with
  | joined => cases h; rw [units, listUnits_eq]
  | paired =>
    cases h
    rw [units, optionUnits_eq, optionUnits_eq, List.flatMap_append]
  | _ => cases h

theorem units_of_parts?_eq_none {f : Fault} (h : f.parts? = none) : f.units = [f] := by
  cases f with
  | joined => cases h
  | paired => cases h
  | _ => rfl

/-- Taking a fault apart loses no diagnostic. -/
theorem outermost_eq_units (f : Fault) : f.outermost = f.units.flatMap outermost := by
  induction f using induction with
  | collection f parts h ih =>
    rw [outermost_of_parts? h, units_of_parts? h, List.flatMap_assoc]
    exact List.flatMap_congr ih
  | _ => rw [units_of_parts?_eq_none rfl, List.flatMap_singleton]

/-- A unit that holds several diagnostics has a text in front of them. -/
theorem length_outermost_le {u : Fault} (hparts : u.parts? = none)
    (htext : ∀ text inner, u ≠ .wrapped text inner) : u.outermost.length ≤ 1 := by
  cases u with
  | wrapped text inner => exact absurd rfl (htext text inner)
  | joined => cases hparts
  | paired => cases hparts
  | _ => simp [outermost, diagnostic?]

theorem parts?_of_mem_units {f u : Fault} (hu : u ∈ f.units) : u.parts? = none := by
  induction f using induction with
  | collection f parts h ih =>
    rw [units_of_parts? h] at hu
    obtain ⟨g, hg, hu⟩ := List.mem_flatMap.mp hu
    exact ih g hg hu
  | _ =>
    rw [units_of_parts?_eq_none rfl] at hu
    rw [List.mem_singleton.mp hu]
    rfl

/-- The line for a unit: its first diagnostic, or its text if it holds none. -/
def entry (u : Fault) : String :=
  match u.firstDiagnostic? with
  | some d => d.text
  | none => u.message

end Fault

namespace Reporter

theorem reportSingle_eq (r : Reporter) (u : Fault) : r.reportSingle u = r.writeError u.entry := by
  unfold reportSingle Fault.entry
  cases u.firstDiagnostic? <;> rfl

theorem reportFaults_eq_foldl (r : Reporter) (fs : List Fault) :
    r.reportFaults fs = fs.foldl reportFault r := by
  induction fs generalizing r with
  | nil => rfl
  | cons f rest ih => rw [reportFaults, ih, List.foldl_cons]

theorem reportFault_of_parts? {f : Fault} {parts : List Fault} (h : f.parts? = some parts)
    (r : Reporter) : r.reportFault f = parts.foldl reportFault r := by
  cases f with
  | joined => cases h; rw [reportFault, reportFaults_eq_foldl]
  | paired _ first second =>
    cases h
    rw [reportFault, List.foldl_append]
    cases first <;> cases second <;> simp [reportOption]
  | _ => cases h

theorem reportFault_of_parts?_eq_none {f : Fault} (h : f.parts? = none) (r : Reporter) :
    r.reportFault f = r.writeError f.entry := by
  rw [← reportSingle_eq]
  cases f with
  | joined => cases h
  | paired => cases h
  | _ => rw [reportFault]

/-- **A fault is reported unit by unit**, each on a line. -/
theorem reportFault_eq_units (r : Reporter) (f : Fault) :
    r.reportFault f = (f.units.map Fault.entry).foldl writeError r := by
  induction f using Fault.induction generalizing r with
  | collection f parts h ih =>
    rw [reportFault_of_parts? h, Fault.units_of_parts? h, List.map_flatMap, List.foldl_flatMap]
    exact List.foldl_ext _ _ _ fun r g hg => ih g hg r
  | _ => rw [reportFault_of_parts?_eq_none rfl, Fault.units_of_parts?_eq_none rfl]; rfl

/-- Lines written one after another. -/
theorem foldl_writeError (r : Reporter) (lines : List String) :
    lines.foldl writeError r = ⟨r.output ++ linesText lines, r.hadError || !lines.isEmpty⟩ := by
  induction lines generalizing r with
  | nil => simp [linesText]
  | cons line rest ih => simp [ih, writeError, linesText, String.append_assoc]

end Reporter

/-! ### Diagnostics that are reported and diagnostics that are lost -/

namespace Fault

theorem filterMap_firstDiagnostic?_sublist (fs : List Fault) :
    (fs.filterMap firstDiagnostic?).Sublist (fs.flatMap outermost) := by
  induction fs with
  | nil => exact List.nil_sublist _
  | cons f rest ih =>
    rw [List.filterMap_cons, List.flatMap_cons, firstDiagnostic?_eq_head?]
    cases f.outermost with
    | nil => exact ih
    | cons d later => exact (ih.trans (List.sublist_append_right later _)).cons_cons d

/-- The first diagnostics of faults are all of them only if no fault holds a second one. -/
theorem filterMap_firstDiagnostic?_eq_iff (fs : List Fault) :
    fs.filterMap firstDiagnostic? = fs.flatMap outermost ↔ ∀ f ∈ fs, f.outermost.length ≤ 1 := by
  induction fs with
  | nil => simp
  | cons f rest ih =>
    rw [List.filterMap_cons, List.flatMap_cons, firstDiagnostic?_eq_head?, List.forall_mem_cons,
      ← ih]
    have hle := (filterMap_firstDiagnostic?_sublist rest).length_le
    match f.outermost with
    | [] => simp
    | [d] => simp
    | d :: d' :: later =>
      -- the first ones of the rest cannot make up for what is missing here
      refine iff_of_false (fun heq => ?_) fun h => absurd h.1 (by simp)
      have hlength := congrArg List.length heq
      simp only [List.head?_cons, List.length_cons, List.length_append] at hlength
      omega

theorem optionOutermost_eq_units (f : Option Fault) :
    optionOutermost f = (optionUnits f).flatMap outermost := by
  cases f with
  | none => rfl
  | some f => exact outermost_eq_units f

theorem parts?_of_mem_optionUnits {f : Option Fault} {u : Fault} (hu : u ∈ optionUnits f) :
    u.parts? = none := by
  cases f with
  | none => cases hu
  | some f => exact parts?_of_mem_units hu

/-- **What is reported of a fault, and when that is everything.** Each unit gets a line, with its
first diagnostic or with its text. The diagnostics that are reported are outermost ones in their
order; they are all of them if and only if no text stands in front of several. -/
theorem outermost_reported_iff (f : Option Fault) :
    (∀ r : Reporter, r.reportOption f = ⟨r.output ++ linesText ((optionUnits f).map entry),
      r.hadError || !(optionUnits f).isEmpty⟩)
    ∧ ((optionUnits f).filterMap firstDiagnostic?).Sublist (optionOutermost f)
    ∧ ((optionUnits f).filterMap firstDiagnostic? = optionOutermost f ↔
        ∀ text inner, wrapped text inner ∈ optionUnits f → inner.outermost.length ≤ 1) := by
  rw [optionOutermost_eq_units, filterMap_firstDiagnostic?_eq_iff]
  refine ⟨fun r => ?_, filterMap_firstDiagnostic?_sublist _, fun hall text inner hmem => ?_,
    fun hwrapped u hu => ?_⟩
  · cases f with
    | none => simp [Reporter.reportOption, optionUnits, linesText]
    | some f =>
      rw [Reporter.reportOption, Reporter.reportFault_eq_units, Reporter.foldl_writeError,
        List.isEmpty_map]
      rfl
  · have hle := hall _ hmem
    rwa [outermost] at hle
  · by_cases htext : ∃ text inner, u = .wrapped text inner
    · obtain ⟨text, inner, rfl⟩ := htext
      rw [outermost]
      exact hwrapped text inner hu
    · refine length_outermost_le (parts?_of_mem_optionUnits hu) fun text inner hu => ?_
      exact htext ⟨text, inner, hu⟩

/-- With a text in front of two joined errors, the second one is not reported. -/
theorem outermost_reported_lost :
    let first : ScanError := ⟨1, .unexpectedCharacter, "'@'"⟩
    let second : ScanError := ⟨2, .unterminatedString, ""⟩
    let f : Fault := .wrapped "while scanning" (.joined [.scan first, .scan second])
    f.outermost = [first.diagnostic, second.diagnostic]
      ∧ (Reporter.empty.reportFault f).output = Reporter.line first.diagnostic.text
      ∧ (Reporter.empty.reportFault f).output ≠ linesText (f.outermost.map Diagnostic.text) := by
  decide +kernel

/-! ### Reports that are the text of the fault -/

/-- **A fault that is reported by its text**: an error at a place, or a fault that holds none and is
no collection. -/
def Simple (f : Fault) : Prop :=
  f.diagnostic?.isSome = true ∨ f.outermost = [] ∧ f.parts? = none

section

variable {f : Fault} {d : Diagnostic}

theorem parts?_of_diagnostic? (h : f.diagnostic? = some d) : f.parts? = none := by
  cases f with
  | scan | parse | scanFrom | parseFrom => rfl
  | _ => cases h

theorem outermost_of_diagnostic? (h : f.diagnostic? = some d) : f.outermost = [d] := by
  cases f with
  | scan | parse | scanFrom | parseFrom => cases h; rfl
  | _ => cases h

theorem message_of_diagnostic? (h : f.diagnostic? = some d) : f.message = d.text := by
  cases f with
  | scan | parse | scanFrom | parseFrom => cases h; rw [message]
  | _ => cases h

theorem Simple.parts?_eq_none (h : f.Simple) : f.parts? = none := by
  rcases h with h | ⟨-, h⟩
  · obtain ⟨d, hd⟩ := Option.isSome_iff_exists.mp h
    exact parts?_of_diagnostic? hd
  · exact h

theorem Simple.entry_eq (h : f.Simple) : f.entry = f.message := by
  rw [entry, firstDiagnostic?_eq_head?]
  rcases h with h | ⟨h, -⟩
  · obtain ⟨d, hd⟩ := Option.isSome_iff_exists.mp h
    rw [outermost_of_diagnostic? hd, message_of_diagnostic? hd]
    rfl
  · rw [h]
    rfl

theorem Simple.outermost_ne_nil_iff (h : f.Simple) :
    f.outermost ≠ [] ↔ f.diagnostic?.isSome = true := by
  cases hd : f.diagnostic? with
  | some d => simp [outermost_of_diagnostic? hd]
  | none =>
    rw [Simple, hd] at h
    simpa using h.resolve_left nofun |>.1

end

theorem messages_eq (fs : List Fault) : messages fs = fs.map message := by
  induction fs with
  | nil => rfl
  | cons f rest ih => rw [messages, ih, List.map_cons]

end Fault

/-- Lines one after another are one text with line ends between them. -/
theorem linesText_eq_line {lines : List String} (hne : lines ≠ []) :
    linesText lines = Reporter.line ("\n".intercalate lines) := by
  induction lines with
  | nil => exact absurd rfl hne
  | cons line rest ih =>
    cases rest with
    | nil => simp [linesText]
    | cons next later =>
      have hstep : linesText (line :: next :: later)
          = Reporter.line line ++ linesText (next :: later) := by
        simp [linesText]
      rw [hstep, ih (List.cons_ne_nil next later), String.intercalate_cons_cons]
      simp only [Reporter.line, String.append_assoc]

theorem Fault.linesText_messages {fs : List Fault} (hne : fs ≠ []) :
    linesText (fs.map message) = Reporter.line (joined fs).message := by
  rw [linesText_eq_line (by simpa using hne), message, messages_eq]

namespace Reporter

theorem reportFault_of_simple {f : Fault} (h : f.Simple) (r : Reporter) :
    r.reportFault f = r.writeError f.message := by
  rw [reportFault_of_parts?_eq_none h.parts?_eq_none, h.entry_eq]

/-- **Joining keeps reports to the text**: if each part is reported by its text, so is the whole. -/
theorem reportFault_joined {fs : List Fault} (hne : fs ≠ [])
    (h : ∀ f ∈ fs, ∀ r : Reporter, r.reportFault f = r.writeError f.message) (r : Reporter) :
    r.reportFault (.joined fs) = r.writeError (Fault.joined fs).message := by
  rw [reportFault, reportFaults_eq h, Fault.linesText_messages hne, writeError]
  simp [hne]

end Reporter

end Lox
