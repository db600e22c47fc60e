import Lox.Fault.Cause

/-!
# Faults

A fault is whatever a step of the program can fail with: one error, several errors found in one
pass, or a fault put into the context of a caller. Several errors are kept one by one, so that each
can be reported on its own.

* `Fault`: the tree of errors.
* `Fault.message`: its text.
* `Fault.causes`, `Fault.firstDiagnostic?`, `Fault.isStatic`: what a search of the whole tree finds.
* `Fault.parts?`: the faults it is a collection of, if it is one.
* `Fault.join`: the collection of those faults that are there.
-/

namespace Lox

/-- **A tree of errors.** -/
inductive Fault where
  /-- An error in the source text. -/
  | scan (e : ScanError)
  /-- An error among the tokens. -/
  | parse (e : ParseError)
  /-- A cause without a place. -/
  | plain (c : Cause)
  /-- A token stood as an operator and has none: an internal error. -/
  | noOperator (kind : TokenKind)
  /-- An error in the source text whose cause is a fault of its own, of which the text is shown. -/
  | scanFrom (line : Int) (cause : Fault) (details : String)
  /-- An error among the tokens whose cause is a fault of its own, of which the text is shown. -/
  | parseFrom (token : Token) (cause : Fault)
  /-- Several faults, one after another. -/
  | joined (parts : List Fault)
  /-- A fault with a text in front. -/
  | wrapped (text : String) (inner : Fault)
  /-- Two faults, each of which may be absent, with a text in front. -/
  | paired (text : String) (first second : Option Fault)
  deriving Inhabited

namespace Fault

/-- Stands in a message for a fault that is absent. -/
def absentText : String := "%!w(<nil>)"

mutual

/-- **The text of a fault.** Joined faults stand on lines of their own. -/
def message : Fault → String
  | scan e => e.diagnostic.text
  | parse e => e.diagnostic.text
  | plain c => c.message
  | noOperator kind => Cause.internal.message ++ ": no operator for token " ++ kind.name
  | scanFrom line cause details =>
    (ScanError.mk line (.other (message cause)) details).diagnostic.text
  | parseFrom token cause => (ParseError.mk token (.other (message cause))).diagnostic.text
  | joined parts => "\n".intercalate (messages parts)
  | wrapped text inner => text ++ ": " ++ message inner
  | paired text first second => text ++ ": " ++ optionMessage first ++ ", " ++ optionMessage second

/-- The texts of several faults. -/
def messages : List Fault → List String
  | [] => []
  | f :: rest => message f :: messages rest

/-- The text of a fault that may be absent. -/
def optionMessage : Option Fault → String
  | none => absentText
  | some f => message f

end

mutual

/-- **All causes in a fault**, from left to right. -/
def causes : Fault → List Cause
  | scan e => [e.cause]
  | parse e => [e.cause]
  | plain c => [c]
  | noOperator _ => [.internal]
  | scanFrom _ cause _ => causes cause
  | parseFrom _ cause => causes cause
  | joined parts => listCauses parts
  | wrapped _ inner => causes inner
  | paired _ first second => optionCauses first ++ optionCauses second

/-- All causes in several faults. -/
def listCauses : List Fault → List Cause
  | [] => []
  | f :: rest => causes f ++ listCauses rest

/-- All causes in a fault that may be absent. -/
def optionCauses : Option Fault → List Cause
  | none => []
  | some f => causes f

end

/-- The fault holds the cause somewhere. -/
def hasCause (f : Fault) (c : Cause) : Bool :=
  f.causes.contains c

mutual

/-- **The first diagnostic of a fault**, searching depth first from left to right. -/
def firstDiagnostic? : Fault → Option Diagnostic
  | scan e => some e.diagnostic
  | parse e => some e.diagnostic
  | plain _ => none
  | noOperator _ => none
  | scanFrom line cause details =>
    some (ScanError.mk line (.other cause.message) details).diagnostic
  | parseFrom token cause => some (ParseError.mk token (.other cause.message)).diagnostic
  | joined parts => listDiagnostic? parts
  | wrapped _ inner => firstDiagnostic? inner
  | paired _ first second => (optionDiagnostic? first).or (optionDiagnostic? second)

/-- The first diagnostic of several faults. -/
def listDiagnostic? : List Fault → Option Diagnostic
  | [] => none
  | f :: rest => (firstDiagnostic? f).or (listDiagnostic? rest)

/-- The first diagnostic of a fault that may be absent. -/
def optionDiagnostic? : Option Fault → Option Diagnostic
  | none => none
  | some f => firstDiagnostic? f

end

mutual

/-- **The fault lies in the user's text**: somewhere in it is an error of the source text or of the
tokens, as opposed to a failure of the program or of a file. -/
def isStatic : Fault → Bool
  | scan _ => true
  | parse _ => true
  | plain _ => false
  | noOperator _ => false
  | scanFrom .. => true
  | parseFrom .. => true
  | joined parts => anyStatic parts
  | wrapped _ inner => isStatic inner
  | paired _ first second => optionStatic first || optionStatic second

/-- One of several faults lies in the user's text. -/
def anyStatic : List Fault → Bool
  | [] => false
  | f :: rest => isStatic f || anyStatic rest

/-- There is a fault, and it lies in the user's text. -/
def optionStatic : Option Fault → Bool
  | none => false
  | some f => isStatic f

end

/-- **The faults that this one collects**, `none` for a fault that is no collection. -/
def parts? : Fault → Option (List Fault)
  | joined parts => some parts
  | paired _ first second => some (first.toList ++ second.toList)
  | _ => none

/-- **The collection of the faults that are there**; with none there is no fault. -/
def join (faults : List (Option Fault)) : Option Fault :=
  match faults.filterMap id with
  | [] => none
  | parts => some (joined parts)

theorem join_map_some (fs : List Fault) :
    join (fs.map some) = if fs = [] then none else some (joined fs) := by
  unfold join
  rw [List.filterMap_map]
  simp only [Function.comp_def, id, List.filterMap_some]
  cases fs <;> rfl

/-- A text in front of a fault. In front of an absent one it is a fault of its own that says so. -/
def wrap (text : String) : Option Fault → Fault
  | some inner => wrapped text inner
  | none => plain (.other (text ++ ": " ++ absentText))

end Fault

end Lox
