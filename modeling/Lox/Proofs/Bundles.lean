import Lox.Proofs.FaultTrees

/-!
# Faults joined over and over

Errors are collected by joining them, and collections are joined again. The text of the whole and
what the reporter writes about it come from different recursions over the tree, yet they agree: a
line for each leaf in order.

- `Bundle`, `Bundle.fault?`, `Bundle.leaves`: joinings of joinings, where a part may be absent.
- `Bundle.reportFault_of_fault?`, `Bundle.outermost_fault?`: what is reported of a bundle, and the
  diagnostics in it.
- `Bundle.reported_by_message`: the report is the text, and the leaves decide whether the whole lies
  in the user's text.
-/

namespace Lox

/-- **Faults joined over and over**: an absent fault, a single one, or bundles joined. -/
inductive Bundle where
  | absent
  | leaf (f : Fault)
  | join (parts : List Bundle)

namespace Bundle

theorem induction {motive : Bundle → Prop} (absent : motive .absent)
    (leaf : ∀ f, motive (.leaf f))
    (join : ∀ parts, (∀ b ∈ parts, motive b) → motive (.join parts)) (b : Bundle) : motive b :=
  @Bundle.rec motive (fun parts => ∀ b ∈ parts, motive b) absent leaf join
    (List.forall_mem_nil _) (fun _ _ hb hrest => List.forall_mem_cons.mpr ⟨hb, hrest⟩) b

mutual

/-- **The fault that a bundle comes to**, `none` if nothing is in it. -/
def fault? : Bundle → Option Fault
  | absent => none
  | leaf f => some f
  | join parts => Fault.join (faults? parts)

/-- What several bundles come to. -/
def faults? : List Bundle → List (Option Fault)
  | [] => []
  | b :: rest => fault? b :: faults? rest

end

mutual

/-- **The faults that a bundle was made of.** -/
def leaves : Bundle → List Fault
  | absent => []
  | leaf f => [f]
  | join parts => listLeaves parts

/-- The faults that several bundles were made of. -/
def listLeaves : List Bundle → List Fault
  | [] => []
  | b :: rest => leaves b ++ listLeaves rest

end

theorem faults?_eq (parts : List Bundle) : faults? parts = parts.map fault? := by
  induction parts with
  | nil => rfl
  | cons b rest ih => rw [faults?, ih, List.map_cons]

theorem listLeaves_eq (parts : List Bundle) : listLeaves parts = parts.flatMap leaves := by
  induction parts with
  | nil => rfl
  | cons b rest ih => rw [listLeaves, ih, List.flatMap_cons]

/-- A bundle of bundles comes to the faults that are there, unless there are none. -/
theorem fault?_join (parts : List Bundle) :
    (join parts).fault? = match parts.filterMap fault? with
      | [] => none
      | fs => some (.joined fs) := by
  rw [fault?, Fault.join, faults?_eq, List.filterMap_map]
  rfl

theorem exists_of_fault?_join {parts : List Bundle} {f : Fault} (h : (join parts).fault? = some f) :
    parts.filterMap fault? ≠ [] ∧ f = .joined (parts.filterMap fault?) := by
  rw [fault?_join] at h
  split at h
  · cases h
  · next hne => exact ⟨hne, (Option.some.inj h).symm⟩

theorem reportFault_of_fault? {b : Bundle} (hleaves : ∀ f ∈ b.leaves, f.Simple) {f : Fault}
    (hf : b.fault? = some f) (r : Reporter) : r.reportFault f = r.writeError f.message := by
  induction b using induction generalizing f r with
  | absent => cases hf
  | leaf g =>
    cases hf
    exact Reporter.reportFault_of_simple (hleaves g (List.mem_singleton_self g)) r
  | join parts ih =>
    obtain ⟨hne, rfl⟩ := exists_of_fault?_join hf
    refine Reporter.reportFault_joined hne (fun g hg r => ?_) r
    obtain ⟨b, hb, hg⟩ := List.mem_filterMap.mp hg
    refine ih b hb (fun g hg => hleaves g ?_) hg r
    rw [leaves, listLeaves_eq]
    exact List.mem_flatMap.mpr ⟨b, hb, hg⟩

/-- A bundle holds the diagnostics of its leaves. -/
theorem outermost_fault? (b : Bundle) :
    Fault.optionOutermost b.fault? = b.leaves.flatMap Fault.outermost := by
  induction b using induction with
  | absent => rfl
  | leaf f => simp [fault?, leaves, Fault.optionOutermost]
  | join parts ih =>
    have hparts : Fault.optionOutermost (join parts).fault?
        = (parts.filterMap fault?).flatMap Fault.outermost := by
      rw [fault?_join]
      split
      · next hnil => rw [hnil]; rfl
      · exact Fault.outermost_of_parts? rfl
    rw [hparts, leaves, listLeaves_eq, List.flatMap_assoc, ← List.flatMap_congr ih]
    simp only [Fault.optionOutermost_eq, List.filterMap_eq_flatMap_toList, List.flatMap_assoc]

/-- **A bundle is reported by its text.** Faults joined over and over, out of errors at places and
of faults that hold none and are no collections, are reported by the text of the whole on a line,
and the flag is set. The whole lies in the user's text exactly if a leaf is an error at a place. -/
theorem reported_by_message {b : Bundle} (hleaves : ∀ f ∈ b.leaves, f.Simple) {f : Fault}
    (hf : b.fault? = some f) :
    (∀ r : Reporter, r.reportFault f = ⟨r.output ++ (f.message ++ "\n"), true⟩)
    ∧ (f.isStatic = true ↔ ∃ g ∈ b.leaves, g.diagnostic?.isSome = true) := by
  refine ⟨fun r => reportFault_of_fault? hleaves hf r, ?_⟩
  have houtermost : f.outermost = b.leaves.flatMap Fault.outermost := by
    rw [← outermost_fault?, hf]
    rfl
  simp only [Fault.isStatic_iff_outermost, houtermost, Ne, List.flatMap_eq_nil_iff,
    Classical.not_forall, exists_prop]
  exact exists_congr fun g => and_congr_right fun hg => (hleaves g hg).outermost_ne_nil_iff

/-- Joined twice: a bad character and an empty cause, then an error whose cause is a fault of two
lines. -/
theorem reported_by_message_nested :
    let bad : Fault := .scan ⟨1, .unexpectedCharacter, "'@'"⟩
    let note : Fault := .wrapped "note" (.joined [.plain (.other ""), .plain .internal])
    let caused : Fault := .scanFrom 3 (.joined [bad, .plain (.other "b")]) ""
    let b : Bundle := .join [.absent, .join [.leaf bad, .leaf note], .join [.absent], .leaf caused]
    let f : Fault := .joined [.joined [bad, note], caused]
    b.fault? = some f ∧ (∀ g ∈ b.leaves, g.Simple) ∧ f.isStatic = true
      ∧ (Reporter.empty.reportFault f).output = "[line 1] Error: Unexpected character. '@'\n"
        ++ "note: \ninternal error\n[line 3] Error: [line 1] Error: Unexpected character. '@'\nb\n" := by
  intro bad note caused b f
  have hf : b.fault? = some f := rfl
  have hleaves : ∀ g ∈ b.leaves, g.Simple := by
    intro g hg
    obtain rfl | rfl | rfl : g = bad ∨ g = note ∨ g = caused := by
      simpa [b, leaves, listLeaves] using hg
    · exact .inl rfl
    · exact .inr ⟨rfl, rfl⟩
    · exact .inl rfl
  obtain ⟨hreport, hstatic⟩ := reported_by_message hleaves hf
  refine ⟨hf, hleaves, hstatic.mpr ⟨bad, List.mem_cons_self, rfl⟩, ?_⟩
  rw [hreport]
  decide +kernel

end Bundle

end Lox
