/-
**Stylesheets can be restored.**

The selectors of a relabelled stylesheet stand where the old ones stood. As the names of a run are new and
no two of them alike, renaming with tokens and names exchanged gives back the old stylesheet, character
by character.

* `relabelStylesheet_inverse`: the inverse of a renaming restores a stylesheet.
* `processPair_stylesheetRestored`: the inverse of the names of a run restores its stylesheet.
-/

import Relabel.Proofs.Naming.Inverse
import Relabel.Proofs.Run.Tokens

namespace Relabel

/-- Replacing values and then undoing it gives back the text. -/
theorem Segments.substitute_replaced {segments : Segments} {replace undo : Segment → Option Text}
    (undone : ∀ segment ∈ segments.found,
      (undo (segment.replaced replace)).getD (segment.replaced replace).value = segment.value) :
    (segments.replaced replace).substitute undo = segments.text := by
  have both : (segments.replaced replace).substitute undo
      = segments.substitute fun segment =>
          some ((undo (segment.replaced replace)).getD (segment.replaced replace).value) := by
    show Segments.text ⟨(segments.found.map (·.replaced replace)).map (·.replaced undo), segments.rest⟩
      = _
    rw [List.map_map]
    rfl
  rw [both]
  exact Segments.substitute_eq_text undone

/-- **The inverse of a renaming restores a stylesheet**, if none of its selectors has a name that the
renaming gives. -/
theorem relabelStylesheet_inverse {names : Renamings} (starting : names.Starting)
    (distinct : ∀ kind, (names.ofKind kind).values.Nodup) {css : Text}
    (fresh : ∀ kind token, Selects css kind token → token ∉ (names.ofKind kind).values) :
    relabelStylesheet names.inverse (relabelStylesheet names css) = css := by
  rw [relabelStylesheet, selectors_cut_relabelStylesheet starting, Segments.substitute_replaced,
    Matcher.text_cut]
  intro selector member
  have unused := fresh selector.kind selector.value ⟨selector, member, rfl, rfl⟩
  rw [Renamings.ofKind_inverse]
  exact Renaming.apply_inverse_apply (distinct selector.kind) unused

/-- **The stylesheet of a run can be restored.** A run with options that can be used has an outcome, and
its names with tokens and names exchanged turn the new stylesheet back into the old one. -/
theorem processPair_stylesheetRestored [InternationalNames] {options : Options} (checked : options.check = .ok ())
    (pair : Pair) :
    ∃ outcome, processPair options pair = .ok outcome
      ∧ relabelStylesheet outcome.names.inverse outcome.pair.css = pair.css := by
  refine ⟨processed options pair, processPair_eq_ok_iff.mpr ⟨checked, rfl⟩, ?_⟩
  have exact : ∀ kind, ExactNames kind options.mode (options.start kind)
      (pair.tokens.ofKind kind).toList ((processed options pair).names.ofKind kind) := by
    intro kind
    rw [names_ofKind_processed]
    exact exactNames_nameTokens (isIdentifierStart_of_check checked kind) _
  refine relabelStylesheet_inverse
    (fun kind name member => isIdentifierStart_iff.mpr ((exact kind).identifiers name member))
    (fun kind => (exact kind).distinct) fun kind token selects given => ?_
  exact (exact kind).fresh token given (Inventory.mem_ofTexts.mpr (Or.inl selects))

/-- A class and an id are renamed and get back what they were called. -/
theorem processPair_stylesheetRestored_both :
    ∃ outcome, processPair {} ⟨[], ".A123456789 #B123456789{}".toList⟩ = .ok outcome
      ∧ outcome.pair.css ≠ ".A123456789 #B123456789{}".toList
      ∧ relabelStylesheet outcome.names.inverse outcome.pair.css
          = ".A123456789 #B123456789{}".toList := by
  have usable : ({} : Options).check = .ok () := rfl
  obtain ⟨outcome, ran, restored⟩ :=
    processPair_stylesheetRestored usable ⟨[], ".A123456789 #B123456789{}".toList⟩
  refine ⟨outcome, ran, ?_, restored⟩
  obtain ⟨_, rfl⟩ := processPair_eq_ok_iff.mp ran
  decide +kernel

end Relabel
