/-
**References that name nothing.**

The names of a run are no tokens of the documents. Tokens are read from attributes and selectors only, not
from references, so a name may be the target of a reference that named no id. Such a reference names
the renamed element afterwards.

* `Unheld`: no id has a given name, and only references that name no id refer to it.
* `processPair_idsUnheld`: the names of a run are so.
* `processPair_danglingTarget`: they may be the targets of such references.
-/

import Relabel.Proofs.Run.Tokens
import Relabel.Proofs.Substitution.Occurrences

namespace Relabel

/-! ### Names -/

/-- No id of a pair has the given name, and only references that name no id refer to it. -/
structure Unheld (pair : Pair) (name : Text) : Prop where
  unborne : name ∉ (idAttributes.cut pair.html).values
  unselected : ¬ Selects pair.css .id name
  unstyled : ∀ body ∈ (styleBodies.cut pair.html).values, ¬ Selects body .id name
  dangling : ∀ reference ∈ occurrences pair.html, reference.target = name →
    reference.surface ≠ .id
      ∧ ∀ id ∈ occurrences pair.html, id.surface = .id → id.target ≠ reference.target

/-- A name that is no token of a pair is held by no id of it. -/
theorem unheld_of_notMem {pair : Pair} {name : Text} (solid : isBlankToken name = false)
    (unused : name ∉ (pair.tokens.ofKind .id).toList) : Unheld pair name := by
  have unborne : name ∉ (idAttributes.cut pair.html).values := fun member =>
    unused (Inventory.mem_ofTexts.mpr (Or.inr (Or.inr ⟨member, solid⟩)))
  have notId : ∀ id ∈ occurrences pair.html, id.surface = .id → id.target ≠ name := by
    rintro ⟨s, target⟩ member rfl rfl
    obtain ⟨value, inValues, isTarget⟩ := mem_occurrences.mp member
    obtain rfl := List.mem_singleton.mp isTarget
    exact unborne inValues
  refine ⟨unborne, fun selects => ?_, fun body member selects => ?_, ?_⟩
  · exact unused (Inventory.mem_ofTexts.mpr (Or.inl selects))
  · exact unused (Inventory.mem_ofTexts.mpr (Or.inr (Or.inl ⟨body, member, selects⟩)))
  · rintro reference member rfl
    exact ⟨fun isId => notId reference member isId rfl, notId⟩

/-- **No id has a name that a run gives to another.** A reference to such a name named no id. -/
theorem processPair_idsUnheld [InternationalNames] {options : Options} {pair : Pair} {outcome : Outcome}
    (ran : processPair options pair = .ok outcome) :
    ∀ name ∈ outcome.names.ids.values, Unheld pair name := by
  obtain ⟨checked, rfl⟩ := processPair_eq_ok_iff.mp ran
  intro name member
  have exact : ExactNames .id options.mode (options.start .id) (pair.tokens.ofKind .id).toList
      (processed options pair).names.ids :=
    exactNames_nameTokens (isIdentifierStart_of_check checked .id) (pair.tokens.ofKind .id)
  have isName := isName_of_isIdentifierStart (isIdentifierStart_iff.mpr (exact.identifiers name member))
  exact unheld_of_notMem (not_blank_of_isName isName) (exact.fresh name member)

/-- A document with an id that is renamed and a link that names no id. -/
def danglingPair : Pair where
  html := "<p id='A123456789'></p><a href='#i001_51ff20'></a>"
  css := []

/-- The name of a renamed id, held by no id before. -/
theorem processPair_idsUnheld_link :
    ∃ outcome, processPair {} danglingPair = .ok outcome
      ∧ "i001_51ff20".toList ∈ outcome.names.ids.values
      ∧ Unheld danglingPair "i001_51ff20" := by
  have ran := processPair_eq_ok_iff.mpr ⟨rfl, rfl (a := processed {} danglingPair)⟩
  have given : "i001_51ff20".toList ∈ (processed {} danglingPair).names.ids.values := by
    decide +kernel
  exact ⟨_, ran, given, processPair_idsUnheld ran _ given⟩

/-- **A link that named no id may name a renamed one afterwards.** The name that the run gives is the
target of a link already. -/
theorem processPair_danglingTarget :
    ∃ outcome, processPair {} danglingPair = .ok outcome
      ∧ ∃ name ∈ outcome.names.ids.values,
          ⟨.fragment, name⟩ ∈ occurrences danglingPair.html
          ∧ (∀ id ∈ occurrences danglingPair.html, id.surface = .id → id.target ≠ name)
          ∧ ⟨.fragment, name⟩ ∈ occurrences outcome.pair.html
          ∧ ⟨.id, name⟩ ∈ occurrences outcome.pair.html :=
  ⟨processed {} danglingPair, processPair_eq_ok_iff.mpr ⟨rfl, rfl⟩, "i001_51ff20", by decide +kernel⟩

end Relabel
