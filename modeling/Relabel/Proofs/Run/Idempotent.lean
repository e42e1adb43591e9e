/-
**Strict runs are idempotent.**

The tokens of relabelled documents are generated names and tokens that were kept. Strict rules keep both,
so a second run with the same options names nothing, and a run that names nothing changes nothing.

* `kept_processed`: strict rules keep the tokens of relabelled documents.
* `processPair_strict_idempotent`: a second strict run changes nothing.
-/

import Relabel.Proofs.Run.Absent
import Relabel.Proofs.Run.Tokens
import Relabel.Proofs.Token.Generated

namespace Relabel

/-- **Strict rules keep the tokens of relabelled documents.** -/
theorem kept_processed [InternationalNames] {options : Options} {pair : Pair} (checked : options.check = .ok ())
    (strict : options.mode = .strict) (plain : Text.startsWith options.idStart layoutNodeStart = false)
    (separable : Separable pair.html) (kind : Kind) :
    ∀ token ∈ ((processed options pair).pair.tokens.ofKind kind).toList,
      (judge kind options.mode token).rename = false := by
  intro token member
  have giveNames := (starting_processed checked pair).giveNames
  have follow := tokensFollow_processed checked (separable.valuesFollow giveNames) kind
  obtain ⟨before, isToken, rfl⟩ := (follow.image token).mp member
  rw [names_ofKind_processed, Renaming.apply]
  cases named : (nameTokens kind options.mode (options.start kind)
      (pair.tokens.ofKind kind)).get? before with
  | none =>
    exact kept_of_get?_eq_none isToken named
  | some name =>
    obtain ⟨k, rfl, _, _⟩ := nameTokens_firstFree named
    rw [Option.getD_some, strict]
    exact judge_generated (isIdentifierStart_of_check checked kind) _ _ _ fun isId => isId ▸ plain

/-- **Strict runs are idempotent.** A second run with the same options on the documents of the first has
an outcome, which names nothing and leaves both documents as they are. -/
theorem processPair_strict_idempotent [InternationalNames] {options : Options} {pair : Pair}
    (checked : options.check = .ok ()) (strict : options.mode = .strict)
    (plain : Text.startsWith options.idStart layoutNodeStart = false)
    (separable : Separable pair.html) :
    ∃ first second, processPair options pair = .ok first ∧ processPair options first.pair = .ok second
      ∧ second.names.classes.isEmpty = true ∧ second.names.ids.isEmpty = true
      ∧ second.pair = first.pair := by
  obtain ⟨empty, same⟩ := processed_of_kept (kept_processed checked strict plain separable)
  obtain ⟨noClass, noId⟩ := Bool.and_eq_true_iff.mp empty
  exact ⟨processed options pair, processed options (processed options pair).pair,
    processPair_eq_ok_iff.mpr ⟨checked, rfl⟩, processPair_eq_ok_iff.mpr ⟨checked, rfl⟩,
    noClass, noId, same⟩

/-- A document whose id is a digest. -/
def digestPair : Pair where
  html := "<p id='00112233445566778899aabbccddeeff'></p>"
  css := []

/-- A digest is renamed by the first run and nothing by the second. -/
theorem processPair_strict_idempotent_digest :
    ∃ (options : Options) (pair : Pair) (first second : Outcome), options.mode = .strict
      ∧ Separable pair.html ∧ processPair options pair = .ok first
      ∧ processPair options first.pair = .ok second
      ∧ first.pair ≠ pair ∧ second.names.classes.isEmpty = true ∧ second.names.ids.isEmpty = true
      ∧ second.pair = first.pair := by
  have separable : Separable digestPair.html := by decide +kernel
  have usable : ({ mode := .strict } : Options).check = .ok () := rfl
  obtain ⟨first, second, ran, again, unchanged⟩ :=
    processPair_strict_idempotent usable rfl (by decide) separable
  refine ⟨_, _, first, second, rfl, separable, ran, again, ?_, unchanged⟩
  obtain ⟨_, rfl⟩ := processPair_eq_ok_iff.mp ran
  decide +kernel

end Relabel
