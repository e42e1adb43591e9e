/-
**Accepted edits.**

Applying edits goes through them in order of their starts and accepts an edit if it begins at or behind the end of
the last accepted one and does not end beyond the text. All others are skipped without a word.

* `Text.accepted`: the edits that are accepted.
* `Text.applyFrom_acceptedFrom`: only these matter.
* `Text.accepted_of_script`: the edits of a script are all accepted.
* `Text.AppliedInFull`: all edits are accepted, and the result is the text with all of them in place.
-/

import Relabel.Proofs.Text.Script

namespace Relabel.Text

/-- The edits that are accepted behind byte `cursor` of a text of `size` bytes. -/
def acceptedFrom (size cursor : Nat) : List Edit → List Edit
  | [] => []
  | edit :: edits =>
    if edit.start < cursor || size < edit.stop then acceptedFrom size cursor edits
    else edit :: acceptedFrom size edit.stop edits

/-- The edits of a text that are accepted, in order. -/
def accepted (text : Text) (edits : List Edit) : List Edit :=
  acceptedFrom (byteLength text) 0 (edits.mergeSort fun a b => a.start ≤ b.start)

theorem acceptedFrom_skip {size cursor : Nat} {edit : Edit} {edits : List Edit}
    (skipped : edit.start < cursor ∨ size < edit.stop) :
    acceptedFrom size cursor (edit :: edits) = acceptedFrom size cursor edits := by
  rw [acceptedFrom, if_pos (by simpa using skipped)]

theorem acceptedFrom_take {size cursor : Nat} {edit : Edit} {edits : List Edit}
    (begins : cursor ≤ edit.start) (ends : edit.stop ≤ size) :
    acceptedFrom size cursor (edit :: edits) = edit :: acceptedFrom size edit.stop edits := by
  rw [acceptedFrom, if_neg (by simpa using And.intro begins ends)]

/-- **Skipped edits do not matter.** -/
theorem applyFrom_acceptedFrom (whole : Text) (size cursor : Nat) (rest : Text) (edits : List Edit) :
    applyFrom whole size cursor rest (acceptedFrom size cursor edits)
      = applyFrom whole size cursor rest edits := by
  induction edits generalizing cursor rest with
  | nil => rfl
  | cons edit edits ih =>
    by_cases skipped : edit.start < cursor ∨ size < edit.stop
    · rw [acceptedFrom_skip skipped, ih, applyFrom, if_pos (by simpa using skipped)]
    · obtain ⟨begins, ends⟩ := not_or.mp skipped
      have taken : ¬ (edit.start < cursor || size < edit.stop) = true := by simpa using skipped
      rw [acceptedFrom_take (Nat.not_lt.mp begins) (Nat.not_lt.mp ends)]
      simp only [applyFrom, if_neg taken, ih]

/-- Skipped are an edit that begins within an accepted one and an edit that ends beyond the text. -/
example : acceptedFrom 6 0 [⟨0, 2, "w"⟩, ⟨2, 4, "x"⟩, ⟨3, 5, "y"⟩, ⟨4, 9, "z"⟩] = [⟨0, 2, "w"⟩, ⟨2, 4, "x"⟩] := by
  decide

/-- **The edits of a script are all accepted**: each begins where the last one ended, or behind that. -/
theorem acceptedFrom_editsFrom {size cursor offset : Nat} {script : Script} (behind : cursor ≤ offset)
    (enough : offset + byteLength script.old ≤ size) :
    acceptedFrom size cursor (script.editsFrom offset) = script.editsFrom offset := by
  induction script generalizing cursor offset with
  | nil => rfl
  | cons piece script ih =>
    rw [Script.old_cons, byteLength_append, ← Nat.add_assoc] at enough
    rcases piece with ⟨old, _ | new⟩
    · exact ih (behind.trans (Nat.le_add_right _ _)) enough
    · simp only [Script.editsFrom, Option.map_some, Option.toList_some, List.singleton_append]
      rw [acceptedFrom_take behind ((Nat.le_add_right _ _).trans enough), ih le_rfl enough]

theorem accepted_of_script {script : Script} (before : script.edits.Pairwise Edit.Before) :
    accepted script.old script.edits = script.edits := by
  rw [accepted, mergeSort_eq_of_perm (List.Perm.refl _) before]
  exact acceptedFrom_editsFrom le_rfl (by simp)

/-- Every edit is accepted, none is cut short or runs into a character, and the result is the text with each of them
in its place and with nothing else changed. -/
structure AppliedInFull (text : Text) (edits : List Edit) (result : Text) : Prop where
  all : accepted text edits = edits
  applied : applyEdits text edits = some result
  inPlace : ∃ script : Script, script.old = text ∧ script.edits = edits ∧ script.new = result

/-- **The edits of a script are applied in full.** -/
theorem Script.appliedInFull {script : Script} (before : script.edits.Pairwise Edit.Before) :
    AppliedInFull script.old script.edits script.new :=
  ⟨accepted_of_script before, applyEdits_of_perm (List.Perm.refl _) before, script, rfl, rfl, rfl⟩

end Relabel.Text
