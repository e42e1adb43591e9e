/-
**Edits that lie within others.**

Two edits of a list may be apart, or one of them may lie within the other and begin behind its start.
Then applying the list skips exactly the edits that lie within another one: such an edit comes after the
one around it, and begins before the end of it.

* `Text.Edit.Fits`: an edit that replaces a part of a text.
* `Text.exists_script`: edits in order are those of a script.
* `Text.applyFrom_filter`: an edit that lies within another one is skipped.
* `Text.applyEdits_of_nested`: the outermost edits are applied, and no others.
-/

import Relabel.Proofs.Text.Script

namespace Relabel.Text

/-! ### Ranges -/

/-- If a text is split at two byte offsets, then there is text between them. -/
theorem exists_between_of_byteLength {x x' y y' : Text} (same : x ++ y = x' ++ y')
    (order : byteLength x ≤ byteLength x') : ∃ r, x' = x ++ r ∧ y = r ++ y' := by
  rcases List.append_eq_append_iff.mp same with parts | ⟨r, rfl, behind⟩
  · exact parts
  · have empty : r = [] := by
      by_contra nonempty
      have positive := byteLength_pos nonempty
      rw [byteLength_append] at order
      omega
    subst empty
    exact ⟨[], by simp, by simpa using behind.symm⟩

namespace Edit

/-- One edit lies in the other and begins behind its start. -/
def Within (inner outer : Edit) : Prop :=
  outer.start < inner.start ∧ inner.stop ≤ outer.stop

instance (inner outer : Edit) : Decidable (inner.Within outer) :=
  inferInstanceAs (Decidable (_ ∧ _))

theorem Within.trans {first second third : Edit} (inner : first.Within second) (outer : second.Within third) :
    first.Within third :=
  ⟨outer.1.trans inner.1, inner.2.trans outer.2⟩

/-- Edits that come one before the other are not one within the other. -/
theorem Within.not_before {inner outer : Edit} (within : inner.Within outer) (solid : inner.start < inner.stop) :
    ¬ (inner.Before outer ∨ outer.Before inner) := by
  obtain ⟨begins, ends⟩ := within
  rintro (before | behind)
  · exact absurd before.2 (Nat.not_lt.mpr begins.le)
  · exact absurd (ends.trans behind.1) (Nat.not_le.mpr solid)

/-- Two edits are apart, or one of them lies within the other. -/
def Nested (first second : Edit) : Prop :=
  (first.Before second ∨ second.Before first) ∨ first.Within second ∨ second.Within first

theorem Nested.symm {first second : Edit} (nested : first.Nested second) : second.Nested first :=
  nested.imp Or.symm Or.symm

/-- An edit replaces a part of a text that is not empty. -/
def Fits (edit : Edit) (text : Text) : Prop :=
  ∃ before part behind, text = before ++ part ++ behind ∧ part ≠ [] ∧ edit.start = byteLength before
    ∧ edit.stop = byteLength before + byteLength part

theorem Fits.bounds {edit : Edit} {text : Text} (fits : edit.Fits text) :
    edit.start < edit.stop ∧ edit.stop ≤ byteLength text := by
  obtain ⟨before, part, behind, rfl, nonempty, start, stop⟩ := fits
  have positive := byteLength_pos nonempty
  simp only [byteLength_append]
  omega

end Edit

/-! ### Edits in order -/

/-- **Edits in order are those of a script.** The induction is on the edits; `front` is the text up to the
end of the last one. -/
theorem exists_script_behind {whole : Text} {edits : List Edit} (fits : ∀ edit ∈ edits, edit.Fits whole)
    (inOrder : edits.Pairwise Edit.Before) {front text : Text} (parts : whole = front ++ text)
    (later : ∀ edit ∈ edits, byteLength front ≤ edit.start) :
    ∃ script : Script, script.old = text ∧ script.editsFrom (byteLength front) = edits := by
  induction edits generalizing front text with
  | nil => exact ⟨[⟨text, none⟩], by simp [Script.old], by simp [Script.editsFrom]⟩
  | cons edit edits ih =>
    obtain ⟨before, part, behind, split, _, start, stop⟩ := fits edit List.mem_cons_self
    obtain ⟨first, rest⟩ := List.pairwise_cons.mp inOrder
    have here := later edit List.mem_cons_self
    rw [start] at here
    obtain ⟨gap, rfl, rfl⟩ : ∃ gap, before = front ++ gap ∧ text = gap ++ (part ++ behind) :=
      exists_between_of_byteLength (parts.symm.trans (by simpa using split)) here
    obtain ⟨script, old, scripted⟩ := ih (fun other member => fits other (List.mem_cons_of_mem edit member))
      rest split fun other member => by
        have meets := (first other member).1
        rwa [stop, ← byteLength_append] at meets
    refine ⟨⟨gap, none⟩ :: ⟨part, some edit.text⟩ :: script, by simp [old], ?_⟩
    rw [byteLength_append, ← stop] at scripted
    rw [byteLength_append] at start stop
    simp only [Script.editsFrom, Option.map_none, Option.toList_none, List.nil_append, Option.map_some,
      Option.toList_some, List.singleton_append]
    rw [← stop, ← start, scripted]

theorem exists_script {text : Text} {edits : List Edit} (fits : ∀ edit ∈ edits, edit.Fits text)
    (inOrder : edits.Pairwise Edit.Before) :
    ∃ script : Script, script.old = text ∧ script.edits = edits :=
  exists_script_behind fits inOrder (List.nil_append text).symm fun _ _ => Nat.zero_le _

/-- Of edits in order, none lies within another one. -/
theorem not_within_of_before {edits : List Edit} (inOrder : edits.Pairwise Edit.Before) {inner outer : Edit}
    (inEdits : inner ∈ edits) (inEdits' : outer ∈ edits) (solid : inner.start < inner.stop) :
    ¬ inner.Within outer := by
  intro within
  have apart : edits.Pairwise fun first second => first.Before second ∨ second.Before first := inOrder.imp Or.inl
  have : Std.Symm fun first second : Edit => first.Before second ∨ second.Before first := ⟨fun _ _ => Or.symm⟩
  have different : inner ≠ outer := by
    rintro rfl
    exact lt_irrefl _ within.1
  exact within.not_before solid (apart.forall inEdits inEdits' different)

/-! ### Skipped edits -/

/-- The edits of a list that lie within no other one. -/
def outermost (edits : List Edit) : List Edit :=
  edits.filter fun edit => ∀ outer ∈ edits, ¬ edit.Within outer

theorem mem_outermost {edits : List Edit} {edit : Edit} :
    edit ∈ outermost edits ↔ edit ∈ edits ∧ ∀ outer ∈ edits, ¬ edit.Within outer := by
  simp [outermost]

/-- An edit that lies within another one lies within an outermost one. -/
theorem exists_outermost {edits : List Edit} {edit outer : Edit} (member : outer ∈ edits)
    (within : edit.Within outer) : ∃ other ∈ outermost edits, edit.Within other := by
  induction start : outer.start using Nat.strong_induction_on generalizing outer with
  | _ n ih =>
    by_cases inner : ∃ around ∈ edits, outer.Within around
    · obtain ⟨around, inEdits, deeper⟩ := inner
      exact ih around.start (start ▸ deeper.1) inEdits (within.trans deeper) rfl
    · refine ⟨outer, mem_outermost.mpr ⟨member, fun around inEdits deeper => ?_⟩, within⟩
      exact inner ⟨around, inEdits, deeper⟩

/-- **An edit that lies within another one is skipped.** The induction is on the edits in order: those to be
applied begin behind the cursor, and each of the others begins before it or lies within one that is still
to be applied. -/
theorem applyFrom_filter {keep : Edit → Bool} {whole : Text} {size cursor : Nat} {edits : List Edit}
    (inOrder : edits.Pairwise fun first second => first.start ≤ second.start)
    (solid : ∀ edit ∈ edits, edit.start < edit.stop)
    (apart : (edits.filter keep).Pairwise Edit.Before)
    (ahead : ∀ edit ∈ edits.filter keep, cursor ≤ edit.start ∧ edit.stop ≤ size)
    (covered : ∀ edit ∈ edits, keep edit = false →
      edit.start < cursor ∨ ∃ outer ∈ edits.filter keep, edit.Within outer) (rest : Text) :
    applyFrom whole size cursor rest edits = applyFrom whole size cursor rest (edits.filter keep) := by
  induction edits generalizing cursor rest with
  | nil => rfl
  | cons edit edits ih =>
    obtain ⟨first, inOrderRest⟩ := List.pairwise_cons.mp inOrder
    have solidRest : ∀ other ∈ edits, other.start < other.stop :=
      fun other member => solid other (List.mem_cons_of_mem edit member)
    by_cases kept : keep edit = true
    · rw [List.filter_cons_of_pos kept] at apart ahead covered ⊢
      obtain ⟨begins, ends⟩ := ahead edit List.mem_cons_self
      obtain ⟨meets, apartRest⟩ := List.pairwise_cons.mp apart
      have later : ∀ rest, applyFrom whole size edit.stop rest edits
          = applyFrom whole size edit.stop rest (edits.filter keep) := by
        refine ih inOrderRest solidRest apartRest (fun other member => ?_) fun other member dropped => ?_
        · exact ⟨(meets other member).1, (ahead other (List.mem_cons_of_mem edit member)).2⟩
        · have nonempty := solidRest other member
          have behind := first other member
          rcases covered other (List.mem_cons_of_mem edit member) dropped with passed | ⟨outer, inKept, within⟩
          · omega
          · rcases List.mem_cons.mp inKept with rfl | further
            · exact Or.inl (nonempty.trans_le within.2)
            · exact Or.inr ⟨outer, further, within⟩
      have taken : ¬ (edit.start < cursor || size < edit.stop) = true := by
        simpa using And.intro begins ends
      simp only [applyFrom, later, if_neg taken]
    · rw [List.filter_cons_of_neg kept] at apart ahead covered ⊢
      have passed : edit.start < cursor := by
        rcases covered edit List.mem_cons_self (by simpa using kept) with passed | ⟨outer, inKept, within⟩
        · exact passed
        · have behind := first outer (List.mem_of_mem_filter inKept)
          exact absurd within.1 (Nat.not_lt.mpr behind)
      rw [applyFrom, if_pos (by simp [passed])]
      exact ih inOrderRest solidRest apart ahead
        (fun other member => covered other (List.mem_cons_of_mem edit member)) rest

/-- **Applying edits of which some lie within others** applies the outermost ones, and no others. -/
theorem applyEdits_of_nested {text : Text} {edits : List Edit} (fits : ∀ edit ∈ edits, edit.Fits text)
    (nested : edits.Pairwise Edit.Nested) :
    ∃ script : Script, script.old = text ∧ applyEdits text edits = some script.new
      ∧ ∀ edit, edit ∈ script.edits ↔ edit ∈ outermost edits := by
  let keep : Edit → Bool := fun edit => ∀ outer ∈ edits, ¬ edit.Within outer
  let sorted := edits.mergeSort fun first second => first.start ≤ second.start
  have perm : sorted.Perm edits := List.mergeSort_perm edits _
  have inOrder : sorted.Pairwise fun first second => first.start ≤ second.start := inOrder_mergeSort edits
  have members : ∀ edit, edit ∈ sorted.filter keep ↔ edit ∈ outermost edits := by
    intro edit
    exact (perm.filter keep).mem_iff
  -- Of two outermost edits that are nested, the first in order comes before the second.
  have apart : (sorted.filter keep).Pairwise Edit.Before := by
    have related := inOrder.and (perm.symm.pairwise nested fun nested => nested.symm)
    refine (related.filter keep).imp_of_mem fun inFirst inSecond both => ?_
    obtain ⟨memberFirst, outerFirst⟩ := mem_outermost.mp ((members _).mp inFirst)
    obtain ⟨memberSecond, outerSecond⟩ := mem_outermost.mp ((members _).mp inSecond)
    rcases both.2 with (before | behind) | inner | inner
    · exact before
    · exact absurd behind.2 (Nat.not_lt.mpr both.1)
    · exact absurd inner (outerFirst _ memberSecond)
    · exact absurd inner (outerSecond _ memberFirst)
  have fitsSorted : ∀ edit ∈ sorted, edit.Fits text := fun edit member => fits edit (perm.mem_iff.mp member)
  obtain ⟨script, old, scripted⟩ :=
    exists_script (fun edit member => fitsSorted edit (List.mem_of_mem_filter member)) apart
  refine ⟨script, old, ?_, fun edit => by rw [scripted, members]⟩
  have skipped : applyFrom text (byteLength text) 0 text sorted
      = applyFrom text (byteLength text) 0 text (sorted.filter keep) := by
    refine applyFrom_filter inOrder (fun edit member => (fitsSorted edit member).bounds.1) apart
      (fun edit member => ⟨Nat.zero_le _, (fitsSorted edit (List.mem_of_mem_filter member)).bounds.2⟩)
      (fun edit _ dropped => ?_) text
    obtain ⟨outer, member, within⟩ : ∃ outer ∈ edits, edit.Within outer := by
      simpa [keep] using dropped
    obtain ⟨other, isOutermost, inner⟩ := exists_outermost member within
    exact Or.inr ⟨other, (members other).mpr isOutermost, inner⟩
  have applied := applyFrom_of_script script.old [] (byteLength script.old) 0 script (by simp)
  rw [applyEdits]
  refine skipped.trans ?_
  rw [← scripted]
  simpa [old, Script.edits] using applied

end Relabel.Text
