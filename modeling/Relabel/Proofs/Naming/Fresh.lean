/-
**The first free name.**

Names are given one after the other, and each given name is kept from the later tokens. This memory
never matters: the given names carry other ranks, so none of them is a variant of a later name. Each
token gets the first variant of its own name that is not reserved.

* `FirstFree`: a text is the first in a sequence of names that is not reserved.
* `firstUnused_firstFree`: the bounded search for an unused name finds it.
* `nameFrom_eq`: naming in turn is naming each token by itself.
-/

import Mathlib.Data.List.Perm.Subperm
import Relabel.Proofs.Naming.Numbering

namespace Relabel

/-! ### The search -/

/-- `found` is the first of `name 0`, `name 1`, … that is not reserved. -/
def FirstFree (reserved : List Text) (name : Nat → Text) (found : Text) : Prop :=
  ∃ k, found = name k ∧ name k ∉ reserved ∧ ∀ j < k, name j ∈ reserved

/-- There is at most one first free name. -/
theorem FirstFree.unique {reserved : List Text} {name : Nat → Text} {first second : Text}
    (isFirst : FirstFree reserved name first) (isSecond : FirstFree reserved name second) :
    first = second := by
  obtain ⟨j, rfl, jFree, jLeast⟩ := isFirst
  obtain ⟨k, rfl, kFree, kLeast⟩ := isSecond
  have notLess : ¬ j < k := fun less => jFree (kLeast j less)
  have notGreater : ¬ k < j := fun less => kFree (jLeast k less)
  rw [show j = k by omega]

/-- The first free name does not change if names are reserved that are not in the sequence. -/
theorem FirstFree.congr {reserved reserved' : List Text} {name : Nat → Text} {found : Text}
    (same : ∀ k, name k ∈ reserved ↔ name k ∈ reserved') (free : FirstFree reserved name found) :
    FirstFree reserved' name found := by
  obtain ⟨k, rfl, kFree, least⟩ := free
  exact ⟨k, rfl, fun member => kFree ((same k).mpr member), fun j less => (same j).mp (least j less)⟩

/-- Of so many different names, one more than there are used ones, some name is free. -/
theorem exists_unused (used : List Text) {name : Nat → Text} (injective : Function.Injective name) :
    ∃ k ≤ used.length, name k ∉ used := by
  by_contra allUsed
  simp only [not_exists, not_and, not_not] at allUsed
  have distinct : ((List.range (used.length + 1)).map name).Nodup :=
    List.nodup_range.map injective
  have inside : (List.range (used.length + 1)).map name ⊆ used := by
    intro text member
    obtain ⟨k, inRange, rfl⟩ := List.mem_map.mp member
    exact allUsed k (Nat.lt_succ_iff.mp (List.mem_range.mp inRange))
  have short := (List.Nodup.subperm distinct inside).length_le
  simp at short

/-- Where the names before `k` are used and one of those up to `k + tries` is not, the search from
`k` on finds the first free name. -/
theorem firstUnused_from {used : List Text} {name : Nat → Text} {k tries : Nat}
    (before : ∀ j < k, name j ∈ used) (free : ∃ j, k ≤ j ∧ j ≤ k + tries ∧ name j ∉ used) :
    FirstFree used name (firstUnused (used.contains ·) name k tries) := by
  induction tries generalizing k with
  | zero =>
    obtain ⟨j, lower, upper, unused⟩ := free
    obtain rfl : j = k := by omega
    exact ⟨j, rfl, unused, before⟩
  | succ tries ih =>
    unfold firstUnused
    by_cases taken : name k ∈ used
    · rw [if_pos (List.contains_iff_mem.mpr taken)]
      refine ih (fun j less => ?_) ?_
      · rcases Nat.lt_succ_iff_lt_or_eq.mp less with smaller | rfl
        · exact before j smaller
        · exact taken
      · obtain ⟨j, lower, upper, unused⟩ := free
        have different : j ≠ k := fun same => unused (same ▸ taken)
        exact ⟨j, by omega, by omega, unused⟩
    · rw [if_neg (fun contained => taken (List.contains_iff_mem.mp contained))]
      exact ⟨k, rfl, taken, before⟩

/-- The bounded search for an unused name finds the first one. -/
theorem firstUnused_firstFree {used : List Text} {name : Nat → Text}
    (injective : Function.Injective name) :
    FirstFree used name (firstUnused (used.contains ·) name 0 used.length) := by
  obtain ⟨k, bound, unused⟩ := exists_unused used injective
  exact firstUnused_from (by omega) ⟨k, Nat.zero_le k, by omega, unused⟩

/-! ### Naming in turn -/

/-- The name of the token of a given rank if no other token were named. -/
def freeName (start : Text) (reserved : List Text) (rank : Nat) (token : Text) : Text :=
  firstUnused (reserved.contains ·) (numberedName (baseName start rank token)) 0 reserved.length

theorem freeName_firstFree (start : Text) (reserved : List Text) (rank : Nat) (token : Text) :
    FirstFree reserved (numberedName (baseName start rank token))
      (freeName start reserved rank token) :=
  firstUnused_firstFree (numberedName_injective _)

/-- `used` consists of the reserved names and of variants of names of ranks below `rank`. -/
structure GivenBelow (start : Text) (reserved : List Text) (rank : Nat) (used : List Text) :
    Prop where
  keeps : ∀ name ∈ reserved, name ∈ used
  origin : ∀ name ∈ used, name ∈ reserved
    ∨ ∃ earlier token k, earlier < rank ∧ name = numberedName (baseName start earlier token) k

/-- A variant of the name of the next rank is used only if it is reserved. -/
theorem GivenBelow.mem_iff {start : Text} {reserved used : List Text} {rank : Nat}
    (given : GivenBelow start reserved rank used) (token : Text) (k : Nat) :
    numberedName (baseName start rank token) k ∈ used
      ↔ numberedName (baseName start rank token) k ∈ reserved := by
  refine ⟨fun member => ?_, given.keeps _⟩
  rcases given.origin _ member with isReserved | ⟨earlier, other, j, less, same⟩
  · exact isReserved
  · exact absurd same (numberedName_baseName_ne (by omega) k j)

/-- One step of naming: the name is that of the token by itself. -/
theorem GivenBelow.firstUnused_eq {start : Text} {reserved used : List Text} {rank : Nat}
    (given : GivenBelow start reserved rank used) (token : Text) :
    firstUnused (used.contains ·) (numberedName (baseName start rank token)) 0 used.length
      = freeName start reserved rank token :=
  FirstFree.unique (FirstFree.congr (given.mem_iff token)
    (firstUnused_firstFree (numberedName_injective _))) (freeName_firstFree start reserved rank token)

/-- One step of naming keeps the invariant. -/
theorem GivenBelow.give {start : Text} {reserved used : List Text} {rank : Nat}
    (given : GivenBelow start reserved rank used) (token : Text) :
    GivenBelow start reserved (rank + 1) (freeName start reserved rank token :: used) where
  keeps name member := List.mem_cons_of_mem _ (given.keeps name member)
  origin name member := by
    rcases List.mem_cons.mp member with rfl | old
    · obtain ⟨k, same, _, _⟩ := freeName_firstFree start reserved rank token
      exact Or.inr ⟨rank, token, k, Nat.lt_succ_self rank, same⟩
    · refine (given.origin name old).imp id ?_
      rintro ⟨earlier, other, k, less, same⟩
      exact ⟨earlier, other, k, Nat.lt_succ_of_lt less, same⟩

theorem nameFrom_eq_of_given {start : Text} {reserved used : List Text} {rank : Nat}
    (given : GivenBelow start reserved rank used) (tokens : List Text) :
    nameFrom start used rank tokens
      = (tokens.zipIdx rank).map fun (token, rank) =>
          (token, freeName start reserved rank token) := by
  induction tokens generalizing used rank with
  | nil => rfl
  | cons token tokens ih =>
    simp only [nameFrom, given.firstUnused_eq token, List.zipIdx_cons, List.map_cons]
    rw [ih (given.give token)]

/-- **Naming in turn is naming each token by itself.** -/
theorem nameFrom_eq (start : Text) (reserved : List Text) (tokens : List Text) :
    nameFrom start reserved 1 tokens
      = (tokens.zipIdx 1).map fun (token, rank) => (token, freeName start reserved rank token) :=
  nameFrom_eq_of_given ⟨fun _ member => member, fun _ member => Or.inl member⟩ tokens

end Relabel
