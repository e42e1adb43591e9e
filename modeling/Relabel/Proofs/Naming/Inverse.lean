/-
**Renamings the other way round.**

If no name is given twice, then a renaming has an inverse: it gives each name back to the token that was
renamed. It also keeps the tokens that were kept, unless one of them is a name that was given to another.

* `Renaming.apply_mem_values`, `Renaming.apply_of_not_mem_keys`: what a renaming makes of a token.
* `Renaming.inverse`: names and tokens exchanged.
* `Renaming.get?_inverse`: what the inverse gives.
* `Renaming.apply_inverse_apply`: the inverse undoes the renaming.
-/

import Relabel.Proofs.Container.Lookup
import Relabel.Substitution.Stylesheet

namespace Relabel

namespace Renaming

/-- A token that is named gets one of the names. -/
theorem apply_mem_values {names : Renaming} {token : Text} (named : token ∈ names.keys) :
    names.apply token ∈ names.values := by
  obtain ⟨⟨token, name⟩, member, rfl⟩ := List.mem_map.mp named
  rw [apply, OrderedMap.get?_eq_some_iff.mpr member]
  exact List.mem_map.mpr ⟨_, member, rfl⟩

/-- A token that is not named is kept. -/
theorem apply_of_not_mem_keys {names : Renaming} {token : Text} (unnamed : token ∉ names.keys) :
    names.apply token = token := by
  cases found : names.get? token with
  | none => rw [apply, found, Option.getD_none]
  | some name =>
    exact absurd (List.mem_map.mpr ⟨_, OrderedMap.get?_eq_some_iff.mp found, rfl⟩) unnamed

/-- The renaming with tokens and names exchanged. -/
def inverse (names : Renaming) : Renaming :=
  OrderedMap.ofList (names.entries.map Prod.swap)

section Inverse

variable {names : Renaming} (distinct : names.values.Nodup)

include distinct

/-- The inverse gives each name back to its token, and nothing else. -/
theorem get?_inverse {token name : Text} :
    names.inverse.get? name = some token ↔ names.get? token = some name := by
  have keys : ((names.entries.map Prod.swap).map Prod.fst).Nodup := by
    rw [List.map_map]
    exact distinct
  rw [inverse, OrderedMap.get?_ofList keys, OrderedMap.get?_eq_some_iff, List.mem_map]
  constructor
  · rintro ⟨⟨token, name⟩, member, same⟩
    obtain ⟨rfl, rfl⟩ := Prod.mk.inj same
    exact member
  · intro member
    exact ⟨(token, name), member, rfl⟩

/-- **The inverse undoes the renaming** of a token that is no name given to another. -/
theorem apply_inverse_apply {token : Text} (fresh : token ∉ names.values) :
    names.inverse.apply (names.apply token) = token := by
  cases renamed : names.get? token with
  | none =>
    have kept : names.inverse.get? token = none := by
      by_contra given
      obtain ⟨other, given⟩ := Option.ne_none_iff_exists'.mp given
      have named := OrderedMap.get?_eq_some_iff.mp ((get?_inverse distinct).mp given)
      exact fresh (List.mem_map.mpr ⟨_, named, rfl⟩)
    simp [apply, renamed, kept]
  | some name =>
    have back := (get?_inverse distinct).mpr renamed
    simp [apply, renamed, back]

end Inverse

end Renaming

/-- The renamings of both kinds with tokens and names exchanged. -/
def Renamings.inverse (names : Renamings) : Renamings :=
  ⟨names.classes.inverse, names.ids.inverse⟩

@[simp]
theorem Renamings.ofKind_inverse (names : Renamings) (kind : Kind) :
    names.inverse.ofKind kind = (names.ofKind kind).inverse := by
  cases kind <;> rfl

end Relabel
