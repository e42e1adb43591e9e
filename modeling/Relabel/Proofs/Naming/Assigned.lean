/-
**The names of a set of tokens.**

The tokens to be renamed are ranked in the order of their bytes. The name of each of them is the first
free variant of the name of its rank, and the tokens of the whole set are what is reserved.

* `get?_nameTokens`: which tokens are named, and how.
* `nameTokens_injective`: different tokens have different names.
* `nameTokens_fresh`: no name is a token.
-/

import Relabel.Proofs.Naming.Fresh
import Relabel.Proofs.Text.ByteOrder

namespace Relabel

/-! ### Ranks -/

/-- The rank of a token among some tokens in the order of their bytes, from one on. -/
def byteRank (tokens : List Text) (token : Text) : Nat :=
  (tokens.filter fun other => Utf8.encode other < Utf8.encode token).length + 1

/-- In an increasing list, the rank of a token is its place. -/
theorem mem_zipIdx_sorted {tokens : List Text} (sorted : tokens.Pairwise (· < ·)) {token : Text}
    {first rank : Nat} :
    (token, rank) ∈ tokens.zipIdx first
      ↔ token ∈ tokens ∧ rank + 1 = byteRank tokens token + first := by
  induction tokens generalizing first with
  | nil => simp
  | cons head rest ih =>
    obtain ⟨below, restSorted⟩ := List.pairwise_cons.mp sorted
    have restRank : ∀ other ∈ rest, byteRank (head :: rest) other = byteRank rest other + 1 := by
      intro other member
      simp [byteRank, Utf8.encode_lt_encode_iff, below other member]
    have headRank : byteRank (head :: rest) head = 1 := by
      have noneBelow : ∀ other ∈ head :: rest, ¬ other < head := by
        intro other member less
        rcases List.mem_cons.mp member with rfl | inRest
        · exact List.lt_irrefl _ less
        · exact List.lt_irrefl _ (List.lt_trans less (below other inRest))
      rw [byteRank, List.filter_eq_nil_iff.mpr]
      · rfl
      · intro other member
        simpa [Utf8.encode_lt_encode_iff] using noneBelow other member
    rw [List.zipIdx_cons, List.mem_cons, ih restSorted, List.mem_cons]
    constructor
    · rintro (same | ⟨inRest, place⟩)
      · obtain ⟨rfl, rfl⟩ := Prod.mk.inj same
        exact ⟨Or.inl rfl, by omega⟩
      · exact ⟨Or.inr inRest, by rw [restRank token inRest]; omega⟩
    · rintro ⟨rfl | inRest, place⟩
      · exact Or.inl (Prod.ext rfl (by simp only; omega))
      · rw [restRank token inRest] at place
        exact Or.inr ⟨inRest, by omega⟩

/-- Different tokens have different ranks. -/
theorem byteRank_injOn {tokens : List Text} (sorted : tokens.Pairwise (· < ·)) {first second : Text}
    (inFirst : first ∈ tokens) (inSecond : second ∈ tokens)
    (same : byteRank tokens first = byteRank tokens second) : first = second := by
  have place : (first, byteRank tokens first) ∈ tokens.zipIdx 1 :=
    (mem_zipIdx_sorted sorted).mpr ⟨inFirst, rfl⟩
  have place' : (second, byteRank tokens first) ∈ tokens.zipIdx 1 :=
    (mem_zipIdx_sorted sorted).mpr ⟨inSecond, by rw [same]⟩
  rw [List.mk_mem_zipIdx_iff_le_and_getElem?_sub] at place place'
  exact Option.some.inj (place.2.symm.trans place'.2)

/-! ### The names -/

section Names

variable {kind : Kind} {mode : Mode} {start : Text} {tokens : TextSet}

/-- The tokens to be renamed are in order. -/
theorem sorted_selectTokens : (selectTokens kind mode tokens).Pairwise (· < ·) :=
  (TextSet.sorted_toList tokens).filter _

theorem mem_selectTokens {token : Text} :
    token ∈ selectTokens kind mode tokens
      ↔ token ∈ tokens.toList ∧ (judge kind mode token).rename = true :=
  List.mem_filter

/-- The entries of the names of a set of tokens. -/
theorem entries_nameTokens :
    (nameTokens kind mode start tokens).entries
      = ((selectTokens kind mode tokens).zipIdx 1).map fun (token, rank) =>
          (token, freeName start tokens.toList rank token) := by
  have listed : (TextSet.ofTexts (selectTokens kind mode tokens)).toList
      = selectTokens kind mode tokens := TextSet.toList_ofTexts sorted_selectTokens
  have keysSorted :
      (((selectTokens kind mode tokens).zipIdx 1).map Prod.fst).Pairwise (· < ·) := by
    rw [List.zipIdx_map_fst]
    exact sorted_selectTokens
  rw [nameTokens, generateNames, listed, nameFrom_eq]
  exact OrderedMap.entries_ofList (List.pairwise_map.mpr (List.pairwise_map.mp keysSorted))

/-- **Which tokens are named, and how.** -/
theorem get?_nameTokens {token name : Text} :
    (nameTokens kind mode start tokens).get? token = some name
      ↔ token ∈ selectTokens kind mode tokens
        ∧ name = freeName start tokens.toList (byteRank (selectTokens kind mode tokens) token)
            token := by
  rw [OrderedMap.get?_eq_some_iff, entries_nameTokens, List.mem_map]
  constructor
  · rintro ⟨⟨other, rank⟩, member, same⟩
    obtain ⟨rfl, rfl⟩ := Prod.mk.inj same
    obtain ⟨selected, place⟩ := (mem_zipIdx_sorted sorted_selectTokens).mp member
    obtain rfl := Nat.succ.inj place
    exact ⟨selected, rfl⟩
  · rintro ⟨selected, rfl⟩
    exact ⟨(token, byteRank (selectTokens kind mode tokens) token),
      (mem_zipIdx_sorted sorted_selectTokens).mpr ⟨selected, rfl⟩, rfl⟩

/-- The named tokens are those that are to be renamed. -/
theorem mem_keys_nameTokens {token : Text} :
    token ∈ (nameTokens kind mode start tokens).keys ↔ token ∈ selectTokens kind mode tokens := by
  rw [OrderedMap.keys, entries_nameTokens, List.map_map]
  show token ∈ ((selectTokens kind mode tokens).zipIdx 1).map Prod.fst ↔ _
  rw [List.zipIdx_map_fst]

/-- A token without a name is kept. -/
theorem kept_of_get?_eq_none {token : Text} (member : token ∈ tokens.toList)
    (unnamed : (nameTokens kind mode start tokens).get? token = none) :
    (judge kind mode token).rename = false := by
  rw [← Bool.not_eq_true]
  intro renamed
  have named : (nameTokens kind mode start tokens).get? token = some _ :=
    get?_nameTokens.mpr ⟨mem_selectTokens.mpr ⟨member, renamed⟩, rfl⟩
  exact absurd (unnamed.symm.trans named) (by simp)

/-- Each name is the first free variant of the name of the token's rank. -/
theorem nameTokens_firstFree {token name : Text}
    (found : (nameTokens kind mode start tokens).get? token = some name) :
    FirstFree tokens.toList
      (numberedName (baseName start (byteRank (selectTokens kind mode tokens) token) token))
      name := by
  obtain ⟨_, rfl⟩ := get?_nameTokens.mp found
  exact freeName_firstFree _ _ _ _

/-- No name is a token. -/
theorem nameTokens_fresh {token name : Text}
    (found : (nameTokens kind mode start tokens).get? token = some name) :
    name ∉ tokens.toList := by
  obtain ⟨k, rfl, free, _⟩ := nameTokens_firstFree found
  exact free

/-- Every name may begin an identifier if the given beginning may. -/
theorem nameTokens_identifier (valid : isIdentifierStart start = true) {token name : Text}
    (found : (nameTokens kind mode start tokens).get? token = some name) :
    isIdentifierStart name = true := by
  obtain ⟨k, rfl, _, _⟩ := nameTokens_firstFree found
  exact isIdentifierStart_numberedName valid _ _ _

/-- **Different tokens have different names.** -/
theorem nameTokens_injective {first second name : Text}
    (firstFound : (nameTokens kind mode start tokens).get? first = some name)
    (secondFound : (nameTokens kind mode start tokens).get? second = some name) :
    first = second := by
  obtain ⟨j, firstVariant, _, _⟩ := nameTokens_firstFree firstFound
  obtain ⟨k, secondVariant, _, _⟩ := nameTokens_firstFree secondFound
  have ranks : byteRank (selectTokens kind mode tokens) first
      = byteRank (selectTokens kind mode tokens) second := by
    by_contra different
    exact numberedName_baseName_ne different j k (firstVariant.symm.trans secondVariant)
  exact byteRank_injOn sorted_selectTokens (get?_nameTokens.mp firstFound).1
    (get?_nameTokens.mp secondFound).1 ranks

/-- No name is given twice. -/
theorem nodup_values_nameTokens : (nameTokens kind mode start tokens).values.Nodup := by
  have distinct : (nameTokens kind mode start tokens).entries.Nodup :=
    (nameTokens kind mode start tokens).sorted.imp fun less same =>
      OrderedMap.ne_of_lt less (congrArg Prod.fst same)
  refine List.Nodup.map_on (fun first inFirst second inSecond same => ?_) distinct
  have firstFound := OrderedMap.get?_eq_some_iff.mpr inFirst
  have secondFound := OrderedMap.get?_eq_some_iff.mpr inSecond
  exact Prod.ext (nameTokens_injective firstFound (same ▸ secondFound)) same

end Names

end Relabel
