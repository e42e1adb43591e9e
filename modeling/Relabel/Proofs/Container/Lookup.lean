/-
**What ordered maps and sets hold.**

A map is determined by the values under its keys, and a set by its members.

* `OrderedMap.get?_eq_some_iff`: the value under a key is the one in the entry with that key.
* `OrderedMap.get?_insert`: insertion changes the value under one key only.
* `OrderedMap.entries_ofList`: pairs in order of their keys are the entries of their map.
* `OrderedMap.get?_ofList`: the values of pairs with different keys, in any order.
* `TextSet.mem_addAll`: the members of a set to which a list is added.
* `TextSet.ext`: sets with the same members are the same.
-/

import Mathlib.Data.List.Sort
import Relabel.OrderedMap

namespace Relabel

namespace OrderedMap

variable {β : Type}

/-- The order of keys tells them apart. -/
theorem ne_of_lt {a b : Text} (less : a < b) : a ≠ b :=
  fun same => List.lt_irrefl b (same ▸ less)

/-- No two entries of a sorted list have the same key. -/
theorem eq_of_key_eq {entries : List (Text × β)}
    (sorted : entries.Pairwise fun a b => a.1 < b.1) {first second : Text × β}
    (inFirst : first ∈ entries) (inSecond : second ∈ entries) (sameKey : first.1 = second.1) :
    first = second := by
  induction entries with
  | nil => simp at inFirst
  | cons head rest ih =>
    obtain ⟨below, restSorted⟩ := List.pairwise_cons.mp sorted
    rcases List.mem_cons.mp inFirst with rfl | firstBehind <;>
      rcases List.mem_cons.mp inSecond with rfl | secondBehind
    · rfl
    · exact absurd sameKey (ne_of_lt (below second secondBehind))
    · exact absurd sameKey.symm (ne_of_lt (below first firstBehind))
    · exact ih restSorted firstBehind secondBehind

/-- The value under a key is the one in the entry with that key. -/
theorem get?_eq_some_iff {map : OrderedMap β} {key : Text} {value : β} :
    map.get? key = some value ↔ (key, value) ∈ map.entries := by
  constructor
  · intro found
    obtain ⟨before, after, split, _⟩ := List.lookup_eq_some_iff.mp found
    exact split ▸ by simp
  · intro member
    cases found : map.entries.lookup key with
    | none =>
      have absent := List.lookup_eq_none_iff.mp found _ member
      simp at absent
    | some other =>
      obtain ⟨before, after, split, _⟩ := List.lookup_eq_some_iff.mp found
      have inEntries : (key, other) ∈ map.entries := split ▸ by simp
      exact found.trans (congrArg some (Prod.mk.inj (eq_of_key_eq map.sorted inEntries member rfl)).2)

/-- Below the first key of a sorted list, no entry has the key. -/
theorem key_ne_of_lt {key : Text} {head : Text × β} {rest : List (Text × β)}
    (less : key < head.1) (below : ∀ other ∈ rest, head.1 < other.1) {other : Text × β}
    (member : other ∈ head :: rest) : other.1 ≠ key := by
  rcases List.mem_cons.mp member with rfl | inRest
  · exact (ne_of_lt less).symm
  · exact (ne_of_lt (List.lt_trans less (below other inRest))).symm

/-- The entries after an insertion. -/
theorem mem_insertEntry_iff {key : Text} {value : β} {entries : List (Text × β)}
    (sorted : entries.Pairwise fun a b => a.1 < b.1) {entry : Text × β} :
    entry ∈ insertEntry key value entries ↔
      entry = (key, value) ∨ entry ∈ entries ∧ entry.1 ≠ key := by
  induction entries with
  | nil => simp [insertEntry]
  | cons head rest ih =>
    obtain ⟨below, restSorted⟩ := List.pairwise_cons.mp sorted
    unfold insertEntry
    split
    next less =>
      rw [List.mem_cons, and_iff_left_of_imp (key_ne_of_lt less below)]
    next notLess =>
      split
      next same =>
        subst same
        have others : entry ∈ rest → entry.1 ≠ head.1 := fun inRest =>
          (ne_of_lt (below entry inRest)).symm
        rw [List.mem_cons, List.mem_cons, or_and_right, and_iff_left_of_imp others]
        refine or_congr_right (or_iff_right ?_).symm
        rintro ⟨rfl, different⟩
        exact different rfl
      next different =>
        have headOther : entry = head → entry.1 ≠ key := by
          rintro rfl same
          exact different same.symm
        rw [List.mem_cons, ih restSorted, List.mem_cons, or_and_right,
          and_iff_left_of_imp headOther, or_left_comm]

/-- Insertion changes the value under one key only. -/
theorem get?_insert (map : OrderedMap β) (key other : Text) (value : β) :
    (map.insert key value).get? other = if other = key then some value else map.get? other := by
  ext found
  rw [get?_eq_some_iff]
  show (other, found) ∈ insertEntry key value map.entries ↔ _
  rw [mem_insertEntry_iff map.sorted]
  by_cases same : other = key
  · subst same
    simp [eq_comm]
  · simp [same, get?_eq_some_iff]

theorem contains_iff {map : OrderedMap β} {key : Text} : map.contains key = true ↔ key ∈ map.keys := by
  unfold contains keys
  rw [Option.isSome_iff_exists, List.mem_map]
  constructor
  · rintro ⟨value, found⟩
    exact ⟨_, get?_eq_some_iff.mp found, rfl⟩
  · rintro ⟨⟨_, value⟩, member, rfl⟩
    exact ⟨value, get?_eq_some_iff.mpr member⟩

theorem get?_eq_none_iff {map : OrderedMap β} {key : Text} : map.get? key = none ↔ key ∉ map.keys := by
  rw [← contains_iff, contains, Bool.not_eq_true, Option.isSome_eq_false_iff, Option.isNone_iff_eq_none]

/-- A map to which a key is added, with a value if it is new, has an entry more at most. -/
theorem mem_insertNew {map : OrderedMap β} {key : Text} {value : β} {entry : Text × β}
    (member : entry ∈ (map.insertNew key value).entries) : entry = (key, value) ∨ entry ∈ map.entries := by
  unfold insertNew at member
  split at member
  · exact Or.inr member
  · exact mem_insertEntry member

/-- The keys of a map to which one is added. -/
theorem mem_keys_insertNew {map : OrderedMap β} {key other : Text} {value : β} :
    other ∈ (map.insertNew key value).keys ↔ other = key ∨ other ∈ map.keys := by
  unfold insertNew
  split
  next there =>
    refine ⟨Or.inr, ?_⟩
    rintro (rfl | member)
    · exact contains_iff.mp there
    · exact member
  next =>
    rw [← contains_iff, ← contains_iff, contains, contains, get?_insert]
    by_cases same : other = key <;> simp [same]

/-- An entry behind all others is added at the end. -/
theorem insertEntry_of_forall_lt {key : Text} {value : β} {entries : List (Text × β)}
    (behind : ∀ entry ∈ entries, entry.1 < key) :
    insertEntry key value entries = entries ++ [(key, value)] := by
  induction entries with
  | nil => rfl
  | cons head rest ih =>
    have less := behind head List.mem_cons_self
    have rest := ih fun entry member => behind entry (List.mem_cons_of_mem _ member)
    unfold insertEntry
    rw [if_neg (List.not_lt.mpr (List.le_of_lt less)), if_neg (ne_of_lt less).symm, rest]
    rfl

/-- Pairs in order of their keys are the entries of their map. -/
theorem entries_ofList {pairs : List (Text × β)} (sorted : pairs.Pairwise fun a b => a.1 < b.1) :
    (ofList pairs).entries = pairs := by
  have general : ∀ (rest : List (Text × β)) (map : OrderedMap β),
      (map.entries ++ rest).Pairwise (fun a b => a.1 < b.1) →
      (rest.foldl (fun map pair => map.insert pair.1 pair.2) map).entries
        = map.entries ++ rest := by
    intro rest
    induction rest with
    | nil => intro map _; simp
    | cons pair rest ih =>
      intro map ordered
      have last : (map.insert pair.1 pair.2).entries = map.entries ++ [pair] :=
        insertEntry_of_forall_lt fun entry member =>
          (List.pairwise_append.mp ordered).2.2 entry member pair List.mem_cons_self
      rw [List.foldl_cons, ih, last]
      · simp
      · rw [last]
        simpa using ordered
  simpa [ofList, empty] using general pairs empty (by simpa [empty] using sorted)

/-- Pairs with different keys, in any order, are what their map holds. -/
theorem get?_ofList {pairs : List (Text × β)} (distinct : (pairs.map Prod.fst).Nodup) {key : Text}
    {value : β} : (ofList pairs).get? key = some value ↔ (key, value) ∈ pairs := by
  have general : ∀ (rest : List (Text × β)) (map : OrderedMap β), (rest.map Prod.fst).Nodup →
      ((rest.foldl (fun map pair => map.insert pair.1 pair.2) map).get? key = some value
        ↔ (key, value) ∈ rest ∨ (map.get? key = some value ∧ key ∉ rest.map Prod.fst)) := by
    intro rest
    induction rest with
    | nil => intro map _; simp
    | cons pair rest ih =>
      intro map distinct
      obtain ⟨first, second⟩ := pair
      obtain ⟨notBehind, behind⟩ := List.nodup_cons.mp distinct
      rw [List.foldl_cons, ih _ behind, get?_insert]
      by_cases same : key = first
      · subst same
        have absent : (key, value) ∉ rest :=
          fun member => notBehind (List.mem_map.mpr ⟨_, member, rfl⟩)
        simp [absent, notBehind, eq_comm]
      · simp [same]
  have none : (empty : OrderedMap β).get? key = none := rfl
  rw [ofList, general pairs empty distinct, none]
  simp

/-- Maps with the same entries are the same. -/
theorem ext_entries {first second : OrderedMap β} (same : first.entries = second.entries) :
    first = second := by
  cases first
  cases second
  simp_all

end OrderedMap

/-! ### Sets -/

namespace TextSet

theorem mem_toList {set : TextSet} {text : Text} :
    text ∈ set.toList ↔ (text, ()) ∈ set.entries := by
  rw [toList, OrderedMap.keys, List.mem_map]
  constructor
  · rintro ⟨⟨key, ⟨⟩⟩, member, rfl⟩
    exact member
  · intro member
    exact ⟨_, member, rfl⟩

/-- The members of a set increase strictly. -/
theorem sorted_toList (set : TextSet) : set.toList.Pairwise (· < ·) :=
  List.pairwise_map.mpr set.sorted

theorem nodup_toList (set : TextSet) : set.toList.Nodup :=
  set.sorted_toList.imp OrderedMap.ne_of_lt

@[simp]
theorem mem_add {set : TextSet} {added text : Text} :
    text ∈ (set.add added).toList ↔ text = added ∨ text ∈ set.toList := by
  rw [mem_toList, mem_toList]
  show (text, ()) ∈ OrderedMap.insertEntry added () set.entries ↔ _
  rw [OrderedMap.mem_insertEntry_iff set.sorted]
  by_cases same : text = added <;> simp [same]

/-- The members of a set to which a list is added. -/
@[simp]
theorem mem_addAll {set : TextSet} {texts : List Text} {text : Text} :
    text ∈ (set.addAll texts).toList ↔ text ∈ texts ∨ text ∈ set.toList := by
  induction texts generalizing set with
  | nil => simp [addAll]
  | cons head rest ih =>
    have step : set.addAll (head :: rest) = (set.add head).addAll rest := rfl
    rw [step, ih, mem_add, List.mem_cons]
    tauto

@[simp]
theorem toList_empty : toList OrderedMap.empty = [] := rfl

@[simp]
theorem mem_ofTexts {texts : List Text} {text : Text} :
    text ∈ (ofTexts texts).toList ↔ text ∈ texts := by
  simp [ofTexts]

/-- Strictly increasing lists with the same members are the same. -/
theorem eq_of_sorted {first second : List Text} (sortedFirst : first.Pairwise (· < ·))
    (sortedSecond : second.Pairwise (· < ·)) (same : ∀ text, text ∈ first ↔ text ∈ second) :
    first = second := by
  have perm : first.Perm second :=
    (List.perm_ext_iff_of_nodup (sortedFirst.imp OrderedMap.ne_of_lt)
      (sortedSecond.imp OrderedMap.ne_of_lt)).mpr same
  exact perm.eq_of_pairwise
    (fun a b _ _ less more => absurd (List.lt_trans less more) (List.lt_irrefl a))
    sortedFirst sortedSecond

/-- A strictly increasing list is the list of the members of its set. -/
theorem toList_ofTexts {texts : List Text} (sorted : texts.Pairwise (· < ·)) :
    (ofTexts texts).toList = texts :=
  eq_of_sorted (sorted_toList _) sorted fun _ => mem_ofTexts

/-- Sets with the same members are the same. -/
theorem ext {first second : TextSet} (same : ∀ text, text ∈ first.toList ↔ text ∈ second.toList) :
    first = second := by
  refine OrderedMap.ext_entries ?_
  have keys := eq_of_sorted first.sorted_toList second.sorted_toList same
  have entries : ∀ set : TextSet, set.entries = set.toList.map fun text => (text, ()) := by
    intro set
    rw [toList, OrderedMap.keys, List.map_map]
    exact (List.map_id _).symm
  rw [entries first, entries second, keys]

end TextSet

end Relabel
