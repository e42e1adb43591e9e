/-
**Maps with texts as keys, in order of the keys.**

Keys are compared character by character, by code point, which is also the order of their UTF-8
forms. A map is its list of entries; that the keys increase strictly is part of the type.

* `OrderedMap.insert`: puts a value under a key, in place of an earlier value.
* `OrderedMap.get?`: the value under a key.
* `TextSet`: sets of texts, as maps that carry no values.
-/

import Relabel.Text.Basic

namespace Relabel

/-- A map from texts to values, as entries in increasing order of keys. -/
structure OrderedMap (β : Type) where
  entries : List (Text × β)
  sorted : entries.Pairwise fun a b => a.1 < b.1

namespace OrderedMap

variable {β : Type}

/-! ### Insertion -/

/-- The entries with `value` under `key`. -/
def insertEntry (key : Text) (value : β) : List (Text × β) → List (Text × β)
  | [] => [(key, value)]
  | entry :: rest =>
    if key < entry.1 then (key, value) :: entry :: rest
    else if key = entry.1 then (key, value) :: rest
    else entry :: insertEntry key value rest

/-- Insertion adds no key but the given one. -/
theorem mem_insertEntry {key : Text} {value : β} {entries : List (Text × β)} {entry : Text × β}
    (member : entry ∈ insertEntry key value entries) : entry = (key, value) ∨ entry ∈ entries := by
  induction entries with
  | nil => simpa [insertEntry] using member
  | cons head rest ih =>
    unfold insertEntry at member
    split at member
    · simpa using member
    · split at member
      · rcases List.mem_cons.mp member with same | inRest
        · exact Or.inl same
        · exact Or.inr (List.mem_cons_of_mem _ inRest)
      · rcases List.mem_cons.mp member with same | inRest
        · exact Or.inr (same ▸ List.mem_cons_self)
        · exact (ih inRest).imp id (List.mem_cons_of_mem _)

/-- Two different texts are in one of the two orders. -/
theorem lt_of_not_lt {a b : Text} (notLess : ¬ a < b) (different : a ≠ b) : b < a :=
  List.not_le.mp fun le => different (List.le_antisymm le (List.not_lt.mp notLess))

/-- Insertion keeps the keys in order. -/
theorem pairwise_insertEntry {key : Text} {value : β} {entries : List (Text × β)}
    (ordered : entries.Pairwise fun a b => a.1 < b.1) :
    (insertEntry key value entries).Pairwise fun a b => a.1 < b.1 := by
  induction entries with
  | nil => simp [insertEntry]
  | cons head rest ih =>
    obtain ⟨below, restOrdered⟩ := List.pairwise_cons.mp ordered
    unfold insertEntry
    split
    next less =>
      refine List.pairwise_cons.mpr ⟨fun entry member => ?_, ordered⟩
      rcases List.mem_cons.mp member with same | inRest
      · exact same ▸ less
      · exact List.lt_trans less (below entry inRest)
    next notLess =>
      split
      next same =>
        exact List.pairwise_cons.mpr ⟨fun entry member => same ▸ below entry member, restOrdered⟩
      next different =>
        refine List.pairwise_cons.mpr ⟨fun entry member => ?_, ih restOrdered⟩
        rcases mem_insertEntry member with same | inRest
        · exact same ▸ lt_of_not_lt notLess different
        · exact below entry inRest

/-! ### Maps -/

/-- The map without entries. -/
def empty : OrderedMap β :=
  ⟨[], List.Pairwise.nil⟩

instance : Inhabited (OrderedMap β) := ⟨empty⟩

/-- The map with `value` under `key`. -/
def insert (map : OrderedMap β) (key : Text) (value : β) : OrderedMap β :=
  ⟨insertEntry key value map.entries, pairwise_insertEntry map.sorted⟩

/-- The map of the given pairs, in which a later pair replaces an earlier one with the same key. -/
def ofList (pairs : List (Text × β)) : OrderedMap β :=
  pairs.foldl (fun map pair => map.insert pair.1 pair.2) empty

/-- The value under a key. -/
def get? (map : OrderedMap β) (key : Text) : Option β :=
  map.entries.lookup key

/-- Whether there is a value under a key. -/
def contains (map : OrderedMap β) (key : Text) : Bool :=
  (map.get? key).isSome

/-- The map with `value` under `key`, unless there is a value already. -/
def insertNew (map : OrderedMap β) (key : Text) (value : β) : OrderedMap β :=
  if map.contains key then map else map.insert key value

/-- The keys in increasing order. -/
def keys (map : OrderedMap β) : List Text :=
  map.entries.map (·.1)

/-- The values in order of their keys. -/
def values (map : OrderedMap β) : List β :=
  map.entries.map (·.2)

/-- The number of entries. -/
def size (map : OrderedMap β) : Nat :=
  map.entries.length

/-- Whether there is no entry. -/
def isEmpty (map : OrderedMap β) : Bool :=
  map.entries.isEmpty

end OrderedMap

/-! ### Sets -/

/-- A set of texts. -/
abbrev TextSet := OrderedMap Unit

namespace TextSet

/-- The set with one more member. -/
def add (set : TextSet) (text : Text) : TextSet :=
  set.insert text ()

/-- The set with the members of a list added. -/
def addAll (set : TextSet) (texts : List Text) : TextSet :=
  texts.foldl add set

/-- The set of the members of a list. -/
def ofTexts (texts : List Text) : TextSet :=
  addAll OrderedMap.empty texts

/-- The members in increasing order. -/
def toList (set : TextSet) : List Text :=
  OrderedMap.keys set

end TextSet

end Relabel
