/-
**Each name is handed out once.**

A name that is asked for a second time gets a number, then a higher one, until no earlier name is the same up to
case. Nothing bounds this search but what it finds: the variants of a name differ in small letters as well, so
among one more of them than there are earlier names some variant is free.

* `StopsAt`: the search without a bound on its tries; `StopsAt.firstUnused_eq`: the bounded search is the same.
* `NamesTaken.exists_stopsAt`: it stops, after as many steps as there are earlier names at most.
* `FirstVariant`: the variant with the least number that no earlier name is.
* `handOutAll_handedOut`: names that are handed out in turn are such variants, and differ from one another.
-/

import Relabel.Proofs.Script.Names

namespace Relabel

/-! ### The search without a bound -/

section Search

variable {isUsed : Text → Bool} {name : Nat → Text}

/-- The search for a variant that is not used, begun at the variant `k`, ends with the variant `stop`. -/
inductive StopsAt (isUsed : Text → Bool) (name : Nat → Text) : (k stop : Nat) → Prop
  | here {k : Nat} (free : isUsed (name k) = false) : StopsAt isUsed name k k
  | further {k stop : Nat} (used : isUsed (name k) = true) (behind : StopsAt isUsed name (k + 1) stop) :
      StopsAt isUsed name k stop

/-- A variant that is not used, all those before it being used. -/
theorem stopsAt_of_least {stop : Nat} (free : isUsed (name stop) = false)
    (least : ∀ j < stop, isUsed (name j) = true) : StopsAt isUsed name 0 stop :=
  Nat.decreasingInduction (motive := fun k _ => StopsAt isUsed name k stop)
    (fun k less behind => StopsAt.further (least k less) behind) (StopsAt.here free) (Nat.zero_le stop)

namespace StopsAt

variable {k stop : Nat}

/-- Where the search stops: at the first variant that is not used. -/
theorem facts (stops : StopsAt isUsed name k stop) :
    k ≤ stop ∧ isUsed (name stop) = false ∧ ∀ j, k ≤ j → j < stop → isUsed (name j) = true := by
  induction stops with
  | here free => exact ⟨le_refl _, free, by omega⟩
  | @further k stop used _ ih =>
    obtain ⟨forward, free, least⟩ := ih
    refine ⟨by omega, free, fun j begun less => ?_⟩
    rcases Nat.eq_or_lt_of_le begun with rfl | later
    · exact used
    · exact least j later less

/-- With enough tries, the bounded search ends where the other one does. -/
theorem firstUnused_eq (stops : StopsAt isUsed name k stop) {tries : Nat} (enough : stop ≤ k + tries) :
    firstUnused isUsed name k tries = name stop := by
  induction stops generalizing tries with
  | here free =>
    cases tries with
    | zero => rfl
    | succ tries => rw [firstUnused, free, if_neg Bool.false_ne_true]
  | further used behind ih =>
    have forward := behind.facts.1
    cases tries with
    | zero => omega
    | succ tries =>
      rw [firstUnused, if_pos used]
      exact ih (by omega)

end StopsAt

end Search

/-! ### Names up to case -/

/-- Texts that differ in the case of ASCII letters at most. -/
def SameUpToCase (text other : Text) : Prop :=
  text.map Char.toLower = other.map Char.toLower

instance (text other : Text) : Decidable (SameUpToCase text other) :=
  inferInstanceAs (Decidable (text.map Char.toLower = other.map Char.toLower))

theorem isAscii_scriptName (url : Url) : IsAscii (scriptName url) :=
  fun c member => toNat_lt_of_isFileChar ((plainName_scriptName url).plain c member)

theorem IsAscii.numberedFile {name : Text} (ascii : IsAscii name) (k : Nat) : IsAscii (numberedFile name k) := by
  obtain ⟨front, back, rfl, _, variants⟩ := numberedFile_parts name
  intro c member
  rw [variants, List.mem_append, List.mem_append] at member
  rcases member with inFront | inMark | inBack
  · exact ascii c (List.mem_append_left _ inFront)
  · exact toNat_lt_of_isFileChar (plain_variantMark k c inMark)
  · exact ascii c (List.mem_append_right _ inBack)

theorem IsAscii.lowerCase_eq_iff {text other : Text} (ascii : IsAscii text) (ascii' : IsAscii other) :
    Text.lowerCase text = Text.lowerCase other ↔ SameUpToCase text other := by
  rw [Text.lowerCase_of_ascii ascii, Text.lowerCase_of_ascii ascii']
  rfl

/-! ### Names that are handed out -/

namespace NamesTaken

/-- The names that are taken when the given ones have been handed out. -/
def after (earlier : List Text) : NamesTaken :=
  earlier.foldl add {}

theorem after_concat (earlier : List Text) (name : Text) : after (earlier ++ [name]) = (after earlier).add name :=
  List.foldl_concat ..

theorem lowered_after (earlier : List Text) :
    (after earlier).lowered = (earlier.map Text.lowerCase).reverse := by
  induction earlier using List.reverseRecOn with
  | nil => rfl
  | append_singleton earlier name ih => simp [after_concat, add, ih]

theorem has_after {earlier : List Text} {name : Text} (allAscii : ∀ other ∈ earlier, IsAscii other)
    (ascii : IsAscii name) :
    (after earlier).has name = true ↔ ∃ other ∈ earlier, SameUpToCase other name := by
  simp only [has, lowered_after, List.contains_iff_mem, List.mem_reverse, List.mem_map]
  exact exists_congr fun other => and_congr_right fun member => (allAscii other member).lowerCase_eq_iff ascii

/-- **The search for a variant that is not taken stops**, after as many steps as there are names taken at most. -/
theorem exists_stopsAt (taken : NamesTaken) {name : Text} (ascii : IsAscii name) :
    ∃ k ≤ taken.lowered.length, StopsAt taken.has (numberedFile name) 0 k := by
  have injective : Function.Injective fun k => Text.lowerCase (numberedFile name k) := by
    intro j k same
    refine lower_numberedFile_injective name ?_
    exact ((ascii.numberedFile j).lowerCase_eq_iff (ascii.numberedFile k)).mp same
  obtain ⟨k, bound, notMem⟩ := exists_unused taken.lowered injective
  have free : taken.has (numberedFile name k) = false := by simpa [has] using notMem
  have someFree : ∃ k, taken.has (numberedFile name k) = false := ⟨k, free⟩
  refine ⟨Nat.find someFree, (Nat.find_min' someFree free).trans bound,
    stopsAt_of_least (Nat.find_spec someFree) fun j less => ?_⟩
  simpa using Nat.find_min someFree less

end NamesTaken

/-- `result` is what is handed out for `name` when the earlier names have been handed out: its variant `k`. -/
structure FirstVariant (earlier : List Text) (name : Text) (k : Nat) (result : Text) : Prop where
  result_eq : result = numberedFile name k
  /-- The search for it stops by itself. -/
  stops : StopsAt (NamesTaken.after earlier).has (numberedFile name) 0 k
  /-- It takes as many steps as there are earlier names at most. -/
  steps : k ≤ earlier.length
  /-- No earlier name is the same, -/
  fresh : ∀ other ∈ earlier, ¬ SameUpToCase other result
  /-- but one is the same as the variant of any lower number. -/
  least : ∀ j < k, ∃ other ∈ earlier, SameUpToCase other (numberedFile name j)
  /-- A name that no earlier name is the same as is handed out itself. -/
  itself : (∀ other ∈ earlier, ¬ SameUpToCase other name) → result = name

namespace NamesTaken

variable {earlier names : List Text} {name : Text}

/-- **One call.** -/
theorem firstVariant_choose (earlierAscii : ∀ other ∈ earlier, IsAscii other) (ascii : IsAscii name) :
    ∃ k, FirstVariant earlier name k ((after earlier).choose name) := by
  obtain ⟨k, bound, stops⟩ := (after earlier).exists_stopsAt ascii
  have chosen : (after earlier).choose name = numberedFile name k :=
    stops.firstUnused_eq (by rw [Nat.zero_add]; exact bound)
  have taken (j : Nat) := has_after earlierAscii (ascii.numberedFile j)
  obtain ⟨_, free, used⟩ := stops.facts
  have fresh : ∀ other ∈ earlier, ¬ SameUpToCase other (numberedFile name k) := by
    intro other member same
    have isTaken := (taken k).mpr ⟨other, member, same⟩
    rw [free] at isTaken
    exact Bool.false_ne_true isTaken
  have least (j : Nat) (less : j < k) := (taken j).mp (used j (Nat.zero_le j) less)
  rw [chosen]
  refine ⟨k, rfl, stops, ?_, fresh, least, fun apart => ?_⟩
  · simpa [lowered_after] using bound
  · cases k with
    | zero => rfl
    | succ k =>
      obtain ⟨other, member, same⟩ := least 0 (Nat.succ_pos k)
      exact absurd same (apart other member)

theorem handOutAll_cons :
    (after earlier).handOutAll (name :: names)
      = (after earlier).choose name
        :: (after (earlier ++ [(after earlier).choose name])).handOutAll names := by
  rw [after_concat]
  rfl

theorem length_handOutAll (taken : NamesTaken) (names : List Text) :
    (taken.handOutAll names).length = names.length := by
  induction names generalizing taken with
  | nil => rfl
  | cons name names ih => exact congrArg (· + 1) (ih _)

/-- **All calls.** The induction is on the names that are asked for, whatever the earlier ones are. -/
theorem firstVariant_handOutAll (earlier : List Text) (earlierAscii : ∀ other ∈ earlier, IsAscii other)
    (ascii : ∀ name ∈ names, IsAscii name) {i : Nat} (asked : names[i]? = some name) :
    ∃ k result, ((after earlier).handOutAll names)[i]? = some result
      ∧ FirstVariant (earlier ++ ((after earlier).handOutAll names).take i) name k result := by
  induction names generalizing earlier i with
  | nil => simp at asked
  | cons first names ih =>
    rw [List.forall_mem_cons] at ascii
    obtain ⟨k, own⟩ := firstVariant_choose earlierAscii ascii.1
    rw [handOutAll_cons]
    cases i with
    | zero =>
      obtain rfl : first = name := by simpa using asked
      exact ⟨k, _, rfl, by simpa using own⟩
    | succ i =>
      have chosenAscii : IsAscii ((after earlier).choose first) := by
        rw [own.result_eq]
        exact ascii.1.numberedFile k
      have extended : ∀ other ∈ earlier ++ [(after earlier).choose first], IsAscii other := by
        simpa [or_imp, forall_and] using ⟨earlierAscii, chosenAscii⟩
      simpa using ih _ extended ascii.2 asked

end NamesTaken

/-- What holds of the names that are handed out for those that are asked for. -/
structure HandedOut (names results : List Text) : Prop where
  length_eq : results.length = names.length
  /-- Each call hands out the first variant of its name that no earlier name is the same as. -/
  each : ∀ (i : Nat) (name : Text), names[i]? = some name →
    ∃ k result, results[i]? = some result ∧ FirstVariant (results.take i) name k result
  /-- No name is handed out twice. -/
  apart : results.Pairwise fun earlier later => ¬ SameUpToCase earlier later

/-- **Names in turn.** The names of scripts are of ASCII characters; and of such names, the first variants that are
free are handed out, each once. -/
theorem handOutAll_handedOut :
    (∀ url, IsAscii (scriptName url))
      ∧ ∀ names : List Text, (∀ name ∈ names, IsAscii name) → HandedOut names (NamesTaken.handOutAll {} names) := by
  refine ⟨isAscii_scriptName, fun names ascii => ?_⟩
  have length_eq := NamesTaken.length_handOutAll {} names
  have each (i : Nat) (name : Text) (asked : names[i]? = some name) :=
    NamesTaken.firstVariant_handOutAll [] (fun _ absent => absurd absent List.not_mem_nil) ascii asked
  refine ⟨length_eq, each, List.pairwise_iff_getElem.mpr fun i j earlier later less => ?_⟩
  obtain ⟨k, result, found, variant⟩ := each j names[j] (List.getElem?_eq_getElem _)
  obtain rfl := Option.some.inj ((List.getElem?_eq_getElem later).symm.trans found)
  exact variant.fresh _ (List.mem_take_iff_getElem.mpr ⟨i, lt_min less earlier, rfl⟩)

/-- Names that are the same up to case, and one that is the same as a variant. -/
def crowdedNames : List Text :=
  ["app.js", "app.js", "APP.js", "app_1.js"]

/-- Every one of them but the first gets a number, the last one because of the second. -/
theorem handOutAll_handedOut_crowded :
    (∀ name ∈ crowdedNames, IsAscii name)
      ∧ HandedOut crowdedNames ["app.js", "app_1.js", "APP_2.js", "app_1_1.js"] := by
  have ascii : ∀ name ∈ crowdedNames, IsAscii name := by decide
  have results : NamesTaken.handOutAll {} crowdedNames
      = ["app.js".toList, "app_1.js".toList, "APP_2.js".toList, "app_1_1.js".toList] := by decide +kernel
  refine ⟨ascii, ?_⟩
  rw [← results]
  exact handOutAll_handedOut.2 crowdedNames ascii

end Relabel
