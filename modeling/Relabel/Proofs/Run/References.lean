/-
**References keep their targets.**

All references to ids follow the ids: links, lists of ids and references of the form `url(#name)`. Each
has a rule of its own, but all of them agree on the tokens that a run renames, unless an id holds white
space.

* `quiet_processed`: the names of a run do not disturb what is captured.
* `own_of_rename`: a link to an id that is renamed is no foreign fragment.
* `processPair_referencesKept`: references keep their targets.
-/

import Relabel.Proofs.Run.Names
import Relabel.Proofs.Substitution.Occurrences
import Relabel.Proofs.Token.Verdict

namespace Relabel

/-! ### The names of a run -/

theorem sameLetter_of_isHexDigit {c : Char} (hex : Text.isHexDigit c = true) :
    sameLetter 'l' c = false := by
  have listed : ∀ n < 103, Text.isHexDigit (Char.ofNat n) = true →
      sameLetter 'l' (Char.ofNat n) = false := by decide
  have bound : c.toNat < 103 := by
    rcases Text.isHexDigit_iff.mp hex with (digit | small) | capital
    · have range := isDigit_iff.mp digit
      omega
    · omega
    · omega
  simpa using listed c.toNat bound (by simpa using hex)

/-- Names do not end like the beginning of `url(`. -/
theorem discreet_nameTokens {kind : Kind} {mode : Mode} {start : Text} {tokens : TextSet}
    (valid : isIdentifierStart start = true) {token name : Text}
    (found : (nameTokens kind mode start tokens).get? token = some name) : Discreet name where
  isName := isName_of_isIdentifierStart (nameTokens_identifier valid found)
  last c isLast := by
    obtain ⟨k, rfl, _, _⟩ := nameTokens_firstFree found
    obtain ⟨d, lasts, plain⟩ := getLast?_numberedName start
      (byteRank (selectTokens kind mode tokens) token) token k
    obtain rfl := Option.some.inj (lasts.symm.trans isLast)
    rcases plain with hex | rfl
    · exact sameLetter_of_isHexDigit hex
    · decide

/-- What holds of references if each of `new` stands where the one of `old` stood. -/
structure ReferencesKept (old new : List Occurrence) : Prop where
  /-- Ids and references stand in the same places, in the same order. -/
  aligned : new.map (·.surface) = old.map (·.surface)
  /-- A reference that named an id names what the id has become. -/
  kept : ∀ (i j : Nat) (reference id : Occurrence), old[i]? = some reference → old[j]? = some id →
    id.surface = .id → reference.target = id.target →
    ∃ reference' id', new[i]? = some reference' ∧ new[j]? = some id'
      ∧ reference'.target = id'.target

/-- Occurrences that all follow the same names. -/
theorem referencesKept_follow (ids : Renaming) (old : List Occurrence) :
    ReferencesKept old (old.map (Occurrence.follow ids)) where
  aligned := by
    rw [List.map_map]
    rfl
  kept i j reference id atReference atId _ same := by
    refine ⟨reference.follow ids, id.follow ids, ?_, ?_, ?_⟩
    · rw [List.getElem?_map, atReference, Option.map_some]
    · rw [List.getElem?_map, atId, Option.map_some]
    · simp only [Occurrence.follow, same]

/-- A link to an id that is renamed is a link to a place in the same document. -/
theorem own_of_rename {options : Options} {pair : Pair} {token name : Text}
    (solid : ∀ id ∈ (pair.tokens.ofKind .id).toList, ∀ c ∈ id, isBlank c = false)
    (found : (processed options pair).names.ids.get? token = some name) :
    isForeignFragment token = false := by
  have found' : ((processed options pair).names.ofKind .id).get? token = some name := found
  rw [names_ofKind_processed] at found'
  obtain ⟨isToken, renamed⟩ := mem_selectTokens.mp (get?_nameTokens.mp found').1
  obtain ⟨c, isHead, plain⟩ := head_of_rename renamed
  obtain ⟨rest, rfl⟩ := List.head?_eq_some_iff.mp isHead
  have notPath : c ≠ '!' := by
    rintro rfl
    exact absurd plain (by decide)
  have noBlank := solid _ isToken
  simp only [List.forall_mem_cons] at noBlank
  simpa [isForeignFragment, notPath] using noBlank

section Run

variable [InternationalNames] {options : Options} {pair : Pair} (checked : options.check = .ok ())
  (solid : ∀ id ∈ (pair.tokens.ofKind .id).toList, ∀ c ∈ id, isBlank c = false)

include checked solid

/-- The names of a run do not disturb what is captured. -/
theorem quiet_processed (kind : Kind) : ((processed options pair).names.ofKind kind).Quiet := by
  intro token name found
  rw [names_ofKind_processed] at found
  obtain ⟨isToken, renamed⟩ := mem_selectTokens.mp (get?_nameTokens.mp found).1
  refine ⟨?_, discreet_nameTokens (isIdentifierStart_of_check checked kind) found⟩
  cases kind with
  | cls => exact fun c member => (identifier_facts (plain_of_rename_cls renamed c member)).1
  | id => exact solid token isToken

/-- All ids and references follow the names. -/
theorem occurrences_processed (separable : Separable pair.html) :
    occurrences (processed options pair).pair.html
      = (occurrences pair.html).map (Occurrence.follow (processed options pair).names.ids) := by
  have renamed := separable.occurrences_relabelDocument (quiet_processed checked solid)
  refine Eq.trans renamed (List.map_congr_left fun occurrence _ => ?_)
  unfold Occurrence.renamed
  split
  next foreign =>
    cases found : (processed options pair).names.ids.get? occurrence.target with
    | none => rw [Occurrence.follow, Renaming.apply, found, Option.getD_none]
    | some name => simp [own_of_rename solid found] at foreign
  next => rfl

end Run

/-- **References keep their targets.** A run with options that can be used has an outcome, and the ids
and references of its document are in order those of the old one; if one of them named an id, then it
names what the id has become. -/
theorem processPair_referencesKept [InternationalNames] {options : Options} {pair : Pair}
    (checked : options.check = .ok ()) (separable : Separable pair.html)
    (solid : ∀ id ∈ (pair.tokens.ofKind .id).toList, ∀ c ∈ id, isBlank c = false) :
    ∃ outcome, processPair options pair = .ok outcome
      ∧ ReferencesKept (occurrences pair.html) (occurrences outcome.pair.html) := by
  refine ⟨processed options pair, processPair_eq_ok_iff.mpr ⟨checked, rfl⟩, ?_⟩
  rw [occurrences_processed checked solid separable]
  exact referencesKept_follow _ _

/-- A document with an id, a link to it, a list that holds it and a reference of the form `url(#name)`. -/
def linkedPair : Pair where
  html := "<p id='A123456789'><a href='#A123456789'></a>"
    ++ "<b for='A123456789 x' fill='url(#A123456789)'></b></p>"
  css := []

/-- The document with the name of its id in the place of the id. -/
def linkedDocument : Text :=
  "<p id='i001_51ff20'><a href='#i001_51ff20'></a>"
    ++ "<b for='i001_51ff20 x' fill='url(#i001_51ff20)'></b></p>"

/-- A link, a list and a reference to an id that is renamed. -/
theorem processPair_referencesKept_link :
    ∃ (pair : Pair) (outcome : Outcome), Separable pair.html ∧ processPair {} pair = .ok outcome
      ∧ (∀ id ∈ (pair.tokens.ofKind .id).toList, ∀ c ∈ id, isBlank c = false)
      ∧ pair.html = linkedPair.html ∧ outcome.pair.html = linkedDocument
      ∧ (occurrences pair.html).map (·.surface) = [.id, .fragment, .reference, .reference, .url]
      ∧ ReferencesKept (occurrences pair.html) (occurrences outcome.pair.html) := by
  have separable : Separable linkedPair.html := by decide +kernel
  have usable : ({} : Options).check = .ok () := rfl
  have solid : ∀ id ∈ (linkedPair.tokens.ofKind .id).toList, ∀ c ∈ id, isBlank c = false := by decide +kernel
  obtain ⟨outcome, ran, kept⟩ := processPair_referencesKept usable separable solid
  refine ⟨linkedPair, outcome, separable, ran, solid, rfl, ?_, by decide +kernel, kept⟩
  obtain ⟨_, rfl⟩ := processPair_eq_ok_iff.mp ran
  show relabelDocument (processed {} linkedPair).names linkedPair.html = linkedDocument
  rw [relabelDocument, relabelReferences_of_ordered (by decide +kernel)]
  decide +kernel

end Relabel
