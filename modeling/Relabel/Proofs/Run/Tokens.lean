/-
**The tokens of a relabelled pair.**

The tokens of the new documents are the new names of the old tokens, and nothing else: a new name can be
read again wherever it takes the place of a token. As names are new and different for different tokens,
no token is lost, none appears twice and no token that was renamed is left.

* `selects_relabelStylesheet`, `bears_relabelDocument`: the tokens in each place.
* `mem_tokens_relabel`: the tokens of a relabelled pair.
* `tokensFollow_processed`: the tokens of a run follow its names if the captured values do.
* `processPair_tokensFollow`: the tokens of an outcome follow its names.
-/

import Relabel.Proofs.Naming.Inverse
import Relabel.Proofs.Run.Names
import Relabel.Proofs.Substitution.Document
import Relabel.Proofs.Token.Inventory
import Relabel.Proofs.Token.Verdict

namespace Relabel

/-! ### Names -/

theorem Renamings.Starting.giveNames {names : Renamings} (starting : names.Starting) :
    names.GiveNames := by
  intro kind name member
  exact isName_of_isIdentifierStart (starting kind name member)

/-- Names are not blank. -/
theorem not_blank_of_isName {name : Text} (isName : IsName name) : isBlankToken name = false := by
  obtain ⟨nonempty, plain⟩ := isName
  have solid : Text.Solid name := fun c member => (identifier_facts (plain c member)).1
  simpa [isBlankToken, Text.strip_of_solid solid] using nonempty

section Relabel

variable {names : Renamings} (starting : names.Starting)

include starting

/-- The selectors of a relabelled stylesheet have the new names. -/
theorem selects_relabelStylesheet {css : Text} {kind : Kind} {token : Text} :
    Selects (relabelStylesheet names css) kind token
      ↔ ∃ old, Selects css kind old ∧ (names.ofKind kind).apply old = token := by
  rw [Selects, selectors_cut_relabelStylesheet starting]
  constructor
  · rintro ⟨_, member, rfl, rfl⟩
    obtain ⟨selector, inFound, rfl⟩ := List.mem_map.mp member
    exact ⟨selector.value, ⟨selector, inFound, rfl, rfl⟩, rfl⟩
  · rintro ⟨_, ⟨selector, inFound, rfl, rfl⟩, rfl⟩
    exact ⟨_, List.mem_map_of_mem inFound, rfl, rfl⟩

variable {html : Text} (follow : ValuesFollow names html)
  (solid : ∀ key ∈ names.ids.keys, isBlankToken key = false)

include follow solid

/-- The attributes of a relabelled document hold the new names. -/
theorem bears_relabelDocument {kind : Kind} {token : Text} :
    Bears (relabelDocument names html) kind token
      ↔ ∃ old, Bears html kind old ∧ (names.ofKind kind).apply old = token := by
  have giveNames := starting.giveNames
  cases kind with
  | cls =>
    have givesNames : names.classes.GivesNames := giveNames .cls
    have values : (classAttributes.cut (relabelDocument names html)).values = _ :=
      follow .cls (by decide)
    simp only [Bears, values, List.mem_map, exists_exists_and_eq_and]
    constructor
    · rintro ⟨value, member, inWords⟩
      rw [Surface.renew, words_relabelClassValue givesNames] at inWords
      obtain ⟨old, inOld, rfl⟩ := List.mem_map.mp inWords
      exact ⟨old, ⟨value, member, inOld⟩, rfl⟩
    · rintro ⟨old, ⟨value, member, inOld⟩, rfl⟩
      refine ⟨value, member, ?_⟩
      rw [Surface.renew, words_relabelClassValue givesNames]
      exact List.mem_map_of_mem inOld
  | id =>
    have values : (idAttributes.cut (relabelDocument names html)).values = _ :=
      follow .id (by decide)
    have blank : ∀ value, isBlankToken (names.ids.apply value) = isBlankToken value := by
      intro value
      rw [Renaming.apply]
      cases found : names.ids.get? value with
      | none => rfl
      | some name =>
        have key : value ∈ names.ids.keys :=
          List.mem_map.mpr ⟨_, OrderedMap.get?_eq_some_iff.mp found, rfl⟩
        have isName : IsName name := Renaming.GivesNames.isName (giveNames .id) found
        rw [solid value key, Option.getD_some, not_blank_of_isName isName]
    simp only [Bears, values, List.mem_map]
    constructor
    · rintro ⟨⟨value, member, rfl⟩, notBlank⟩
      exact ⟨value, ⟨member, (blank value).symm.trans notBlank⟩, rfl⟩
    · rintro ⟨value, ⟨member, notBlank⟩, rfl⟩
      exact ⟨⟨value, member, rfl⟩, (blank value).trans notBlank⟩

/-- **The tokens of a relabelled pair** are the new names of the old tokens. -/
theorem mem_tokens_relabel {css : Text} {kind : Kind} {token : Text} :
    token ∈ ((Pair.relabel names ⟨html, css⟩).tokens.ofKind kind).toList
      ↔ ∃ old ∈ ((⟨html, css⟩ : Pair).tokens.ofKind kind).toList,
          (names.ofKind kind).apply old = token := by
  have bodies : (styleBodies.cut (relabelDocument names html)).values = _ := follow .style (by decide)
  have inBodies : (∃ body ∈ (styleBodies.cut (relabelDocument names html)).values,
        Selects body kind token)
      ↔ ∃ old, (∃ body ∈ (styleBodies.cut html).values, Selects body kind old)
          ∧ (names.ofKind kind).apply old = token := by
    simp only [bodies, List.mem_map, exists_exists_and_eq_and]
    constructor
    · rintro ⟨body, member, selects⟩
      obtain ⟨old, selectsOld, rfl⟩ := (selects_relabelStylesheet starting).mp selects
      exact ⟨old, ⟨body, member, selectsOld⟩, rfl⟩
    · rintro ⟨old, ⟨body, member, selectsOld⟩, rfl⟩
      exact ⟨body, member, (selects_relabelStylesheet starting).mpr ⟨old, selectsOld, rfl⟩⟩
  simp only [Pair.tokens, Pair.relabel, Inventory.mem_ofTexts, selects_relabelStylesheet starting,
    inBodies, bears_relabelDocument starting follow solid, or_and_right, exists_or]

end Relabel

/-! ### Runs -/

/-- What holds of the tokens of one kind before and after a run. -/
structure TokensFollow (names : Renaming) (old new : TextSet) : Prop where
  /-- The new tokens are the new names of the old ones. -/
  image : ∀ token, token ∈ new.toList ↔ ∃ before ∈ old.toList, names.apply before = token
  /-- No token that was renamed is left. -/
  gone : ∀ key ∈ names.keys, key ∉ new.toList
  /-- No two tokens become the same. -/
  distinct : ∀ first ∈ old.toList, ∀ second ∈ old.toList,
    names.apply first = names.apply second → first = second
  size : new.size = old.size

/-- Sets whose elements correspond one to one are of the same size. -/
theorem TextSet.size_eq_of_image {old new : TextSet} {follow : Text → Text}
    (image : ∀ token, token ∈ new.toList ↔ ∃ before ∈ old.toList, follow before = token)
    (distinct : ∀ first ∈ old.toList, ∀ second ∈ old.toList, follow first = follow second →
      first = second) : new.size = old.size := by
  have followed : (old.toList.map follow).Nodup :=
    List.Nodup.map_on (fun first inFirst second inSecond => distinct first inFirst second inSecond)
      old.nodup_toList
  have perm : new.toList.Perm (old.toList.map follow) :=
    (List.perm_ext_iff_of_nodup new.nodup_toList followed).mpr fun token =>
      (image token).trans List.mem_map.symm
  have lengths := perm.length_eq
  rw [List.length_map] at lengths
  simpa [TextSet.toList, OrderedMap.keys, OrderedMap.size] using lengths

/-- Tokens follow names that are new and different for different tokens. -/
theorem tokensFollow_of_image {names : Renaming} {old new : TextSet}
    (image : ∀ token, token ∈ new.toList ↔ ∃ before ∈ old.toList, names.apply before = token)
    (keys : ∀ key ∈ names.keys, key ∈ old.toList) (fresh : ∀ name ∈ names.values, name ∉ old.toList)
    (nodup : names.values.Nodup) : TokensFollow names old new := by
  have back : ∀ token ∈ old.toList, names.inverse.apply (names.apply token) = token :=
    fun token member => Renaming.apply_inverse_apply nodup fun given => fresh token given member
  have distinct : ∀ first ∈ old.toList, ∀ second ∈ old.toList,
      names.apply first = names.apply second → first = second := by
    intro first inFirst second inSecond same
    rw [← back first inFirst, same, back second inSecond]
  refine ⟨image, fun key isKey left => ?_, distinct, TextSet.size_eq_of_image image distinct⟩
  obtain ⟨before, _, same⟩ := (image key).mp left
  by_cases named : before ∈ names.keys
  · exact fresh key (same ▸ Renaming.apply_mem_values named) (keys key isKey)
  · rw [Renaming.apply_of_not_mem_keys named] at same
    exact named (same ▸ isKey)

/-- The names of a run begin identifiers. -/
theorem starting_processed [InternationalNames] {options : Options} (checked : options.check = .ok ()) (pair : Pair) :
    (processed options pair).names.Starting := by
  intro kind name member
  rw [names_ofKind_processed] at member
  exact isIdentifierStart_iff.mpr
    ((exactNames_nameTokens (isIdentifierStart_of_check checked kind) _).identifiers name member)

/-- The tokens of a run follow its names if what its document captures does. -/
theorem tokensFollow_processed [InternationalNames] {options : Options} {pair : Pair} (checked : options.check = .ok ())
    (follow : ValuesFollow (processed options pair).names pair.html) (kind : Kind) :
    TokensFollow ((processed options pair).names.ofKind kind) (pair.tokens.ofKind kind)
      ((processed options pair).pair.tokens.ofKind kind) := by
  have solid : ∀ key ∈ (processed options pair).names.ids.keys, isBlankToken key = false := by
    intro key isKey
    have selected := mem_selectTokens.mp (mem_keys_nameTokens.mp isKey)
    exact not_blank_of_rename selected.2
  have image : ∀ token, token ∈ ((processed options pair).pair.tokens.ofKind kind).toList
      ↔ ∃ before ∈ (pair.tokens.ofKind kind).toList,
          ((processed options pair).names.ofKind kind).apply before = token :=
    fun _ => mem_tokens_relabel (starting_processed checked pair) follow solid
  rw [names_ofKind_processed] at image ⊢
  have named : ExactNames kind options.mode (options.start kind) _ _ :=
    exactNames_nameTokens (isIdentifierStart_of_check checked kind) (pair.tokens.ofKind kind)
  exact tokensFollow_of_image image (fun key isKey => ((named.keys key).mp isKey).1) named.fresh
    named.distinct

/-- **The tokens of an outcome follow its names.** -/
theorem processPair_tokensFollow [InternationalNames] {options : Options} {pair : Pair} {outcome : Outcome}
    (separable : Separable pair.html) (ran : processPair options pair = .ok outcome) (kind : Kind) :
    TokensFollow (outcome.names.ofKind kind) (pair.tokens.ofKind kind)
      (outcome.pair.tokens.ofKind kind) := by
  obtain ⟨checked, rfl⟩ := processPair_eq_ok_iff.mp ran
  have giveNames := (starting_processed checked pair).giveNames
  exact tokensFollow_processed checked (separable.valuesFollow giveNames) kind

/-- Of two classes one is renamed, and there are two classes still. -/
theorem processPair_tokensFollow_class :
    ∃ (pair : Pair) (outcome : Outcome), Separable pair.html ∧ processPair {} pair = .ok outcome
      ∧ "A123456789".toList ∈ (pair.tokens.ofKind .cls).toList
      ∧ "A123456789".toList ∉ (outcome.pair.tokens.ofKind .cls).toList
      ∧ (outcome.pair.tokens.ofKind .cls).size = 2 := by
  have separable : Separable "<p class='A123456789 b'></p>".toList := by decide +kernel
  have ran := processPair_eq_ok_iff.mpr
    ⟨rfl, rfl (a := processed {} ⟨"<p class='A123456789 b'></p>".toList, ".A123456789{}".toList⟩)⟩
  have follow := processPair_tokensFollow separable ran .cls
  have token : "A123456789".toList ∈ ((⟨"<p class='A123456789 b'></p>".toList,
      ".A123456789{}".toList⟩ : Pair).tokens.ofKind .cls).toList := by
    decide +kernel
  refine ⟨_, _, separable, ran, token, follow.gone _ ?_, follow.size.trans (by decide +kernel)⟩
  rw [names_ofKind_processed]
  exact mem_keys_nameTokens.mpr (mem_selectTokens.mpr ⟨token, by decide⟩)

end Relabel
