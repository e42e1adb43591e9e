/-
**New values.**

Each surface has its own rule for the new value of what is captured on it. All of them use characters of
names only, keep the first character of a link, and let a value begin as before or with a name. So
holes may be filled with them.

* `Surface.renew`: the new value of a captured value.
* `Surface.refill_renew`: holes may be filled with new values.
-/

import Relabel.Proofs.Markup.Sound
import Relabel.Proofs.Substitution.Stylesheet
import Relabel.Proofs.Text.Words
import Relabel.Substitution.Markup

namespace Relabel

/-- The new value of a captured value. -/
def Surface.renew (names : Renamings) : Surface → Text → Text
  | .cls, value => (relabelClassValue names.classes value).getD value
  | .id, value => names.ids.apply value
  | .fragment, value => (relabelFragment names.ids value).getD value
  | .reference, value => (Text.wordScript names.ids.get? value).new
  | .url, value => names.ids.apply value
  | .style, value => relabelStylesheet names value

/-- All new names are names. -/
def Renamings.GiveNames (names : Renamings) : Prop :=
  ∀ kind, (names.ofKind kind).GivesNames

/-! ### Tokens -/

section Tokens

variable {names : Renaming} (givesNames : names.GivesNames)

include givesNames

theorem Renaming.mem_apply {token : Text} {c : Char} (member : c ∈ names.apply token) :
    c ∈ token ∨ isIdentifierChar c = true := by
  unfold apply at member
  cases found : names.get? token with
  | none => exact Or.inl (by simpa [found] using member)
  | some name => exact Or.inr ((givesNames.isName found).2 c (by simpa [found] using member))

/-- A token keeps its first character or becomes a name. -/
theorem Renaming.head_apply {token rest : Text} {c : Char} (split : names.apply token = c :: rest) :
    isIdentifierChar c = true ∨ token = c :: rest := by
  unfold apply at split
  cases found : names.get? token with
  | none => exact Or.inr (by simpa [found] using split)
  | some name =>
    refine Or.inl ((givesNames.isName found).2 c ?_)
    have same : name = c :: rest := by simpa [found] using split
    simp [same]

/-- New tokens are solid as the old ones are. -/
theorem Renaming.solid_apply {token : Text} (solid : Text.Solid token ∧ token ≠ []) :
    Text.Solid (names.apply token) ∧ names.apply token ≠ [] := by
  unfold apply
  cases found : names.get? token with
  | none => exact solid
  | some name =>
    obtain ⟨nonempty, plain⟩ := givesNames.isName found
    exact ⟨fun c inName => (identifier_facts (plain c inName)).1, nonempty⟩

/-- The words of a class value with its tokens replaced. -/
theorem words_relabelClassValue {value : Text} :
    Text.words ((relabelClassValue names value).getD value)
      = (Text.words value).map names.apply := by
  unfold relabelClassValue
  by_cases renamed : (Text.words value).any names.contains = true
  · rw [if_pos renamed, Option.getD_some, Text.words_join]
    intro token member
    obtain ⟨old, inWords, rfl⟩ := List.mem_map.mp member
    obtain ⟨solid, nonempty, _⟩ := Text.of_mem_words inWords
    exact Renaming.solid_apply givesNames ⟨solid, nonempty⟩
  · rw [if_neg renamed, Option.getD_none]
    have kept : ∀ token ∈ Text.words value, names.apply token = token := by
      intro token member
      have absent : names.contains token = false := by
        by_contra contained
        exact renamed (List.any_eq_true.mpr ⟨token, member, by simpa using contained⟩)
      simp only [OrderedMap.contains, Option.isSome_eq_false_iff, Option.isNone_iff_eq_none] at absent
      rw [Renaming.apply, absent, Option.getD_none]
    rw [List.map_congr_left kept, List.map_id']

/-- The words of a list of references with its tokens replaced. -/
theorem words_wordScript {value : Text} :
    Text.words (Text.wordScript names.get? value).new = (Text.words value).map names.apply := by
  refine Text.words_new_wordScript (fun token name found => ?_) value
  obtain ⟨nonempty, plain⟩ := givesNames.isName found
  exact ⟨fun c inName => (identifier_facts (plain c inName)).1, nonempty⟩

/-- If the tokens of a value are replaced, it does not begin with a parenthesis unless it did before. -/
theorem closes_of_words {value value' rest : Text}
    (same : Text.words value' = (Text.words value).map names.apply)
    (split : value'.dropWhile isBlank = ')' :: rest) :
    ∃ rest', value.dropWhile isBlank = ')' :: rest' := by
  obtain ⟨word', words', parts⟩ := Text.dropWhile_eq_cons_iff.mp ⟨rest, split⟩
  rw [parts] at same
  obtain ⟨word, words, old, new, _⟩ := List.map_eq_cons_iff.mp same.symm
  rcases Renaming.head_apply givesNames new with plain | kept
  · exact absurd plain (by decide)
  · exact Text.dropWhile_eq_cons_iff.mpr ⟨word', words, kept ▸ old⟩

end Tokens

/-! ### Links -/

/-- A link that changes is a number sign and a token that becomes a name. -/
theorem relabelFragment_eq_some {names : Renaming} {value value' : Text}
    (changed : relabelFragment names value = some value') :
    ∃ token name, value = '#' :: token ∧ isForeignFragment token = false
      ∧ names.get? token = some name ∧ value' = '#' :: name := by
  simp only [relabelFragment, Option.bind_eq_bind, Option.bind_eq_some_iff] at changed
  obtain ⟨token, found, changed⟩ := changed
  split at changed
  · simp at changed
  next own =>
    obtain ⟨name, renamed, rfl⟩ := Option.map_eq_some_iff.mp changed
    exact ⟨token, name, after?_eq_some found, by simpa using own, renamed, rfl⟩

/-! ### Refilling -/

/-- What follows a value's white space does not matter to whether it begins with a parenthesis. -/
theorem closesUrl_append {value value' rest : Text} {q : Char} (quoted : isQuote q = true)
    (begins : ∀ rest, value'.dropWhile isBlank = ')' :: rest →
      ∃ rest', value.dropWhile isBlank = ')' :: rest')
    (closes : ClosesUrl (value' ++ q :: rest)) : ClosesUrl (value ++ q :: rest) := by
  obtain ⟨more, split⟩ := closes
  rw [List.dropWhile_append] at split
  cases dropped : value'.dropWhile isBlank with
  | nil =>
    have solid : isBlank q = false := by
      rcases eq_of_isQuote quoted with rfl | rfl <;> decide
    rw [dropped] at split
    simp only [List.isEmpty_nil, if_true, solid, Bool.false_eq_true, not_false_eq_true,
      List.dropWhile_cons_of_neg] at split
    obtain rfl := (List.cons.inj split).1
    exact absurd quoted (by decide)
  | cons d more' =>
    rw [dropped] at split
    simp only [List.isEmpty_cons, Bool.false_eq_true, if_false, List.cons_append] at split
    obtain rfl := (List.cons.inj split).1
    obtain ⟨rest', begun⟩ := begins more' dropped
    exact ⟨rest' ++ q :: rest, by simp [List.dropWhile_append, begun]⟩

namespace Surface

variable {names : Renamings} (giveNames : names.GiveNames)

include giveNames

/-- New values add no characters but those of names and spaces. -/
theorem mem_renew {s : Surface} {value : Text} {c : Char} (member : c ∈ s.renew names value) :
    c ∈ value ∨ isIdentifierChar c = true ∨ c = ' ' := by
  cases s with
  | cls =>
    simp only [renew, relabelClassValue] at member
    split at member
    · rcases Text.mem_join member with inSpace | ⟨piece, inPieces, inPiece⟩
      · exact Or.inr (Or.inr (by simpa using inSpace))
      · obtain ⟨token, inWords, rfl⟩ := List.mem_map.mp inPieces
        rcases Renaming.mem_apply (giveNames .cls) inPiece with old | new
        · exact Or.inl ((Text.of_mem_words inWords).2.2 c old)
        · exact Or.inr (Or.inl new)
    · exact Or.inl member
  | id | url => exact (Renaming.mem_apply (giveNames .id) member).imp_right Or.inl
  | fragment =>
    simp only [renew] at member
    cases changed : relabelFragment names.ids value with
    | none => exact Or.inl (by simpa [changed] using member)
    | some value' =>
      obtain ⟨token, name, rfl, _, found, rfl⟩ := relabelFragment_eq_some changed
      rw [changed, Option.getD_some] at member
      rcases List.mem_cons.mp member with rfl | inName
      · exact Or.inl List.mem_cons_self
      · exact Or.inr (Or.inl (((giveNames .id).isName found).2 c inName))
  | reference =>
    refine (Text.mem_new_wordScript member).imp_right ?_
    rintro ⟨token, name, found, inName⟩
    exact Or.inl (((giveNames .id).isName found).2 c inName)
  | style => exact (mem_relabelStylesheet giveNames member).imp_right Or.inl

/-- No quotes are added. -/
theorem quotes_renew {s : Surface} {value : Text} {q : Char} (quoted : isQuote q = true)
    (member : q ∈ s.renew names value) : q ∈ value := by
  rcases mem_renew giveNames member with old | plain | rfl
  · exact old
  · rw [(identifier_facts plain).2.1] at quoted
    simp at quoted
  · exact absurd quoted (by decide)

/-- None of the characters that could make constructs overlap is added. -/
theorem not_mem_renew {s : Surface} {value : Text} {c : Char} (special : c ∈ ['=', '<', '>', '('])
    (old : c ∉ value) : c ∉ s.renew names value := by
  intro member
  rcases mem_renew giveNames member with inOld | plain | rfl
  · exact old inOld
  · have others := (identifier_facts plain).2.2.2
    simp only [List.mem_cons, List.not_mem_nil, or_false, not_or] at special others
    tauto
  · exact absurd special (by decide)

theorem admits_renew {s : Surface} {value : Text} (admitted : s.admits value) :
    s.admits (s.renew names value) := by
  have keeps : ∀ c ∈ ['=', '<', '>', '('], c ∉ value → c ∉ s.renew names value :=
    fun c special old => not_mem_renew giveNames special old
  cases s with
  | style => exact keeps '=' (by simp) admitted
  | url =>
    obtain ⟨sign, opening, closing⟩ := admitted
    exact ⟨keeps '=' (by simp) sign, keeps '<' (by simp) opening, keeps '>' (by simp) closing⟩
  | cls | id | fragment | reference =>
    obtain ⟨sign, opening, closing, paren⟩ := admitted
    exact ⟨keeps '=' (by simp) sign, keeps '<' (by simp) opening, keeps '>' (by simp) closing,
      keeps '(' (by simp) paren⟩

/-- A value does not begin with a parenthesis unless it did before. -/
theorem closes_renew {s : Surface} {value : Text} (isAttribute : s.rule? ≠ none) {rest : Text}
    (split : (s.renew names value).dropWhile isBlank = ')' :: rest) :
    ∃ rest', value.dropWhile isBlank = ')' :: rest' := by
  have inDropped : ')' ∈ s.renew names value :=
    (List.dropWhile_suffix isBlank).subset (split ▸ List.mem_cons_self)
  have notInName : ∀ {token name : Text}, names.ids.get? token = some name → ')' ∉ name :=
    fun found member => absurd (((giveNames .id).isName found).2 ')' member) (by decide)
  cases s with
  | cls => exact closes_of_words (giveNames .cls) (words_relabelClassValue (giveNames .cls)) split
  | id =>
    simp only [renew, Renaming.apply] at split inDropped
    cases found : names.ids.get? value with
    | none => exact ⟨rest, by simpa [found] using split⟩
    | some name => exact absurd (by simpa [found] using inDropped) (notInName found)
  | fragment =>
    simp only [renew] at split inDropped
    cases changed : relabelFragment names.ids value with
    | none => exact ⟨rest, by simpa [changed] using split⟩
    | some value' =>
      obtain ⟨token, name, rfl, _, found, rfl⟩ := relabelFragment_eq_some changed
      rw [changed, Option.getD_some] at inDropped
      exact absurd ((List.mem_cons.mp inDropped).resolve_left (by decide)) (notInName found)
  | reference => exact closes_of_words (giveNames .id) (words_wordScript (giveNames .id)) split
  | url | style => simp [rule?] at isAttribute

omit giveNames in
/-- A value that has changed is one that the rule of its attribute accepts. -/
theorem accepts_renew {s : Surface} {value : Text} {rule : AttributeRule} (isRule : s.rule? = some rule)
    (changed : s.renew names value ≠ value) : rule.accepts (s.renew names value) = true := by
  cases s with
  | cls | id | reference =>
    obtain rfl := Option.some.inj isRule
    rfl
  | fragment =>
    obtain rfl := Option.some.inj isRule
    cases renamed : relabelFragment names.ids value with
    | none => simp [renew, renamed] at changed
    | some value' =>
      obtain ⟨token, name, _, _, _, rfl⟩ := relabelFragment_eq_some renamed
      simp [renew, renamed]
  | url | style => simp [rule?] at isRule

/-- **Holes may be filled with new values.** -/
theorem refill_renew {s : Surface} {value : Text} (admitted : s.admits value)
    (changed : s.renew names value ≠ value) : Refill s value (s.renew names value) where
  admitted := admits_renew giveNames admitted
  quotes _ quoted member := quotes_renew giveNames quoted member
  accepted _ isRule := accepts_renew isRule changed
  closes isAttribute q rest quoted closes :=
    closesUrl_append quoted (fun _ split => closes_renew giveNames isAttribute split) closes
  named isUrl := by
    subst isUrl
    simp only [renew, Renaming.apply] at changed ⊢
    cases found : names.ids.get? value with
    | none => simp [found] at changed
    | some name =>
      obtain ⟨nonempty, plain⟩ := (giveNames .id).isName found
      exact ⟨by simpa using nonempty, fun d member => (identifier_facts (plain d
        (by simpa using member))).2.2.1⟩
  ended isStyle more noEnd := by
    subst isStyle
    exact noEndTag_relabelStylesheet giveNames noEnd

end Surface

end Relabel
