/-
**Relabelling place by place.**

Each pass over a document replaces what it captures and nothing else: the same places are captured in the new
document, in the same order and between the same quotes, and each value is the new value of the old one. This is
so in any text, however malformed: a new value revives no attempt that failed before it, and it is not closed early.

* `ClassValueBecomes`, `FragmentBecomes`: what becomes of the value of an attribute.
* `Surface.renews`: new values on the surfaces of attributes.
* `relabelAttributes_pointwise`: classes, ids and links.
* `relabelStyles_pointwise`: the bodies of style elements.
-/

import Relabel.Proofs.Scan.AttributeReplaced
import Relabel.Proofs.Scan.ElementReplaced
import Relabel.Proofs.Scan.Outside
import Relabel.Proofs.Substitution.Values

namespace Relabel

/-! ### What becomes of a value -/

/-- What a class value becomes: its tokens with those that have a new name replaced, joined by single spaces. Without
such a token it stays as it is. -/
inductive ClassValueBecomes (names : Renaming) (old : Text) : Text → Prop where
  | kept (unnamed : ∀ token ∈ Text.words old, names.get? token = none) : ClassValueBecomes names old old
  | renamed {token name : Text} (inWords : token ∈ Text.words old) (named : names.get? token = some name) :
      ClassValueBecomes names old (Text.join " " ((Text.words old).map names.apply))

/-- An id with a new name that a link can lead to: it is not empty, holds no white space and does not begin with an
exclamation mark. -/
structure Linkable (names : Renaming) (token name : Text) : Prop where
  named : names.get? token = some name
  nonempty : token ≠ []
  solid : ∀ c ∈ token, isBlank c = false
  plain : token.head? ≠ some '!'

/-- What the value of a link becomes. -/
inductive FragmentBecomes (names : Renaming) (old : Text) : Text → Prop where
  | renamed {token name : Text} (whole : old = '#' :: token) (linkable : Linkable names token name) :
      FragmentBecomes names old ('#' :: name)
  | kept (unlinkable : ∀ token name, old = '#' :: token → ¬ Linkable names token name) :
      FragmentBecomes names old old

theorem relabelClassValue_becomes (names : Renaming) (value : Text) :
    ClassValueBecomes names value ((relabelClassValue names value).getD value) := by
  unfold relabelClassValue
  by_cases renamed : (Text.words value).any names.contains = true
  · rw [if_pos renamed, Option.getD_some]
    obtain ⟨token, inWords, contained⟩ := List.any_eq_true.mp renamed
    obtain ⟨name, named⟩ := Option.isSome_iff_exists.mp contained
    exact ClassValueBecomes.renamed inWords named
  · rw [if_neg renamed, Option.getD_none]
    refine ClassValueBecomes.kept fun token inWords => ?_
    by_contra named
    exact renamed (List.any_eq_true.mpr ⟨token, inWords, Option.isSome_iff_ne_none.mpr named⟩)

theorem isForeignFragment_eq_false_iff {token : Text} :
    isForeignFragment token = false
      ↔ token ≠ [] ∧ (∀ c ∈ token, isBlank c = false) ∧ token.head? ≠ some '!' := by
  simp only [isForeignFragment, Bool.or_eq_false_iff, decide_eq_false_iff_not, List.any_eq_false,
    Bool.not_eq_true]
  tauto

theorem relabelFragment_becomes (names : Renaming) (value : Text) :
    FragmentBecomes names value ((relabelFragment names value).getD value) := by
  cases changed : relabelFragment names value with
  | some value' =>
    obtain ⟨token, name, whole, own, named, rfl⟩ := relabelFragment_eq_some changed
    obtain ⟨nonempty, solid, plain⟩ := isForeignFragment_eq_false_iff.mp own
    exact FragmentBecomes.renamed whole ⟨named, nonempty, solid, plain⟩
  | none =>
    refine FragmentBecomes.kept ?_
    rintro token name rfl ⟨named, nonempty, solid, plain⟩
    have own := isForeignFragment_eq_false_iff.mpr ⟨nonempty, solid, plain⟩
    have renamed : relabelFragment names ('#' :: token) = some ('#' :: name) := by
      show (if isForeignFragment token then none else (names.get? token).map ('#' :: ·)) = _
      rw [own, named]
      rfl
    simp [renamed] at changed

/-! ### Attributes -/

/-- **New values on the surface of an attribute** bring no quotes, and are of interest if the old ones are. -/
theorem Surface.renews {names : Renamings} (giveNames : names.GiveNames) (s : Surface) {rule : AttributeRule}
    (isRule : s.rule? = some rule) (replace : Text → Option Text)
    (renewal : ∀ value, (replace value).getD value = s.renew names value) :
    rule.Renews fun segment => replace segment.value where
  careless _ _ _ := rfl
  plain := {
    foreign := fun name inNames q quoted => by
      have stopper : q ∈ ['"', '\'', '#', '>'] := by
        rcases eq_of_isQuote quoted with rfl | rfl <;> simp
      exact (stopper_facts stopper).2.2.1 name (Surface.mem_attributeNames isRule inNames)
    headed := Surface.headed isRule }
  adds segment q quoted member := by
    have inNew : q ∈ s.renew names segment.value := (renewal segment.value).subst member
    exact quotes_renew giveNames quoted inNew
  accepted segment accepted := by
    show rule.accepts ((replace segment.value).getD segment.value) = true
    rw [renewal]
    by_cases same : s.renew names segment.value = segment.value
    · rwa [same]
    · exact accepts_renew isRule same

/-- **The passes over attributes work place by place.** In any text the new document has the same class attributes,
id attributes and links as the old one, each with the new value of the old one, and nothing else is new. -/
theorem relabelAttributes_pointwise {names : Renaming} (givesNames : names.GivesNames) (html : Text) :
    classAttributes.Rewrites (ClassValueBecomes names) html (relabelClassAttributes names html)
    ∧ idAttributes.Rewrites (fun old new => new = names.apply old) html (relabelIdAttributes names html)
    ∧ fragmentAttributes.Rewrites (FragmentBecomes names) html (relabelFragments names html) := by
  have both : Renamings.GiveNames ⟨names, names⟩ := by
    rintro (_ | _) <;> exact givesNames
  refine ⟨?_, ?_, ?_⟩
  · have renews := Surface.renews both .cls rfl (relabelClassValue names) fun _ => rfl
    exact renews.steady.rewrites fun segment _ => relabelClassValue_becomes names segment.value
  · have renews := Surface.renews both .id rfl names.get? fun _ => rfl
    exact renews.steady.rewrites fun segment _ => rfl
  · have renews := Surface.renews both .fragment rfl (relabelFragment names) fun _ => rfl
    exact renews.steady.rewrites fun segment _ => relabelFragment_becomes names segment.value

/-- Values with the other quote and with white space beyond ASCII, an attribute that is none, a link that leads to no
id and an attribute that is never closed. -/
theorem relabelAttributes_pointwise_mixed :
    ∃ (html : Text) (names : Renaming), names.GivesNames
      ∧ classAttributes.Rewrites (ClassValueBecomes names) html (relabelClassAttributes names html)
      ∧ idAttributes.Rewrites (fun old new => new = names.apply old) html (relabelIdAttributes names html)
      ∧ fragmentAttributes.Rewrites (FragmentBecomes names) html (relabelFragments names html)
      ∧ (classAttributes.cut html).values = ["a\u3000'b'".toList, "b \"b".toList]
      ∧ relabelClassAttributes names html
        = "<p id=\"a\" class=\"n1 'b'\" CLASS = 'b \"b' xid='a' href='#a' href=\"#!a\" class='a".toList
      ∧ relabelIdAttributes names html
        = "<p id=\"n1\" class=\"a\u3000'b'\" CLASS = 'b \"b' xid='a' href='#a' href=\"#!a\" class='a".toList
      ∧ relabelFragments names html
        = "<p id=\"a\" class=\"a\u3000'b'\" CLASS = 'b \"b' xid='a' href='#n1' href=\"#!a\" class='a".toList := by
  have givesNames : Renaming.GivesNames (OrderedMap.ofList [("a".toList, "n1".toList), ("!a".toList, "n2".toList)]) := by
    decide
  obtain ⟨classes, ids, fragments⟩ := relabelAttributes_pointwise givesNames
    "<p id=\"a\" class=\"a\u3000'b'\" CLASS = 'b \"b' xid='a' href='#a' href=\"#!a\" class='a".toList
  refine ⟨_, _, givesNames, classes, ids, fragments, ?_, ?_, ?_, ?_⟩ <;> decide +kernel

/-! ### Style elements -/

/-- **The pass over style elements works place by place.** In any text the new document has the same style elements as
the old one, each with the old body relabelled, and nothing else is new. -/
theorem relabelStyles_pointwise {names : Renamings} (giveNames : names.GiveNames) (html : Text) :
    styleBodies.Rewrites (fun old new => new = relabelStylesheet names old) html (relabelStyles names html) := by
  have renews : BodyRenews fun body => some (relabelStylesheet names body.value) := {
    careless := fun _ _ _ => rfl
    noEnd := fun _ _ noEnd => noEndTag_relabelStylesheet giveNames noEnd }
  exact renews.steady.rewrites fun _ _ => rfl

/-- A start tag in another case and with an attribute, a start tag within a body, an end tag that is spelt with a long
s and has white space, and an element that is never closed. -/
theorem relabelStyles_pointwise_nested :
    ∃ (html : Text) (names : Renamings), names.GiveNames
      ∧ styleBodies.Rewrites (fun old new => new = relabelStylesheet names old) html (relabelStyles names html)
      ∧ (styleBodies.cut html).values = [".a <style> #b </styles>".toList]
      ∧ relabelStyles names html = "<STYLE id='.a'>.n1 <style> #n2 </styles></\u017Ftyle ><style>.a".toList := by
  have giveNames : Renamings.GiveNames
      ⟨OrderedMap.ofList [("a".toList, "n1".toList)], OrderedMap.ofList [("b".toList, "n2".toList)]⟩ := by
    rintro (_ | _) <;> decide
  have rewrites := relabelStyles_pointwise giveNames
    "<STYLE id='.a'>.a <style> #b </styles></\u017Ftyle ><style>.a".toList
  exact ⟨_, _, giveNames, rewrites, by decide +kernel, by decide +kernel⟩

end Relabel
