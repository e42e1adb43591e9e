/-
**Scanning a relabelled stylesheet.**

New names move what stands behind them, change the byte before the next sigil, and may turn a name that is accepted
for its shape only into one that needs none. The scan of the new stylesheet nevertheless accepts and rejects what
the scan of the old one did.

* `Segments.forall₂_selectorsFrom_replaced`: the selectors of a cut whose names are replaced.
* `locatedSelectors_relabelStylesheet`: scanning commutes with relabelling.
-/

import Relabel.Proofs.Scan.Outside
import Relabel.Proofs.Substitution.SelectorGrammar

namespace Relabel

/-- The kind of a selector is that of its sigil, whatever its name. -/
theorem Segment.kind_replaced (segment : Segment) (replace : Segment → Option Text) :
    (segment.replaced replace).kind = segment.kind := rfl

/-- **Selectors with new names** keep their kinds and their order, wherever they stand. -/
theorem Segments.forall₂_selectorsFrom_replaced {replace : Segment → Option Text} (new : Kind → Text → Text)
    (renews : ∀ segment : Segment, (segment.replaced replace).value = new segment.kind segment.value)
    (segments : Segments) (offset offset' : Nat) :
    List.Forall₂ (fun before after => after.1 = before.1 ∧ after.2.value = new before.1 before.2.value)
      (segments.selectorsFrom offset) ((segments.replaced replace).selectorsFrom offset') := by
  rcases segments with ⟨found, rest⟩
  induction found generalizing offset offset' with
  | nil => exact List.Forall₂.nil
  | cons segment found ih =>
    refine List.Forall₂.cons ⟨segment.kind_replaced replace, renews segment⟩ ?_
    exact ih _ _

/-- **Scanning commutes with relabelling.** The selectors of the new stylesheet are those of the old one, of the
same kinds and in the same order, each with the new name if its kind of token has one. What stands before, between
and behind the names is the same. -/
theorem locatedSelectors_relabelStylesheet {names : Renamings} (starting : names.Starting) (css : Text) :
    List.Forall₂ (fun before after =>
        after.1 = before.1 ∧ after.2.value = (names.ofKind before.1).apply before.2.value)
      (locatedSelectors css) (locatedSelectors (relabelStylesheet names css))
    ∧ SameOutside css ((locatedSelectors css).map Prod.snd) (relabelStylesheet names css)
      ((locatedSelectors (relabelStylesheet names css)).map Prod.snd) := by
  have cut := selectors_cut_relabelStylesheet starting css
  have located : ∀ text, locatedSelectors text = (selectors.cut text).selectorsFrom 0 := fun _ => rfl
  rw [located, located, cut, Segments.map_snd_selectorsFrom, Segments.map_snd_selectorsFrom]
  constructor
  · exact Segments.forall₂_selectorsFrom_replaced (fun kind => (names.ofKind kind).apply) (fun _ => rfl)
      (selectors.cut css) 0 0
  · have outside := (selectors.cut css).sameOutside_replaced
      fun selector => (names.ofKind selector.kind).get? selector.value
    rwa [Matcher.text_cut] at outside

/-- A name that is accepted for its shape becomes one that needs none, a class right behind it is still found, and
one behind a character that continues a name is still not. -/
theorem locatedSelectors_relabelStylesheet_digest :
    ∃ (css : Text) (names : Renamings), names.Starting
      ∧ relabelStylesheet names css = "é.a .card-1.long_name#n2.b 5.a{}".toList
      ∧ SameOutside css ((locatedSelectors css).map Prod.snd) (relabelStylesheet names css)
        ((locatedSelectors (relabelStylesheet names css)).map Prod.snd)
      ∧ (locatedSelectors css).map (fun found => found.2.value)
        = ["0123456789abcdef0123456789abcdef".toList, "a".toList, "y".toList, "b".toList]
      ∧ (locatedSelectors (relabelStylesheet names css)).length = 4 := by
  have starting : Renamings.Starting
      ⟨OrderedMap.ofList [("0123456789abcdef0123456789abcdef".toList, "card-1".toList),
        ("a".toList, "long_name".toList)], OrderedMap.ofList [("y".toList, "n2".toList)]⟩ := by
    rintro (_ | _) <;> decide
  obtain ⟨related, outside⟩ := locatedSelectors_relabelStylesheet starting
    "é.a .0123456789abcdef0123456789abcdef.a#y.b 5.a{}".toList
  refine ⟨_, _, starting, by decide +kernel, outside, by decide +kernel, ?_⟩
  exact related.length_eq.symm.trans (by decide +kernel)

end Relabel
