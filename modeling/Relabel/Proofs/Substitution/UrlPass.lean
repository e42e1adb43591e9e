/-
**References within stylesheets are relabelled first.**

References are replaced before the bodies of style elements are. If a body refers to the names of its
selectors only, then this replaces some of the names early that would be replaced anyway. What is made of
the body afterwards is the same.

* `relabelUrls`: a text with the names that are referred to replaced.
* `relabelUrls_induction`: the names replaced one after the other.
* `relabelStylesheet_relabelUrls`: relabelling afterwards makes what it would have made before.
* `refill_relabelUrls`: the bodies of style elements may be so replaced.
-/

import Relabel.Proofs.Markup.Joint
import Relabel.Proofs.Substitution.UrlSelected

namespace Relabel

/-- The text with the names that references of the form `url(#name)` refer to replaced. -/
def relabelUrls (ids : Renaming) (text : Text) : Text :=
  (urlReferences.cut text).substitute fun found => ids.get? found.value

/-- Only names are renamed as ids, and no new name is renamed again. -/
structure Renamings.Settled (names : Renamings) : Prop where
  apt : names.Apt
  isName : ∀ id name, names.ids.get? id = some name → IsName id
  fresh : ∀ id name, names.ids.get? id = some name → names.ids.get? name = none

/-! ### One name after the other -/

/-- Where one name of a reference is replaced, all others keep their surroundings. -/
theorem sites_swap {old new x y : Text} {segments segments' : Segments} (isName : IsName old)
    (isName' : IsName new) (swaps : segments.Swaps old new y x segments')
    (sites : ∀ x v y, segments.Captures x v y → Site .url x v y) :
    ∀ x v y, segments'.Captures x v y → Site .url x v y := by
  intro x' v' y' captured
  have site := sites x old y swaps.captures
  have notInName : '#' ∉ old := fun member => absurd (isName.2 '#' member) (by decide)
  rcases swaps.symm.captures_cases captured with ⟨rfl, rfl, rfl⟩ | ⟨r, rfl, rfl, before⟩ |
    ⟨r, rfl, rfl, before⟩
  · exact site.url_named isName'.1 fun d member => (identifier_facts (isName'.2 d member)).2.2.1
  · -- The parenthesis that closes the reference stands between.
    have site' := sites _ v' y' before
    obtain ⟨_, _, _, _, _, _, _, sharp, _⟩ := site'.of_url
    obtain ⟨_, _, tail, rest, _, _, _, _, parts, ends⟩ := site_url_iff.mp site
    have nonempty : r ≠ [] := by
      rintro rfl
      rw [List.append_nil] at sharp
      obtain ⟨_, last⟩ := ends_of_append sharp.symm isName.1
      exact notInName (by simp [last])
    obtain ⟨_, last⟩ := ends_of_append sharp.symm nonempty
    rw [List.append_assoc] at parts
    obtain ⟨between, rfl, _⟩ := exists_behind (c := '#') parts.symm (by simp [last])
      (ends.not_mem (by decide) (by decide) (by decide))
    obtain ⟨closing, blanks, rfl, _⟩ := ends
    exact site'.url_front (c := ')') (by simp) (by decide) (by decide) (by decide) (by decide) _
  · -- The number sign that opens the reference stands between.
    have site' := sites x' v' _ before
    obtain ⟨_, _, _, _, _, _, _, sharp, _⟩ := site.of_url
    have nonempty : r ≠ [] := by
      rintro rfl
      obtain ⟨c, rest, rfl⟩ := List.exists_cons_of_ne_nil isName.1
      have stopped := site'.url_stops c rfl
      rw [(identifier_facts (isName.2 c (by simp))).2.2.1] at stopped
      exact absurd stopped (by decide)
    obtain ⟨_, last⟩ := ends_of_append sharp.symm nonempty
    rw [List.append_assoc] at site' ⊢
    exact site'.url_behind (c := '#') (by simp [last]) (by decide) (by decide) (by decide) _

section Pass

variable {names : Renamings} (settled : names.Settled) {css : Text} (selected : UrlsSelected css)

include settled selected

/-- **Names that are referred to are replaced one after the other**, each of them that of a selector. -/
theorem relabelUrls_induction {motive : Text → Prop} (base : motive css)
    (step : ∀ front old new y,
      (selectors.cut (front ++ ['#'] ++ old ++ y)).Captures (front ++ ['#']) old y →
      names.ids.get? old = some new → motive (front ++ ['#'] ++ old ++ y) →
      motive (front ++ ['#'] ++ new ++ y)) :
    motive (relabelUrls names.ids css) := by
  have general := Segments.replaced_induction (fun found => names.ids.get? found.value)
    (urlReferences.cut css) (motive := fun segments => UrlsSelected segments.text
      ∧ (∀ x v y, segments.Captures x v y → Site .url x v y) ∧ motive segments.text) ?_ ?_
  · exact general.2.2
  · rw [Matcher.text_cut]
    exact ⟨selected, fun x v y captured => site_of_captures captured, base⟩
  · rintro segment new x y segments segments' found swaps ⟨selected, sites, holds⟩
    have isName := settled.isName _ _ found
    obtain ⟨starts, discreet⟩ := settled.apt .id _ _ found
    have site := sites x _ y swaps.captures
    obtain ⟨_, _, _, _, _, _, _, sharp, _⟩ := site.of_url
    have whole := swaps.captures.text_eq
    rw [whole] at selected holds
    have captured := selected x _ y rfl site isName
    rw [swaps.symm.captures.text_eq]
    refine ⟨selected.swap captured starts discreet,
      sites_swap isName discreet.isName swaps sites, ?_⟩
    subst sharp
    exact step _ _ new y captured found holds

/-! ### What is made of a stylesheet -/

omit settled selected in
/-- Two cuts that differ in one name become the same if the name and its new name do. -/
theorem Segments.Swaps.replaced_eq {old new front y : Text} {segments segments' : Segments}
    (swaps : Segments.Swaps old new y (front ++ ['#']) segments segments')
    (replace : Segment → Option Text) (spaced : segments.Spaced)
    (same : ∀ gap quote name, (replace ⟨gap ++ ['#'], old, quote, name⟩).getD old
      = (replace ⟨gap ++ ['#'], new, quote, name⟩).getD new) :
    segments.replaced replace = segments'.replaced replace := by
  generalize place : front ++ ['#'] = x at swaps
  induction swaps generalizing front with
  | here gap quote name text =>
    subst place
    simp only [Segments.replaced_push, Segment.replaced, same]
  | @later segment x segments segments' behind ih =>
    have deeper : segments.Spaced := fun other member => spaced other (List.mem_cons_of_mem _ member)
    obtain ⟨front', rfl⟩ := ends_of_append place (behind.captures.before_ne_nil deeper)
    rw [Segments.replaced_push, Segments.replaced_push, ih deeper rfl]

/-- **Relabelling a stylesheet after its references makes what it would have made before.** -/
theorem relabelStylesheet_relabelUrls :
    relabelStylesheet names (relabelUrls names.ids css) = relabelStylesheet names css := by
  refine relabelUrls_induction settled selected
    (motive := fun text => relabelStylesheet names text = relabelStylesheet names css) rfl ?_
  intro front old new y captured found before
  obtain ⟨starts, _⟩ := settled.apt .id old new found
  obtain ⟨segments, swaps⟩ := captured.exists_swaps new
  have spaced : (selectors.cut (front ++ ['#'] ++ old ++ y)).Spaced :=
    fun _ member => Matcher.gap_ne_nil member
  have same := swaps.replaced_eq (fun selector =>
    (names.ofKind selector.kind).get? selector.value) spaced fun gap quote name => by
      have isId : ∀ value, Segment.kind ⟨gap ++ ['#'], value, quote, name⟩ = .id := by
        intro value
        simp [Segment.kind, kindOfSigil?]
      have renamed : (names.ofKind .id).get? old = some new := found
      have kept : (names.ofKind .id).get? new = none := settled.fresh old new found
      simp only [isId, renamed, kept, Option.getD_some, Option.getD_none]
  rw [← before, relabelStylesheet, relabelStylesheet, selectors_cut_swap swaps starts]
  exact (congrArg Segments.text same).symm

/-- Replacing references adds no end tag of a style element. -/
theorem noEndTag_relabelUrls {y : Text} (noEnd : NoEndTag css y) :
    NoEndTag (relabelUrls names.ids css) y := by
  refine relabelUrls_induction settled selected (motive := fun text => NoEndTag text y) noEnd ?_
  intro front old new rest _ found noEnd
  obtain ⟨_, discreet⟩ := settled.apt .id old new found
  have noTag : '<' ∉ new := fun member => absurd (discreet.isName.2 '<' member) (by decide)
  rw [noEndTag_append, noEndTag_append] at noEnd ⊢
  exact ⟨⟨noEndTag_of_sigil (by decide) noEnd.1.1, noEndTag_of_not_mem noTag⟩, noEnd.2⟩

/-- **The bodies of style elements may be so replaced.** -/
theorem refill_relabelUrls (admitted : Surface.style.admits css) :
    Refill .style css (relabelUrls names.ids css) := by
  have added : ∀ c ∈ relabelUrls names.ids css, c ∈ css ∨ isIdentifierChar c = true := by
    intro c member
    rcases Segments.mem_substitute member with old | ⟨segment, name, found, inName⟩
    · exact Or.inl (by rwa [Matcher.text_cut] at old)
    · exact Or.inr ((settled.apt .id _ _ found).2.isName.2 c inName)
  refine ⟨fun member => ?_, fun q quoted member => ?_, by simp [Surface.rule?], by simp [Surface.rule?],
    by simp, fun _ more noEnd => noEndTag_relabelUrls settled selected noEnd⟩
  · rcases added '=' member with old | plain
    · exact admitted old
    · exact absurd plain (by decide)
  · rcases added q member with old | plain
    · exact old
    · rw [(identifier_facts plain).2.1] at quoted
      exact absurd quoted (by decide)

end Pass

end Relabel
