/-
**Documents that can be relabelled again and again.**

A separable document need not be separable any more once it has been relabelled: the body of a style
element may then hold `url(#name)`. But the name is that of a selector of the body, and this stays so. A
document of which it holds has a marking whose holes are the references outside style elements; those
inside belong to the body.

* `Lasting`: the condition.
* `Separable.lasting`: separable documents are lasting.
* `captures_body_iff`: what is captured in a body is captured in the document.
* `Lasting.sited`, `Lasting.exists_marking`: the marking.
-/

import Relabel.Proofs.Markup.Separable
import Relabel.Proofs.Substitution.UrlSelected

namespace Relabel

/-- Captured values are as in a separable document, names of references aside; the names that the body of
a style element refers to are those of its selectors. -/
structure Lasting (html : Text) : Prop where
  admitted : ∀ s : Surface, s ≠ .url → ∀ value ∈ (s.matcher.cut html).values, s.admits value
  selected : ∀ body ∈ (styleBodies.cut html).values, UrlsSelected body

/-! ### References within bodies -/

section Body

variable {html before body behind : Text}
  (captured : (styleBodies.cut html).Captures before body behind)

include captured

theorem text_of_body : html = before ++ body ++ behind :=
  (Matcher.text_cut _ html).symm.trans captured.text_eq

/-- **What is captured in a body is captured in the document.** The tags around the body belong to no
reference. -/
theorem captures_body_iff {x v y : Text} :
    (urlReferences.cut body).Captures x v y
      ↔ (urlReferences.cut html).Captures (before ++ x) v (y ++ behind) := by
  have parts := text_of_body captured
  rw [captures_urlReferences_iff, captures_urlReferences_iff, parts]
  constructor
  · rintro ⟨rfl, site⟩
    exact ⟨by simp, site.url_within before behind⟩
  · rintro ⟨whole, site⟩
    have same : body = x ++ v ++ y := (List.append_left_inj behind).mp (by simpa using whole)
    obtain ⟨front, more, rfl, rfl⟩ := (site_of_captures (s := .style) captured).of_style
    rw [List.append_assoc, List.singleton_append] at site
    have inner := site.url_after (by decide) (by decide) (by decide) (by decide)
    exact ⟨same, inner.url_until (by decide) (by decide) (by decide)⟩

end Body

/-- The text `x` does not end within the body of a style element. -/
def Outside (html x : Text) : Prop :=
  ∀ before body behind, (styleBodies.cut html).Captures before body behind →
    before.length ≤ x.length → before.length + body.length ≤ x.length

/-- A reference to a name that begins within a body ends there. -/
theorem exists_body {html x v y : Text} (captured : (urlReferences.cut html).Captures x v y)
    (isName : IsName v) (inside : ¬ Outside html x) :
    ∃ before body behind x' y', (styleBodies.cut html).Captures before body behind
      ∧ x = before ++ x' ∧ y = y' ++ behind ∧ (urlReferences.cut body).Captures x' v y' := by
  simp only [Outside, not_forall, not_le] at inside
  obtain ⟨before, body, behind, isBody, order, within⟩ := inside
  obtain ⟨_, more, _, rfl⟩ := (site_of_captures (s := .style) isBody).of_style
  have whole : before ++ (body ++ '<' :: more) = x ++ (v ++ y) := by
    rw [← List.append_assoc, ← text_of_body isBody, ← List.append_assoc]
    exact (captures_urlReferences_iff.mp captured).1
  obtain ⟨x', rfl, split⟩ := exists_between whole order
  obtain ⟨rest, rfl, named⟩ := exists_between split.symm (by
    rw [List.length_append] at within
    omega)
  have notInName : '<' ∉ v := fun member => absurd (isName.2 '<' member) (by decide)
  rw [List.append_cons] at named
  obtain ⟨inside, ends, rfl⟩ := exists_behind named (by simp) notInName
  obtain ⟨y', rfl⟩ : ∃ y', inside = y' ++ ['<'] := by
    refine ends_of_append ends fun empty => notInName ?_
    rw [empty, List.append_nil] at ends
    simp [← ends]
  rw [← List.append_assoc] at ends
  obtain ⟨rfl, _⟩ := List.append_inj' ends rfl
  refine ⟨before, _, _, x', y', isBody, rfl, by simp, (captures_body_iff isBody).mpr ?_⟩
  simpa using captured

/-! ### Separable documents -/

/-- **Separable documents are lasting**, for the bodies of their style elements hold no references. -/
theorem Separable.lasting {html : Text} (separable : Separable html) : Lasting html where
  admitted s _ := separable.admitted s
  selected body member := by
    rintro x v y rfl site _
    obtain ⟨before, behind, isBody⟩ := Segments.mem_values.mp member
    have captured := (captures_body_iff isBody).mp (captures_urlReferences_iff.mpr ⟨rfl, site⟩)
    have far := separable.url_behind_style isBody captured (by simp)
    obtain ⟨_, _, _, _, _, _, _, _, nonempty⟩ := site.of_url
    have positive := List.length_pos_iff.mpr nonempty
    simp only [List.length_append] at far
    omega

/-! ### The marking -/

/-- The marking of a lasting document: references to names are holes if they stand outside style
elements. -/
structure Marking.Lasts (marking : Marking) : Prop where
  sound : marking.Sound (· ≠ .url)
  urls : ∀ x v y, (marking.segments .url).Captures x v y
    ↔ (urlReferences.cut marking.text).Captures x v y ∧ IsName v ∧ Outside marking.text x

/-- The cuts of a document on all surfaces, that of its references aside. -/
def cutsWith (html : Text) (urls : Segments) : Surface → Segments
  | .url => urls
  | s => s.matcher.cut html

theorem cutsWith_of_ne {html : Text} {urls : Segments} {s : Surface} (different : s ≠ .url) :
    cutsWith html urls s = s.matcher.cut html := by
  cases s with
  | url => exact absurd rfl different
  | _ => rfl

section Cuts

variable {html : Text} {urls : Segments}
  (keeps : Segments.Keeps (fun x v => IsName v ∧ Outside html x) (urlReferences.cut html) urls)

include keeps

theorem text_cutsWith (s : Surface) : (cutsWith html urls s).text = html := by
  by_cases isUrl : s = .url
  · subst isUrl
    exact keeps.1.trans (Matcher.text_cut _ _)
  · rw [cutsWith_of_ne isUrl, Matcher.text_cut]

/-- The references to names outside style elements, and all that is captured on other surfaces. -/
theorem Lasting.sited (lasting : Lasting html) : Sited (cutsWith html urls) where
  site s x v y captured := by
    by_cases isUrl : s = .url
    · subst isUrl
      exact (captures_urlReferences_iff.mp ((keeps.2 x v y).mp captured).1).2
    · rw [cutsWith_of_ne isUrl] at captured
      exact site_of_captures captured
  admitted s x v y captured := by
    by_cases isUrl : s = .url
    · subst isUrl
      obtain ⟨_, isName, _⟩ := (keeps.2 x v y).mp captured
      exact ⟨fun member => absurd (isName.2 '=' member) (by decide),
        fun member => absurd (isName.2 '<' member) (by decide),
        fun member => absurd (isName.2 '>' member) (by decide)⟩
    · rw [cutsWith_of_ne isUrl] at captured
      exact lasting.admitted s isUrl v (Segments.mem_values.mpr ⟨x, y, captured⟩)
  free x v y x' v' y' isBody captured order :=
    ((keeps.2 x' v' y').mp captured).2.2 x v y isBody order

end Cuts

/-- **A lasting document has such a marking.** -/
theorem Lasting.exists_marking {html : Text} (lasting : Lasting html) :
    ∃ marking : Marking, marking.text = html ∧ marking.Lasts := by
  obtain ⟨urls, keeps, spacedUrls⟩ := Segments.exists_fewer
    (fun x v => IsName v ∧ Outside html x) (urlReferences.cut html) fun _ member => Matcher.gap_ne_nil member
  have spaced : ∀ s, (cutsWith html urls s).Spaced := by
    intro s
    by_cases isUrl : s = .url
    · subst isUrl
      exact spacedUrls
    · rw [cutsWith_of_ne isUrl]
      exact fun _ member => Matcher.gap_ne_nil member
  obtain ⟨marking, rfl, same, admitted⟩ :=
    (lasting.sited keeps).exists_marking (text_cutsWith keeps) spaced
  refine ⟨marking, rfl, ⟨fun s different => ?_, admitted⟩, fun x v y => ?_⟩
  · rw [same, cutsWith_of_ne different]
  · rw [same]
    exact keeps.2 x v y

/-- A document with a sound marking is lasting if the bodies of its style elements refer to selectors
only. -/
theorem Marking.Sound.lasting {marking : Marking} (sound : marking.Sound (· ≠ .url))
    (selected : ∀ hole ∈ marking.holes, hole.surface = .style → UrlsSelected hole.value) :
    Lasting marking.text where
  admitted s different value member := by
    rw [sound.cuts s different] at member
    obtain ⟨hole, inHoles, rfl, rfl⟩ := Marking.mem_values member
    exact sound.admitted hole inHoles
  selected body member := by
    have cut : styleBodies.cut marking.text = marking.segments .style :=
      sound.cuts .style (by decide)
    rw [cut] at member
    obtain ⟨hole, inHoles, isStyle, rfl⟩ := Marking.mem_values member
    exact selected hole inHoles isStyle

end Relabel
