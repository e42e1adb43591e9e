/-
**Separable documents.**

In a separable document no captured value holds a character with which a construct of another surface
could begin or end. Then captured values of different surfaces lie apart, and the document has a sound
marking.

* `Separable`: the condition.
* `Site.ends_before`: of two captured values, the one that begins first ends before the other begins.
* `Sited.exists_marking`: a marking for cuts with such values.
* `Separable.exists_marking`: a sound marking.
-/

import Relabel.Proofs.Markup.Captures
import Relabel.Proofs.Markup.Joint

namespace Relabel

open Text (byteLength)

/-! ### The condition -/

/-- Two findings have a byte in common. -/
def Finding.Overlaps (first second : Finding) : Prop :=
  max first.start second.start < min first.stop second.stop

/-- Values of attributes hold no equals signs, angle brackets and opening parentheses, names of
references no equals signs and angle brackets, bodies of style elements no equals signs; and no name of
a reference is in the body of a style element. -/
structure Separable (html : Text) : Prop where
  admitted : ∀ s : Surface, ∀ value ∈ (s.matcher.cut html).values, s.admits value
  apart : ∀ reference ∈ (urlReferences.cut html).findings, ∀ body ∈ (styleBodies.cut html).findings,
    ¬ reference.Overlaps body

instance (first second : Finding) : Decidable (first.Overlaps second) :=
  inferInstanceAs (Decidable (_ < _))

instance (html : Text) : Decidable (Separable html) :=
  decidable_of_iff
    ((∀ s ∈ Surface.all, ∀ value ∈ (s.matcher.cut html).values, s.admits value)
      ∧ ∀ reference ∈ (urlReferences.cut html).findings, ∀ body ∈ (styleBodies.cut html).findings,
          ¬ reference.Overlaps body)
    ⟨fun ⟨admitted, apart⟩ => ⟨fun s => admitted s (by cases s <;> decide), apart⟩,
      fun separable => ⟨fun s _ => separable.admitted s, separable.apart⟩⟩

/-! ### Two captured values -/

namespace Site

variable {s s' : Surface} {x v y x' v' y' : Text}

/-- The value of an attribute does not begin within a value that holds no equals sign. -/
theorem attr_not_within (site : Site s x v y) {rule' : AttributeRule} (isRule' : s'.rule? = some rule')
    (different : s ≠ s') {r : Text} (noSign : '=' ∉ r) : ¬ Site s' (x ++ r) v' y' := by
  intro site'
  obtain ⟨c, isStopper, front, rfl⟩ := site.stopper
  obtain ⟨solid, other, _⟩ := stopper_facts isStopper
  obtain ⟨name', written', sign', quote, front', _, inNames', spells', assigns', quoted', whole, _⟩ :=
    site'.of_rule isRule'
  by_cases empty : r = []
  · subst empty
    rw [List.append_nil] at whole
    obtain ⟨parts, rfl⟩ := List.append_singleton_inj.mp whole
    obtain ⟨rule, name, written, sign, front, _, isRule, inNames, spells, assigns, rfl, _⟩ :=
      site.of_quote quoted'
    have suffix : written ++ sign ++ [c] <:+ front ++ (written ++ sign) ++ [c] := ⟨front, by simp⟩
    exact Surface.not_both_opened different isRule isRule' inNames inNames' spells spells' assigns
      assigns' suffix ⟨front', by simp [parts]⟩
  · obtain ⟨r', rfl⟩ := ends_of_append whole.symm empty
    obtain ⟨before, behind, rfl, _, blank⟩ := assigns'
    rw [← List.append_assoc] at whole
    obtain ⟨parts, _⟩ := List.append_inj' whole rfl
    have noSign' : '=' ∉ r' := fun member => noSign (List.mem_append_left _ member)
    have notBehind : c ∉ behind := fun member => by simp [blank c member] at solid
    exact cons_append_ne noSign' notBehind other (s := front) (t := front' ++ (written' ++ before))
      (by simpa using parts)

/-- Without an opening parenthesis behind a quote, what is there does not end with that of a reference. -/
theorem opened_ne {opened front r word blanks : Text} {c : Char} (quoted : isQuote c = true)
    (noParen : '(' ∉ r) (spells : Spells "url(" word) (allBlank : ∀ b ∈ blanks, isBlank b = true) :
    opened ++ [c] ++ r ≠ front ++ (word ++ blanks) := by
  obtain ⟨letters, paren, rfl, sameParen, _⟩ :=
    (show Spells ("url".toList ++ ['(']) word from spells).last
  obtain rfl : paren = '(' := eq_of_sameLetter (by decide) sameParen
  have notParen : c ≠ '(' := by
    rintro rfl
    exact absurd quoted (by decide)
  have notInBlanks : c ∉ blanks := by
    intro member
    rcases eq_of_isQuote quoted with rfl | rfl <;> exact absurd (allBlank _ member) (by decide)
  intro same
  exact cons_append_ne noParen notInBlanks notParen (s := opened) (t := front ++ letters)
    (by simpa using same)

/-- The name of a reference does not begin within the value of an attribute. -/
theorem url_not_within (site : Site s x v y) {rule : AttributeRule} (isRule : s.rule? = some rule)
    {r : Text} (noParen : '(' ∉ r) : ¬ Site .url (x ++ r) v' y' := by
  intro site'
  obtain ⟨_, written, sign, c, front, _, _, _, ⟨before, behind, rfl, _, blank⟩, quoted, rfl, _⟩ :=
    site.of_rule isRule
  obtain ⟨word, blanks, opening, front', spells, allBlank, opens, whole, _⟩ := site'.of_url
  generalize inner : front ++ (written ++ (before ++ '=' :: behind)) = opened at whole
  by_cases empty : r = []
  · subst empty
    rw [List.append_nil] at whole
    obtain rfl := (List.append_singleton_inj.mp whole).2
    exact absurd quoted (by decide)
  · obtain ⟨r', rfl⟩ := ends_of_append whole.symm empty
    have noParen' : '(' ∉ r' := fun member => noParen (List.mem_append_left _ member)
    rw [← List.append_assoc] at whole
    obtain ⟨ends, _⟩ := List.append_inj' whole rfl
    rcases opens with rfl | ⟨quote, _, rfl⟩
    · exact opened_ne quoted noParen' spells allBlank (by simpa using ends)
    · rw [← List.append_assoc] at ends
      by_cases empty' : r' = []
      · -- The quote that opens the value would be the one before the sharp.
        subst empty'
        rw [List.append_nil] at ends
        obtain ⟨same, rfl⟩ := List.append_singleton_inj.mp ends
        have suffix : word ++ blanks ++ [c]
            <:+ front ++ (written ++ before) ++ '=' :: behind ++ [c] := by
          refine ⟨front', ?_⟩
          rw [← List.append_assoc, ← same, ← inner]
          simp
        exact not_suffix_of_spells spells allBlank blank suffix
      · obtain ⟨r'', rfl⟩ := ends_of_append ends.symm empty'
        rw [← List.append_assoc] at ends
        exact opened_ne quoted (fun member => noParen' (List.mem_append_left _ member)) spells allBlank
          (List.append_inj' ends rfl).1

/-- The body of a style element does not begin within a value that holds no end of a tag. -/
theorem style_not_within (site : Site s x v y) (different : s ≠ .style) {r : Text} (noTag : '>' ∉ r) :
    ¬ Site .style (x ++ r) v' y' := by
  intro site'
  obtain ⟨c, isStopper, front, rfl⟩ := site.stopper
  obtain ⟨front', more, whole, _⟩ := site'.of_style
  by_cases empty : r = []
  · subst empty
    rw [List.append_nil] at whole
    obtain rfl := (List.append_singleton_inj.mp whole).2
    exact different site.of_tagEnd.1
  · obtain ⟨r', rfl⟩ := ends_of_append whole.symm empty
    rw [← List.append_assoc] at whole
    exact noTag (List.mem_append_right r' List.mem_cons_self)

/-- **Of two captured values, the one that begins first ends before the other begins.** -/
theorem ends_before (different : s ≠ s') (site : Site s x v y) (site' : Site s' x' v' y')
    (admitted : s.admits v) (admitted' : s'.admits v') (same : x ++ v ++ y = x' ++ v' ++ y')
    (order : x.length ≤ x'.length)
    (free : s = .style → s' = .url → x.length + v.length ≤ x'.length) :
    x.length + v.length < x'.length := by
  by_contra within
  rw [not_lt] at within
  rw [List.append_assoc, List.append_assoc] at same
  obtain ⟨r, rfl, behind⟩ := exists_between same order
  rw [List.length_append] at within
  obtain ⟨more, rfl, ends⟩ := exists_between behind.symm (by omega)
  cases isRule' : s'.rule? with
  | some rule' =>
    have noSign : '=' ∉ r := fun member =>
      Surface.noSign_of_admits admitted (List.mem_append_left more member)
    exact site.attr_not_within isRule' different noSign site'
  | none =>
    cases s' with
    | cls | id | fragment | reference => simp [Surface.rule?] at isRule'
    | url =>
      cases isRule : s.rule? with
      | some rule =>
        have noParen : '(' ∉ r := fun member =>
          Surface.noParen_of_admits admitted isRule (List.mem_append_left more member)
        exact site.url_not_within isRule noParen site'
      | none =>
        cases s with
        | cls | id | fragment | reference => simp [Surface.rule?] at isRule
        | url => exact different rfl
        | style =>
          -- The name would begin with the end tag of the element.
          have far := free rfl rfl
          simp only [List.length_append] at far
          have empty : more = [] := List.length_eq_zero_iff.mp (by omega)
          subst empty
          obtain ⟨_, rest, _, rfl⟩ := site.of_style
          obtain ⟨_, _, _, _, _, _, _, _, nonempty⟩ := site'.of_url
          obtain ⟨d, v', rfl⟩ := List.exists_cons_of_ne_nil nonempty
          obtain rfl := (List.cons.inj ends).1
          exact admitted'.2.1 List.mem_cons_self
    | style =>
      have noTag : '>' ∉ r := fun member =>
        (Surface.noTag_of_admits admitted different).2 (List.mem_append_left more member)
      exact site.style_not_within different noTag site'

end Site

/-! ### The marking -/

/-- Cuts of one text on all surfaces, such that no name of a reference begins within the body of a style
element. -/
structure Sited (cuts : Surface → Segments) : Prop where
  site : ∀ s x v y, (cuts s).Captures x v y → Site s x v y
  admitted : ∀ s x v y, (cuts s).Captures x v y → s.admits v
  free : ∀ x v y x' v' y', (cuts .style).Captures x v y → (cuts .url).Captures x' v' y' →
    x.length ≤ x'.length → x.length + v.length ≤ x'.length

namespace Sited

variable {text : Text} {cuts : Surface → Segments} (sited : Sited cuts)
  (texts : ∀ s, (cuts s).text = text)

include sited texts

/-- **Values that are captured on different surfaces lie apart.** -/
theorem apart {s s' : Surface} (different : s ≠ s') : (cuts s).Apart (cuts s') := by
  intro x v y x' v' y' captured captured'
  have admitted := sited.admitted s x v y captured
  have admitted' := sited.admitted s' x' v' y' captured'
  have same : x ++ v ++ y = x' ++ v' ++ y' :=
    captured.text_eq.symm.trans ((texts s).trans ((texts s').symm.trans captured'.text_eq))
  have site := sited.site s x v y captured
  have site' := sited.site s' x' v' y' captured'
  rcases Nat.le_total x.length x'.length with order | order
  · refine Or.inl (site.ends_before different site' admitted admitted' same order ?_)
    rintro rfl rfl
    exact sited.free _ _ _ _ _ _ captured captured' order
  · refine Or.inr (site'.ends_before (Ne.symm different) site admitted' admitted same.symm order ?_)
    rintro rfl rfl
    exact sited.free _ _ _ _ _ _ captured' captured order

/-- **One marking for all cuts.** -/
theorem exists_marking (spaced : ∀ s, (cuts s).Spaced) :
    ∃ marking : Marking, marking.text = text ∧ (∀ s, marking.segments s = cuts s)
      ∧ ∀ hole ∈ marking.holes, hole.surface.admits hole.value := by
  obtain ⟨marking, whole, same⟩ :=
    Marking.exists_of_apart texts spaced fun _ _ different => sited.apart texts different
  refine ⟨marking, whole, same, fun hole member => ?_⟩
  obtain ⟨x, y, captured⟩ := Marking.exists_captures member
  rw [same] at captured
  exact sited.admitted _ x _ y captured

end Sited

namespace Separable

variable {html : Text}

/-- The name of a reference does not begin within the body of a style element. -/
theorem url_behind_style (separable : Separable html) {x v y x' v' y' : Text}
    (captured : (Surface.style.matcher.cut html).Captures x v y)
    (captured' : (Surface.url.matcher.cut html).Captures x' v' y')
    (order : x.length ≤ x'.length) : x.length + v.length ≤ x'.length := by
  by_contra within
  rw [not_le] at within
  have same : x ++ (v ++ y) = x' ++ (v' ++ y') := by
    have whole := captured.text_eq.symm.trans ((Matcher.text_cut _ html).trans
      ((Matcher.text_cut _ html).symm.trans captured'.text_eq))
    simpa using whole
  obtain ⟨r, rfl, behind⟩ := exists_between same order
  rw [List.length_append] at within
  obtain ⟨more, rfl, _⟩ := exists_between behind.symm (by omega)
  have shorter : more ≠ [] := by
    rintro rfl
    rw [List.append_nil] at within
    omega
  obtain ⟨_, _, _, _, _, _, _, _, nonempty⟩ := (site_of_captures captured').of_url
  obtain ⟨body, isBody, start, stop, _⟩ :=
    Segments.mem_findings.mpr ⟨_, _, captured, rfl, rfl⟩
  obtain ⟨reference, isReference, start', stop', _⟩ :=
    Segments.mem_findings.mpr ⟨_, _, captured', rfl, rfl⟩
  have positive := Text.byteLength_pos shorter
  have positive' := Text.byteLength_pos nonempty
  refine separable.apart reference isReference body isBody ?_
  simp only [Finding.Overlaps, start, stop, start', stop', Text.byteLength_append]
  omega

theorem sited (separable : Separable html) : Sited fun s => s.matcher.cut html where
  site _ _ _ _ captured := site_of_captures captured
  admitted s _ v _ captured := separable.admitted s v (Segments.mem_values.mpr ⟨_, _, captured⟩)
  free _ _ _ _ _ _ captured captured' order := separable.url_behind_style captured captured' order

/-- **A separable document has a sound marking.** -/
theorem exists_marking (separable : Separable html) :
    ∃ marking : Marking, marking.text = html ∧ marking.Sound fun _ => True := by
  have texts : ∀ s : Surface, (s.matcher.cut html).text = html := fun s => Matcher.text_cut _ html
  have spaced : ∀ s : Surface, (s.matcher.cut html).Spaced :=
    fun _ _ member => Matcher.gap_ne_nil member
  obtain ⟨marking, rfl, cuts, admitted⟩ := separable.sited.exists_marking texts spaced
  exact ⟨marking, rfl, fun s _ => (cuts s).symm, admitted⟩

end Separable

end Relabel
