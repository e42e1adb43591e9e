/-
**Relabelled stylesheets.**

* `IsName`: names that may take the place of tokens.
* `mem_relabelStylesheet`: relabelling adds no characters but those of names.
* `noEndTag_relabelStylesheet`: relabelling adds no end tag of a style element.
* `selectors_cut_relabelStylesheet`: the selectors of a relabelled stylesheet.
-/

import Relabel.Proofs.Container.Lookup
import Relabel.Proofs.Markup.Site
import Relabel.Proofs.Substitution.Selectors
import Relabel.Substitution.Stylesheet

namespace Relabel

/-! ### Names -/

/-- A text of letters, digits, underscores and hyphens that is not empty. -/
def IsName (name : Text) : Prop :=
  name ≠ [] ∧ ∀ c ∈ name, isIdentifierChar c = true

/-- All new names are names. -/
def Renaming.GivesNames (names : Renaming) : Prop :=
  ∀ name ∈ names.values, IsName name

instance (names : Renaming) : Decidable names.GivesNames :=
  inferInstanceAs (Decidable (∀ name ∈ names.values, name ≠ [] ∧ ∀ c ∈ name, isIdentifierChar c = true))

theorem Renaming.GivesNames.isName {names : Renaming} (givesNames : names.GivesNames)
    {token name : Text} (found : names.get? token = some name) : IsName name :=
  givesNames name (List.mem_map.mpr ⟨_, OrderedMap.get?_eq_some_iff.mp found, rfl⟩)

/-- All new names may begin an identifier. -/
def Renamings.Starting (names : Renamings) : Prop :=
  ∀ kind, ∀ name ∈ (names.ofKind kind).values, isIdentifierStart name = true

/-- What may begin an identifier is a name. -/
theorem isName_of_isIdentifierStart {name : Text} (valid : isIdentifierStart name = true) :
    IsName name :=
  plain_of_isIdentifierStart valid

/-- What holds of the characters of names. -/
theorem identifier_facts {c : Char} (plain : isIdentifierChar c = true) :
    isBlank c = false ∧ isQuote c = false ∧ isUrlNameChar c = true
      ∧ c ∉ ['=', '<', '>', '(', ')', '#'] := by
  have notBlank := not_isBlank_of_isIdentifierChar plain
  have others : ∀ d ∈ ['"', '\'', '=', '<', '>', '(', ')', '#'], c ≠ d := by
    rintro d member rfl
    have listed : ∀ d ∈ ['"', '\'', '=', '<', '>', '(', ')', '#'], isIdentifierChar d = false := by
      decide
    simp [listed c member] at plain
  have notQuote : isQuote c = false := by
    simp [isQuote, others '"' (by simp), others '\'' (by simp)]
  refine ⟨notBlank, notQuote, ?_, fun member => ?_⟩
  · simp [isUrlNameChar, notQuote, notBlank, others '(' (by simp), others ')' (by simp)]
  · exact others c (List.mem_cons_of_mem _ (List.mem_cons_of_mem _ member)) rfl

/-! ### Characters -/

theorem Segments.mem_substitute {segments : Segments} {replace : Segment → Option Text} {c : Char}
    (member : c ∈ segments.substitute replace) :
    c ∈ segments.text ∨ ∃ segment name, replace segment = some name ∧ c ∈ name := by
  rcases segments with ⟨found, rest⟩
  induction found with
  | nil => exact Or.inl member
  | cons segment found ih =>
    have pushed : (⟨segment :: found, rest⟩ : Segments) = push segment ⟨found, rest⟩ := rfl
    rw [pushed, substitute_push, List.mem_append, List.mem_append] at member
    rw [pushed, text_push]
    rcases member with (inGap | inValue) | behind
    · exact Or.inl (by simp [inGap])
    · cases renamed : replace segment with
      | none => exact Or.inl (by simp [renamed] at inValue; simp [inValue])
      | some name => exact Or.inr ⟨segment, name, renamed, by simpa [renamed] using inValue⟩
    · exact (ih behind).imp (fun later => by simp [later]) id

/-- Relabelling adds no characters but those of names. -/
theorem mem_relabelStylesheet {names : Renamings} (givesNames : ∀ kind, (names.ofKind kind).GivesNames)
    {css : Text} {c : Char} (member : c ∈ relabelStylesheet names css) :
    c ∈ css ∨ isIdentifierChar c = true := by
  rcases Segments.mem_substitute member with old | ⟨selector, name, found, inName⟩
  · exact Or.inl (by rwa [Matcher.text_cut] at old)
  · exact Or.inr (((givesNames selector.kind).isName found).2 c inName)

/-! ### End tags -/

theorem noEndTag_append {first second y : Text} :
    NoEndTag (first ++ second) y ↔ NoEndTag first (second ++ y) ∧ NoEndTag second y :=
  forall_suffix_append fun text => readStyleEnd text = none

theorem noEndTag_of_not_mem {text y : Text} (noTag : '<' ∉ text) : NoEndTag text y := by
  intro r nonempty suffix
  by_contra ended
  obtain ⟨⟨tail, rest⟩, ended⟩ := Option.ne_none_iff_exists'.mp ended
  obtain ⟨more, parts⟩ := readStyleEnd_eq_cons ended
  obtain ⟨d, r, rfl⟩ := List.exists_cons_of_ne_nil nonempty
  obtain rfl := (List.cons.inj parts).1
  exact noTag (suffix.subset List.mem_cons_self)

/-- Behind a sigil, the text does not matter to the end tags before it. -/
theorem noEndTag_of_sigil {front y y' : Text} {sigil : Char}
    (isSigil : (kindOfSigil? sigil).isSome = true) (noEnd : NoEndTag (front ++ [sigil]) y) :
    NoEndTag (front ++ [sigil]) y' := by
  obtain ⟨solid, _, _, _, foreign⟩ := sigil_facts isSigil
  intro r nonempty suffix
  have old := noEnd r nonempty suffix
  obtain ⟨before, parts⟩ := suffix
  obtain ⟨r', rfl⟩ := ends_of_append parts.symm nonempty
  have member : sigil ∈ r' ++ [sigil] := by simp
  rw [readStyleEnd_append member foreign solid, Option.map_eq_none_iff] at old ⊢
  exact old

/-- **Relabelling adds no end tag.** The induction is on the selectors. -/
theorem noEndTag_relabelStylesheet {names : Renamings}
    (givesNames : ∀ kind, (names.ofKind kind).GivesNames) {css y : Text} (noEnd : NoEndTag css y) :
    NoEndTag (relabelStylesheet names css) y := by
  have sigils : ∀ segment ∈ (selectors.cut css).found, ∃ front sigil, segment.gap = front ++ [sigil]
      ∧ (kindOfSigil? sigil).isSome = true ∧ ∀ c ∈ segment.value, isNameChar c = true :=
    fun _ member => sigil_of_mem_found member
  rw [← Matcher.text_cut selectors css] at noEnd
  unfold relabelStylesheet
  generalize selectors.cut css = segments at sigils noEnd ⊢
  rcases segments with ⟨found, rest⟩
  induction found with
  | nil => exact noEnd
  | cons segment found ih =>
    have pushed : (⟨segment :: found, rest⟩ : Segments) = Segments.push segment ⟨found, rest⟩ := rfl
    obtain ⟨front, sigil, gap, isSigil, inName⟩ := sigils segment List.mem_cons_self
    rw [pushed, Segments.text_push, noEndTag_append, noEndTag_append] at noEnd
    obtain ⟨⟨inGap, _⟩, behind⟩ := noEnd
    have later := ih (fun other member => sigils other (List.mem_cons_of_mem _ member)) behind
    rw [pushed, Segments.substitute_push, noEndTag_append, noEndTag_append]
    refine ⟨⟨?_, noEndTag_of_not_mem ?_⟩, later⟩
    · rw [gap] at inGap ⊢
      exact noEndTag_of_sigil isSigil inGap
    · cases found : (names.ofKind segment.kind).get? segment.value with
      | none => exact fun member => absurd (inName '<' member) (by decide)
      | some name =>
        intro member
        exact (identifier_facts (((givesNames segment.kind).isName found).2 '<' member)).2.2.2
          (by simp)

/-! ### Selectors -/

/-- The kind of a selector is decided by the end of its gap. -/
theorem Segment.kind_append (front : Text) {segment : Segment} (nonempty : segment.gap ≠ []) :
    Segment.kind { segment with gap := front ++ segment.gap } = segment.kind := by
  simp only [Segment.kind, List.getLast?_append_of_ne_nil front nonempty]

/-- **The selectors of a relabelled stylesheet** are the old ones with new names. -/
theorem selectors_cut_relabelStylesheet {names : Renamings} (starting : names.Starting) (css : Text) :
    selectors.cut (relabelStylesheet names css)
      = (selectors.cut css).replaced fun selector => (names.ofKind selector.kind).get? selector.value := by
  exact selectors_cutFrom_replaced (fun segment name found => starting segment.kind name
    (List.mem_map.mpr ⟨_, OrderedMap.get?_eq_some_iff.mp found, rfl⟩)) .start css

end Relabel
