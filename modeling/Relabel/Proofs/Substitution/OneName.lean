/-
**One name after the other.**

Relabelling a stylesheet replaces the names of its selectors one after the other. Replacing one of them
leaves all other selectors where they are, so what each such step preserves is preserved by all.

* `Segments.Swaps`: one value of a cut replaced.
* `Segments.Swaps.captures_cases`: what is captured before it is captured afterwards.
* `Segments.Swaps.captures_behind`, `Segments.Swaps.captures_ahead`: on either side of the value.
* `Segments.replaced_induction`: replacing values, one after the other.
* `selectors_cut_swap`: the selectors of a stylesheet with one name replaced.
* `relabelStylesheet_induction`: relabelling, one selector after the other.
-/

import Relabel.Proofs.Substitution.Stylesheet

namespace Relabel

namespace Segments

/-! ### One value -/

/-- The value `old` that stands between `x` and `y` is replaced by `new`. -/
inductive Swaps (old new y : Text) : (x : Text) → (segments segments' : Segments) → Prop
  | here (gap : Text) (quote : Option Char) (name : Option Text) {segments : Segments}
      (text : segments.text = y) :
      Swaps old new y gap (segments.push ⟨gap, old, quote, name⟩) (segments.push ⟨gap, new, quote, name⟩)
  | later (segment : Segment) {x : Text} {segments segments' : Segments}
      (behind : Swaps old new y x segments segments') :
      Swaps old new y (segment.gap ++ segment.value ++ x) (segments.push segment)
        (segments'.push segment)

/-- A captured value can be replaced. -/
theorem Captures.exists_swaps {segments : Segments} {x old y : Text}
    (captured : segments.Captures x old y) (new : Text) :
    ∃ segments', Swaps old new y x segments segments' := by
  rcases segments with ⟨found, rest⟩
  induction found generalizing x with
  | nil => exact captured.elim
  | cons segment found ih =>
    rcases captured with ⟨rfl, rfl, rfl⟩ | ⟨further, rfl, deeper⟩
    · have behind : text ⟨found, rest⟩ = _ := rfl
      exact ⟨_, Swaps.here segment.gap segment.quote segment.name behind⟩
    · obtain ⟨segments', swaps⟩ := ih deeper
      exact ⟨_, swaps.later segment⟩

/-- A segment among others can be replaced. -/
theorem exists_swaps_append (before found : List Segment) (rest : Text) (segment : Segment) (new : Text) :
    ∃ x, Swaps segment.value new (text ⟨found, rest⟩) x ⟨before ++ segment :: found, rest⟩
      ⟨before ++ { segment with value := new } :: found, rest⟩ := by
  induction before with
  | nil => exact ⟨segment.gap, Swaps.here segment.gap segment.quote segment.name rfl⟩
  | cons first before ih =>
    obtain ⟨x, swaps⟩ := ih
    exact ⟨_, swaps.later first⟩

namespace Swaps

variable {old new x y x' v' y' : Text} {segments segments' : Segments}

theorem symm (swaps : Swaps old new y x segments segments') :
    Swaps new old y x segments' segments := by
  induction swaps with
  | here gap quote name text => exact here gap quote name text
  | later segment behind ih => exact later segment ih

/-- The value is captured before it is replaced. -/
theorem captures (swaps : Swaps old new y x segments segments') : segments.Captures x old y := by
  induction swaps with
  | here gap quote name text => exact captures_push.mpr (Or.inl ⟨rfl, rfl, text.symm⟩)
  | later segment behind ih => exact captures_push.mpr (Or.inr ⟨_, rfl, ih⟩)

/-- **What is captured before is captured afterwards**: the value itself, what stands behind it, and what
stands before it. -/
theorem captures_cases (swaps : Swaps old new y x segments segments')
    (captured : segments.Captures x' v' y') :
    (x' = x ∧ v' = old ∧ y' = y)
      ∨ (∃ r, x' = x ++ old ++ r ∧ y = r ++ v' ++ y' ∧ segments'.Captures (x ++ new ++ r) v' y')
      ∨ ∃ r, x = x' ++ v' ++ r ∧ y' = r ++ old ++ y ∧ segments'.Captures x' v' (r ++ new ++ y) := by
  induction swaps generalizing x' with
  | here gap quote name text =>
    rcases captures_push.mp captured with ⟨rfl, rfl, rfl⟩ | ⟨r, rfl, behind⟩
    · exact Or.inl ⟨rfl, rfl, text⟩
    · refine Or.inr (Or.inl ⟨r, rfl, text.symm.trans behind.text_eq, ?_⟩)
      exact captures_push.mpr (Or.inr ⟨r, rfl, behind⟩)
  | @later segment x segments segments' behind ih =>
    rcases captures_push.mp captured with ⟨rfl, rfl, rfl⟩ | ⟨further, rfl, deeper⟩
    · refine Or.inr (Or.inr ⟨x, rfl, behind.captures.text_eq, ?_⟩)
      exact captures_push.mpr (Or.inl ⟨rfl, rfl, behind.symm.captures.text_eq.symm⟩)
    · rcases ih deeper with ⟨rfl, rfl, rfl⟩ | ⟨r, rfl, rfl, later⟩ | ⟨r, rfl, rfl, later⟩
      · exact Or.inl ⟨rfl, rfl, rfl⟩
      · refine Or.inr (Or.inl ⟨r, by simp, rfl, ?_⟩)
        exact captures_push.mpr (Or.inr ⟨_, by simp, later⟩)
      · refine Or.inr (Or.inr ⟨r, by simp, rfl, ?_⟩)
        exact captures_push.mpr (Or.inr ⟨_, rfl, later⟩)

/-- What is captured behind the value stays there. -/
theorem captures_behind {r : Text} (swaps : Swaps old new y x segments segments') (nonempty : r ≠ [])
    (captured : segments.Captures (x ++ old ++ r) v' y') :
    segments'.Captures (x ++ new ++ r) v' y' := by
  have positive := List.length_pos_iff.mpr nonempty
  rcases swaps.captures_cases captured with ⟨same, _⟩ | ⟨r', same, _, found⟩ | ⟨r', same, _⟩
  · have lengths := congrArg List.length same
    simp only [List.length_append] at lengths
    omega
  · rwa [List.append_cancel_left same]
  · have lengths := congrArg List.length same
    simp only [List.length_append] at lengths
    omega

/-- What is captured ahead of the value stays there. -/
theorem captures_ahead {r : Text} (swaps : Swaps old new y (x' ++ v' ++ r) segments segments')
    (nonempty : r ≠ []) (captured : segments.Captures x' v' (r ++ old ++ y)) :
    segments'.Captures x' v' (r ++ new ++ y) := by
  have positive := List.length_pos_iff.mpr nonempty
  rcases swaps.captures_cases captured with ⟨same, _⟩ | ⟨r', same, _⟩ | ⟨r', same, _, found⟩
  · have lengths := congrArg List.length same
    simp only [List.length_append] at lengths
    omega
  · have lengths := congrArg List.length same
    simp only [List.length_append] at lengths
    omega
  · rwa [List.append_cancel_left same]

/-- One name replaced by one that may begin an identifier. -/
theorem renamed (swaps : Swaps old new y x segments segments')
    (starts : isIdentifierStart new = true) : segments.Renamed segments' := by
  induction swaps with
  | here gap quote name text =>
    refine ⟨List.Forall₂.cons ⟨new, rfl, Or.inr starts⟩ (List.forall₂_same.mpr fun segment _ => ?_), rfl⟩
    exact ⟨segment.value, rfl, Or.inl rfl⟩
  | later segment behind ih =>
    exact ⟨List.Forall₂.cons ⟨segment.value, rfl, Or.inl rfl⟩ ih.1, ih.2⟩

end Swaps

/-! ### One value after the other -/

/-- **Replacing values, one after the other.** What holds of some segments and is kept by each
replacement holds in the end. The induction is on the segments that are still to be replaced. -/
theorem replaced_induction (replace : Segment → Option Text) (segments : Segments)
    {motive : Segments → Prop} (base : motive segments)
    (step : ∀ segment new x y segments₁ segments₂, replace segment = some new →
      Swaps segment.value new y x segments₁ segments₂ → motive segments₁ → motive segments₂) :
    motive (segments.replaced replace) := by
  have general : ∀ before found rest, motive ⟨before ++ found, rest⟩ →
      motive ⟨before ++ found.map (·.replaced replace), rest⟩ := by
    intro before found rest
    induction found generalizing before with
    | nil => exact id
    | cons segment found ih =>
      intro holds
      have first : motive ⟨before ++ segment.replaced replace :: found, rest⟩ := by
        cases renamed : replace segment with
        | none => simpa [Segment.replaced, renamed] using holds
        | some new =>
          obtain ⟨x, swaps⟩ := exists_swaps_append before found rest segment new
          simpa [Segment.replaced, renamed] using step segment new x _ _ _ renamed swaps holds
      have behind := ih (before ++ [segment.replaced replace]) (by simpa using first)
      simpa using behind
  exact general [] segments.found segments.rest base

end Segments

/-! ### Selectors -/

/-- What stands around the name of a selector. -/
theorem selector_site {css x v y : Text} (captured : (selectors.cut css).Captures x v y) :
    ∃ front sigil, x = front ++ [sigil] ∧ (kindOfSigil? sigil).isSome = true ∧ v ≠ []
      ∧ (∀ c ∈ v, isNameChar c = true) ∧ ∀ c ∈ y.head?, isNameChar c = false := by
  obtain ⟨place, front, hit, found, rfl, rfl, rfl⟩ := Matcher.captures_cut captured
  obtain ⟨sigil, behind, _, isSigil, _, begins, _, rfl⟩ := readSelector_eq_some found
  exact ⟨front, sigil, rfl, isSigil, takeWhile_ne_nil_of_beginsName begins,
    fun c inName => List.mem_takeWhile_imp inName, stops_dropWhile isNameChar behind⟩

/-- **The selectors of a stylesheet with one name replaced.** -/
theorem selectors_cut_swap {css x old new y : Text} {segments : Segments}
    (swaps : Segments.Swaps old new y x (selectors.cut css) segments)
    (starts : isIdentifierStart new = true) : selectors.cut (x ++ new ++ y) = segments := by
  have cut := (cutAtSelectors_cutFrom .start css).renamed (swaps.renamed starts)
  rw [swaps.symm.captures.text_eq] at cut
  exact cut.cutFrom_eq

/-- **Relabelling, one selector after the other.** -/
theorem relabelStylesheet_induction {motive : Text → Prop} {names : Renamings}
    (starts : ∀ kind, ∀ name ∈ (names.ofKind kind).values, isIdentifierStart name = true) {css : Text}
    (base : motive css)
    (step : ∀ x old new y kind, (selectors.cut (x ++ old ++ y)).Captures x old y →
      (names.ofKind kind).get? old = some new → motive (x ++ old ++ y) → motive (x ++ new ++ y)) :
    motive (relabelStylesheet names css) := by
  have general := Segments.replaced_induction
    (fun selector => (names.ofKind selector.kind).get? selector.value) (selectors.cut css)
    (motive := fun segments => selectors.cut segments.text = segments ∧ motive segments.text)
    (by simpa only [Matcher.text_cut, true_and] using base) ?_
  · exact general.2
  · rintro segment new x y segments₁ segments₂ found swaps ⟨cut, holds⟩
    have start : isIdentifierStart new = true :=
      starts segment.kind new (List.mem_map.mpr ⟨_, OrderedMap.get?_eq_some_iff.mp found, rfl⟩)
    have old := swaps.captures
    have whole := old.text_eq
    rw [swaps.symm.captures.text_eq]
    rw [← cut] at swaps old
    rw [whole] at old holds
    exact ⟨selectors_cut_swap swaps start, step x _ new y segment.kind old found holds⟩

end Relabel
