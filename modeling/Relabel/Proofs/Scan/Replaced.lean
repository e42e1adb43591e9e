/-
**Texts with other values.**

When the values that a matcher captures in a text are replaced, the new text need not be cut where the old one is:
a new value may end early or revive an attempt that failed before it. It is cut there if the matcher misses in the
new text where it missed in the old one, and matches again what it matched.

* `Segments.replaced`: segments with other values.
* `Matcher.Steady`: what is asked of a matcher.
* `Matcher.Steady.cutFrom_replaced`: the new text is cut where the old one is.
* `Matcher.replaced_cases`: where a text first changes.
-/

import Relabel.Proofs.Scan.Cut

namespace Relabel

/-! ### Segments -/

/-- The segments with the values for which `replace` gives another one replaced. -/
def Segments.replaced (segments : Segments) (replace : Segment → Option Text) : Segments :=
  { segments with found := segments.found.map (·.replaced replace) }

theorem Segments.replaced_push (segment : Segment) (segments : Segments)
    (replace : Segment → Option Text) :
    (segments.push segment).replaced replace
      = (segments.replaced replace).push (segment.replaced replace) := rfl

/-- Text in front of the first gap does not matter to `replace`. -/
def Careless (replace : Segment → Option Text) : Prop :=
  ∀ front segment, segment.gap ≠ [] →
    replace { segment with gap := front ++ segment.gap } = replace segment

theorem Segments.replaced_prepend {segments : Segments} {replace : Segment → Option Text}
    (careless : Careless replace) (nonempty : ∀ segment ∈ segments.found, segment.gap ≠ [])
    (front : Text) :
    (segments.prepend front).replaced replace = (segments.replaced replace).prepend front := by
  rcases segments with ⟨_ | ⟨segment, found⟩, rest⟩
  · rfl
  · have same := careless front segment (nonempty segment List.mem_cons_self)
    simp [Segments.prepend, Segments.replaced, Segment.replaced, same]

/-! ### Cutting -/

/-- The match with another value and another text behind it. -/
def Hit.renewed (hit : Hit) (replace : Segment → Option Text) (rest : Text) : Hit :=
  { hit with value := (replace ⟨hit.lead, hit.value, hit.quote, hit.name⟩).getD hit.value, rest }

namespace Matcher

variable {matcher : Matcher} {replace : Segment → Option Text}

/-- The text with the values captured from a place on replaced. -/
def renewedFrom (matcher : Matcher) (replace : Segment → Option Text) (place : Place) (text : Text) : Text :=
  ((matcher.cutFrom place [] text).replaced replace).text

/-- What is asked of a matcher so that new values are captured where the old ones were. -/
structure Steady (matcher : Matcher) (replace : Segment → Option Text) : Prop where
  careless : Careless replace
  /-- It misses where it missed. -/
  missed : ∀ place c rest, matcher.run place (c :: rest) = none →
    matcher.run place (c :: matcher.renewedFrom replace (.after c) rest) = none
  /-- It matches what it matched, with the new value. -/
  again : ∀ place text hit, matcher.run place text = some hit →
    matcher.run place (hit.renewed replace (matcher.renewedFrom replace .joined hit.rest)).text
      = some (hit.renewed replace (matcher.renewedFrom replace .joined hit.rest))

/-- **Cutting commutes with replacing values.** The induction is on the text. -/
theorem Steady.cutFrom_replaced (steady : matcher.Steady replace) (place : Place) (text : Text) :
    matcher.cutFrom place [] (matcher.renewedFrom replace place text)
      = (matcher.cutFrom place [] text).replaced replace := by
  have nonempty : ∀ place text, ∀ segment ∈ (matcher.cutFrom place [] text).found, segment.gap ≠ [] :=
    fun _ _ _ => gap_ne_nil
  induction size : text.length using Nat.strong_induction_on generalizing place text with
  | _ n ih =>
    cases text with
    | nil =>
      rw [renewedFrom, cutFrom]
      exact cutFrom.eq_1 _ _ _
    | cons c rest =>
      cases ran : matcher.run place (c :: rest) with
      | none =>
        have later := ih rest.length (by simp [← size]) (.after c) rest rfl
        have missed := steady.missed place c rest ran
        rw [renewedFrom, cutFrom_none ran, Segments.replaced_prepend steady.careless (nonempty _ _),
          Segments.text_prepend, List.singleton_append, ← renewedFrom, cutFrom_none missed, later]
      | some hit =>
        have later := ih hit.rest.length (size ▸ matcher.rest_lt ran) .joined hit.rest rfl
        have again := steady.again place (c :: rest) hit ran
        have whole : matcher.renewedFrom replace place (c :: rest)
            = (hit.renewed replace (matcher.renewedFrom replace .joined hit.rest)).text := by
          rw [renewedFrom, cutFrom_some ran, Segments.replaced_push,
            Segments.replaced_prepend steady.careless (nonempty _ _), Segments.text_push, Segments.text_prepend,
            ← List.append_assoc]
          rfl
        rw [whole, cutFrom_some again, cutFrom_some ran, Segments.replaced_push,
          Segments.replaced_prepend steady.careless (nonempty _ _)]
        show Segments.push _ (Segments.prepend hit.tail (matcher.cutFrom .joined []
          (matcher.renewedFrom replace .joined hit.rest))) = _
        rw [later]
        rfl

/-- **Where a text first changes** when its values are replaced: nowhere, or in the value of a match. -/
theorem replaced_cases (matcher : Matcher) (replace : Segment → Option Text) (place : Place) (text : Text) :
    matcher.renewedFrom replace place text = text
      ∨ ∃ (segment : Segment) (later : Segments) (place' : Place) (front : Text) (hit : Hit),
          matcher.run place' hit.text = some hit ∧ segment.gap = front ++ hit.lead ∧ segment.value = hit.value
          ∧ later.text = hit.tail ++ hit.rest
          ∧ text = segment.gap ++ (segment.value ++ later.text)
          ∧ matcher.renewedFrom replace place text
              = segment.gap ++ ((segment.replaced replace).value ++ (later.replaced replace).text) := by
  have whole := @text_cutFrom_nil matcher place text
  have fromMatch := @captures_cutFrom matcher place text
  unfold renewedFrom
  generalize matcher.cutFrom place [] text = segments at whole fromMatch ⊢
  rcases segments with ⟨_ | ⟨segment, later⟩, rest⟩
  · exact Or.inl whole
  · obtain ⟨place', front, hit, ran, gap, value, behind⟩ := fromMatch (Or.inl ⟨rfl, rfl, rfl⟩)
    refine Or.inr ⟨segment, ⟨later, rest⟩, place', front, hit, ran, gap, value, behind, ?_, ?_⟩
    · rw [← whole, ← List.append_assoc]
      exact Segments.text_push segment ⟨later, rest⟩
    · rw [← List.append_assoc]
      exact Segments.text_push (segment.replaced replace) (Segments.replaced ⟨later, rest⟩ replace)

end Matcher

end Relabel
