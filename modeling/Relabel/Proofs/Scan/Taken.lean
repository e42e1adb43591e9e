/-
**The matches that a cut takes.**

A cut goes through a text from left to right and takes the first match that it meets. So every character at
which a match might begin is of one of three kinds: a taken match begins there, nothing is matched there, or it
lies within a taken match behind the start of it.

* `Matcher.Takes`: the matches that a cut takes, by the steps of the cut.
* `Matcher.takes_iff_of_none`, `Matcher.takes_iff_of_some`: what is taken from a place on.
* `Matcher.mem_findings_iff`: the findings are the values of the taken matches.
* `Matcher.Takes.found`: where a taken match was attempted.
* `Matcher.reaches`: the three kinds of characters.
* `Matcher.Takes.apart`: two taken matches are the same or do not overlap.
-/

import Relabel.Proofs.Markup.Captures
import Relabel.Proofs.Scan.Cut
import Relabel.Proofs.Scan.Reading

namespace Relabel

open Text (byteLength byteLength_append byteLength_pos)

/-! ### Offsets -/

section Offsets

variable {x x' y y' : Text} (same : x ++ y = x' ++ y')

include same

/-- Of two places of a text, the one that is further in characters is further in bytes. -/
theorem byteLength_le_of_length_le (order : x.length ≤ x'.length) : byteLength x ≤ byteLength x' := by
  obtain ⟨r, rfl, _⟩ := exists_between same order
  rw [byteLength_append]
  exact Nat.le_add_right _ _

theorem byteLength_lt_of_length_lt (order : x.length < x'.length) : byteLength x < byteLength x' := by
  obtain ⟨r, rfl, _⟩ := exists_between same order.le
  have nonempty : r ≠ [] := by
    rintro rfl
    rw [List.append_nil] at order
    exact lt_irrefl _ order
  rw [byteLength_append]
  exact Nat.lt_add_of_pos_right (byteLength_pos nonempty)

end Offsets

/-! ### Matches -/

/-- The text of a match: what stands before the value, the value and what closes it. -/
def Hit.matched (hit : Hit) : Text :=
  hit.lead ++ hit.value ++ hit.tail

theorem Hit.text_eq (hit : Hit) : hit.text = hit.matched ++ hit.rest :=
  rfl

/-- The value of a match that begins at byte `offset`. -/
def Hit.findingAt (offset : Nat) (hit : Hit) : Finding :=
  ⟨offset + byteLength hit.lead, offset + byteLength hit.lead + byteLength hit.value, hit.value, hit.quote, hit.name⟩

namespace Matcher

/-- The matches that a cut takes, each with the text between the place where the cut begins and the match. -/
inductive Takes (matcher : Matcher) : (place : Place) → (text before : Text) → (hit : Hit) → Prop
  /-- A match begins right there. -/
  | here {place : Place} {text : Text} {hit : Hit} (found : matcher.run place text = some hit) :
      Takes matcher place text [] hit
  /-- Nothing is matched there, and the match is taken later. -/
  | skip {place : Place} {c : Char} {text before : Text} {hit : Hit}
      (missed : matcher.run place (c :: text) = none) (later : Takes matcher (.after c) text before hit) :
      Takes matcher place (c :: text) (c :: before) hit
  /-- The match is taken behind another one. -/
  | behind {place : Place} {text before : Text} {first hit : Hit} (found : matcher.run place text = some first)
      (later : Takes matcher .joined first.rest before hit) :
      Takes matcher place text (first.matched ++ before) hit

variable {matcher : Matcher} {place : Place} {text before : Text} {hit : Hit}

/-- A match is not empty. -/
theorem matched_ne_nil (found : matcher.run place text = some hit) : hit.matched ≠ [] := by
  have lead := matcher.advances _ _ _ found
  simp [Hit.matched, lead]

/-- Where nothing is matched, a match is taken behind the first character. -/
theorem takes_iff_of_none {c : Char} {rest : Text} (missed : matcher.run place (c :: rest) = none) :
    matcher.Takes place (c :: rest) before hit
      ↔ ∃ further, before = c :: further ∧ matcher.Takes (.after c) rest further hit := by
  constructor
  · intro takes
    cases takes with
    | here found => simp [missed] at found
    | skip _ later => exact ⟨_, rfl, later⟩
    | behind found => simp [missed] at found
  · rintro ⟨further, rfl, later⟩
    exact Takes.skip missed later

/-- A match is taken where it begins, and all others are taken behind it. -/
theorem takes_iff_of_some {first : Hit} (found : matcher.run place text = some first) :
    matcher.Takes place text before hit
      ↔ (before = [] ∧ hit = first)
        ∨ ∃ further, before = first.matched ++ further ∧ matcher.Takes .joined first.rest further hit := by
  constructor
  · intro takes
    cases takes with
    | here found' => exact Or.inl ⟨rfl, Option.some.inj (found'.symm.trans found)⟩
    | skip missed => simp [found] at missed
    | behind found' later =>
      obtain rfl := Option.some.inj (found.symm.trans found')
      exact Or.inr ⟨_, rfl, later⟩
  · rintro (⟨rfl, rfl⟩ | ⟨further, rfl, later⟩)
    · exact Takes.here found
    · exact Takes.behind found later

/-- Nothing is taken from an empty text. -/
theorem Takes.ne_nil (takes : matcher.Takes place text before hit) : text ≠ [] := by
  cases takes with
  | here found => exact text_ne_nil found
  | skip => exact List.cons_ne_nil _ _
  | behind found => exact text_ne_nil found

/-! ### Findings -/

/-- **The findings are the values of the taken matches.** The induction is on the text, by the steps of the
cut. -/
theorem mem_findingsFrom_iff {offset : Nat} {finding : Finding} :
    finding ∈ Segments.findingsFrom offset (matcher.cutFrom place [] text).found
      ↔ ∃ before hit, matcher.Takes place text before hit
          ∧ finding = hit.findingAt (offset + byteLength before) := by
  induction size : text.length using Nat.strong_induction_on generalizing place text offset with
  | _ n ih =>
    cases found : matcher.run place text with
    | none =>
      cases text with
      | nil =>
        rw [cutFrom]
        refine iff_of_false List.not_mem_nil ?_
        rintro ⟨_, _, takes, _⟩
        exact takes.ne_nil rfl
      | cons c rest =>
        rw [cutFrom_none found, Segments.findingsFrom_prepend, ih rest.length (by simp [← size]) rfl]
        simp only [takes_iff_of_none found]
        constructor
        · rintro ⟨further, hit, later, rfl⟩
          exact ⟨c :: further, hit, ⟨further, rfl, later⟩, by simp [Nat.add_assoc]⟩
        · rintro ⟨_, hit, ⟨further, rfl, later⟩, rfl⟩
          exact ⟨further, hit, later, by simp [Nat.add_assoc]⟩
    | some first =>
      have shorter : first.rest.length < n := size ▸ matcher.rest_lt found
      have offsets : ∀ further : Text, offset + byteLength first.lead + byteLength first.value
            + byteLength first.tail + byteLength further
          = offset + byteLength (first.matched ++ further) := by
        intro further
        simp only [Hit.matched, byteLength_append, Nat.add_assoc]
      rw [cutFrom_some found, Segments.push, Segments.findingsFrom, List.mem_cons, Segments.findingsFrom_prepend,
        ih first.rest.length shorter rfl]
      simp only [takes_iff_of_some found, offsets]
      constructor
      · rintro (rfl | ⟨further, hit, later, rfl⟩)
        · exact ⟨[], first, Or.inl ⟨rfl, rfl⟩, rfl⟩
        · exact ⟨first.matched ++ further, hit, Or.inr ⟨further, rfl, later⟩, rfl⟩
      · rintro ⟨_, hit, ⟨rfl, rfl⟩ | ⟨further, rfl, later⟩, rfl⟩
        · exact Or.inl rfl
        · exact Or.inr ⟨further, hit, later, rfl⟩

theorem mem_findings_iff {finding : Finding} :
    finding ∈ (matcher.cut text).findings
      ↔ ∃ before hit, matcher.Takes .start text before hit ∧ finding = hit.findingAt (byteLength before) := by
  rw [Segments.findings, cut, mem_findingsFrom_iff]
  simp only [Nat.zero_add]

/-- **Findings do not overlap.** -/
theorem findings_apart (matcher : Matcher) (text : Text) :
    (matcher.cut text).findings.Pairwise fun first second => first.stop < second.start :=
  (Segments.increasing_findingsFrom (fun _ => Matcher.gap_ne_nil) 0).1

/-! ### Places -/

/-- The place behind `before`, if the text before that is at `place`: a place within a text is not its start. -/
def PlaceBehind (place : Place) (before : Text) (reached : Place) : Prop :=
  (before = [] → reached = place) ∧ (before ≠ [] → reached ≠ .start)

theorem PlaceBehind.nil (place : Place) : PlaceBehind place [] place :=
  ⟨fun _ => rfl, fun nonempty => absurd rfl nonempty⟩

/-- More text in front. -/
theorem PlaceBehind.append {step reached : Place} {front further : Text} (behind : PlaceBehind step further reached)
    (inside : step ≠ .start) (nonempty : front ≠ []) : PlaceBehind place (front ++ further) reached := by
  refine ⟨fun empty => absurd (List.append_eq_nil_iff.mp empty).1 nonempty, fun _ => ?_⟩
  by_cases empty : further = []
  · rw [behind.1 empty]
    exact inside
  · exact behind.2 empty

/-- One more character in front. -/
theorem PlaceBehind.cons {c : Char} {reached : Place} {further : Text}
    (behind : PlaceBehind (.after c) further reached) : PlaceBehind place (c :: further) reached :=
  behind.append Place.noConfusion (List.cons_ne_nil c [])

/-- **Where a taken match was attempted.** -/
theorem Takes.found (takes : matcher.Takes place text before hit) :
    text = before ++ hit.text
      ∧ ∃ reached, PlaceBehind place before reached ∧ matcher.run reached hit.text = some hit := by
  induction takes with
  | @here place text hit found =>
    have parts := matcher.covers _ _ _ found
    exact ⟨parts, place, PlaceBehind.nil place, parts ▸ found⟩
  | @skip place c text before hit missed later ih =>
    obtain ⟨rfl, reached, isBehind, found⟩ := ih
    exact ⟨rfl, reached, isBehind.cons, found⟩
  | @behind place text before first hit matched later ih =>
    obtain ⟨parts, reached, isBehind, found⟩ := ih
    have whole := matcher.covers _ _ _ matched
    rw [Hit.text_eq, parts] at whole
    exact ⟨by simp [whole], reached, isBehind.append Place.noConfusion (matched_ne_nil matched), found⟩

/-- **The three kinds of characters**: a taken match begins there, or nothing is matched there, or a taken match
that began before goes on. The induction is on the text, by the steps of the cut. -/
theorem reaches (place : Place) {front ahead : Text} (whole : text = front ++ ahead) :
    (∃ reached, PlaceBehind place front reached
        ∧ (matcher.run reached ahead = none ∨ ∃ hit, matcher.Takes place text front hit))
      ∨ ∃ before hit, matcher.Takes place text before hit ∧ before.length < front.length
          ∧ front.length < (before ++ hit.matched).length := by
  induction size : text.length using Nat.strong_induction_on generalizing place text front with
  | _ n ih =>
    cases front with
    | nil =>
      obtain rfl : text = ahead := whole
      refine Or.inl ⟨place, PlaceBehind.nil place, ?_⟩
      cases found : matcher.run place text with
      | none => exact Or.inl rfl
      | some hit => exact Or.inr ⟨hit, Takes.here found⟩
    | cons c front =>
      subst whole
      cases found : matcher.run place (c :: front ++ ahead) with
      | none =>
        have shorter : (front ++ ahead).length < n := by simp [← size]
        rcases ih _ shorter (.after c) rfl rfl with
          ⟨reached, behind, kind⟩ | ⟨before, hit, takes, begins, goesOn⟩
        · refine Or.inl ⟨reached, behind.cons, ?_⟩
          exact kind.imp id fun ⟨hit, takes⟩ => ⟨hit, Takes.skip found takes⟩
        · exact Or.inr ⟨c :: before, hit, Takes.skip found takes, Nat.succ_lt_succ begins, Nat.succ_lt_succ goesOn⟩
      | some first =>
        have parts := matcher.covers _ _ _ found
        rw [Hit.text_eq] at parts
        by_cases within : (c :: front).length < first.matched.length
        · exact Or.inr ⟨[], first, Takes.here found, Nat.zero_lt_succ _, within⟩
        · obtain ⟨further, rest, later⟩ := exists_between parts.symm (Nat.not_lt.mp within)
          have shorter : first.rest.length < n := size ▸ matcher.rest_lt found
          rw [rest]
          rcases ih _ shorter .joined later rfl with
            ⟨reached, behind, kind⟩ | ⟨before, hit, takes, begins, goesOn⟩
          · refine Or.inl ⟨reached, behind.append Place.noConfusion (matched_ne_nil found), ?_⟩
            exact kind.imp id fun ⟨hit, takes⟩ => ⟨hit, rest ▸ Takes.behind found takes⟩
          · refine Or.inr ⟨first.matched ++ before, hit, rest ▸ Takes.behind found takes, ?_, ?_⟩
            · simpa using begins
            · simp only [List.length_append] at goesOn ⊢
              omega

/-- **Two taken matches are the same or do not overlap.** -/
theorem Takes.apart {before' : Text} {hit' : Hit} (takes : matcher.Takes place text before hit)
    (takes' : matcher.Takes place text before' hit') :
    (before = before' ∧ hit = hit') ∨ (before ++ hit.matched).length ≤ before'.length
      ∨ (before' ++ hit'.matched).length ≤ before.length := by
  induction takes generalizing before' with
  | here found =>
    rcases (takes_iff_of_some found).mp takes' with ⟨rfl, rfl⟩ | ⟨further, rfl, _⟩
    · exact Or.inl ⟨rfl, rfl⟩
    · exact Or.inr (Or.inl (by simp))
  | skip missed later ih =>
    obtain ⟨further, rfl, later'⟩ := (takes_iff_of_none missed).mp takes'
    rcases ih later' with ⟨rfl, rfl⟩ | first | second
    · exact Or.inl ⟨rfl, rfl⟩
    · exact Or.inr (Or.inl (Nat.succ_le_succ first))
    · exact Or.inr (Or.inr (Nat.succ_le_succ second))
  | behind found later ih =>
    rcases (takes_iff_of_some found).mp takes' with ⟨rfl, rfl⟩ | ⟨further, rfl, later'⟩
    · exact Or.inr (Or.inr (by simp))
    · rcases ih later' with ⟨rfl, rfl⟩ | first | second
      · exact Or.inl ⟨rfl, rfl⟩
      · refine Or.inr (Or.inl ?_)
        simp only [List.length_append] at first ⊢
        omega
      · refine Or.inr (Or.inr ?_)
        simp only [List.length_append] at second ⊢
        omega

end Matcher

end Relabel
