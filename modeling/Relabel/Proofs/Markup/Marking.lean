/-
**Documents with holes.**

Tokens and references stand on six *surfaces* of a document, each with a matcher of its own. A marking
of a document says at once what all six matchers capture: it is the document as a list of characters,
some of which are followed by a hole that holds a captured value. As every hole stands behind a
character of the text, no two holes touch.

* `Surface`: where tokens and references stand.
* `Marking.segments`: what a marking says about one surface.
* `Marking.located_segments`: a hole is a value of its surface and lies between values of the others.
* `Marking.edit_segments`: filling a hole anew changes the segments as `Segments.edit` does.
* `Marking.exists_captures`: every hole is captured.
-/

import Relabel.Proofs.Scan.Segments
import Relabel.Scan.Element
import Relabel.Scan.Url

namespace Relabel

/-! ### Surfaces -/

/-- Where tokens and references stand in a document. -/
inductive Surface where
  | cls
  | id
  | fragment
  | reference
  | url
  | style
  deriving DecidableEq

/-- All surfaces. -/
def Surface.all : List Surface :=
  [.cls, .id, .fragment, .reference, .url, .style]

/-- The matcher that captures what stands on a surface. -/
def Surface.matcher : Surface → Matcher
  | .cls => classAttributes
  | .id => idAttributes
  | .fragment => fragmentAttributes
  | .reference => referenceAttributes
  | .url => urlReferences
  | .style => styleBodies

/-! ### Markings -/

/-- A captured value. -/
structure Hole where
  surface : Surface
  value : Text
  quote : Option Char
  name : Option Text

/-- A character of a document and the hole behind it, if there is one. -/
structure Mark where
  char : Char
  hole : Option Hole

/-- A document with holes. -/
abbrev Marking := List Mark

/-- The text of a mark. -/
def Mark.text (mark : Mark) : Text :=
  mark.char :: (mark.hole.elim [] fun hole => hole.value)

namespace Marking

/-- The document that is marked. -/
def text (marking : Marking) : Text :=
  marking.flatMap Mark.text

@[simp]
theorem text_nil : text [] = [] := rfl

@[simp]
theorem text_cons (mark : Mark) (marking : Marking) :
    text (mark :: marking) = mark.text ++ text marking := rfl

@[simp]
theorem text_append (first second : Marking) :
    text (first ++ second) = text first ++ text second :=
  List.flatMap_append

/-- The holes of a marking, in order. -/
def holes (marking : Marking) : List Hole :=
  marking.filterMap (·.hole)

/-- What a mark adds in front of the segments of a surface. -/
def segmentsOf (s : Surface) (mark : Mark) (behind : Segments) : Segments :=
  match mark.hole with
  | none => behind.prepend [mark.char]
  | some hole =>
    if hole.surface = s then behind.push ⟨[mark.char], hole.value, hole.quote, hole.name⟩
    else behind.prepend (mark.char :: hole.value)

/-- What a marking says about one surface. -/
def segments (s : Surface) : (marking : Marking) → Segments
  | [] => ⟨[], []⟩
  | mark :: marking => segmentsOf s mark (segments s marking)

/-- The segments of a surface make up the document. -/
@[simp]
theorem text_segments (s : Surface) (marking : Marking) : (marking.segments s).text = marking.text := by
  induction marking with
  | nil => rfl
  | cons mark marking ih =>
    rcases mark with ⟨c, _ | hole⟩
    · simp [segments, segmentsOf, Mark.text, ih]
    · by_cases own : hole.surface = s <;> simp [segments, segmentsOf, Mark.text, own, ih]

/-- Each gap of a marking holds a character. -/
theorem gap_ne_nil {s : Surface} {marking : Marking} {segment : Segment} {found : List Segment}
    (first : (segments s marking).found = segment :: found) : segment.gap ≠ [] := by
  cases marking with
  | nil => simp [segments] at first
  | cons mark marking =>
    simp only [segments] at first
    generalize segments s marking = behind at first
    rcases mark with ⟨c, _ | hole⟩
    · rcases behind with ⟨_ | ⟨next, more⟩, rest⟩
      · simp [segmentsOf, Segments.prepend] at first
      · obtain ⟨rfl, _⟩ := List.cons.inj first
        simp
    · by_cases own : hole.surface = s
      · simp only [segmentsOf, own, if_true, Segments.push, List.cons.injEq] at first
        simp [← first.1]
      · simp only [segmentsOf, own, if_false] at first
        rcases behind with ⟨_ | ⟨next, more⟩, rest⟩
        · simp [Segments.prepend] at first
        · obtain ⟨rfl, _⟩ := List.cons.inj first
          simp

/-- The values of a surface are those in its holes. -/
theorem mem_values {s : Surface} {marking : Marking} {value : Text}
    (member : value ∈ (marking.segments s).values) :
    ∃ hole ∈ marking.holes, hole.surface = s ∧ hole.value = value := by
  induction marking with
  | nil => simp [segments, Segments.values] at member
  | cons mark marking ih =>
    rcases mark with ⟨c, _ | hole⟩
    · simp only [segments, segmentsOf, Segments.values_prepend] at member
      obtain ⟨other, inHoles, same⟩ := ih member
      exact ⟨other, by simpa [holes] using inHoles, same⟩
    · by_cases own : hole.surface = s
      · simp only [segments, segmentsOf, own, if_true, Segments.values_push, List.mem_cons] at member
        rcases member with rfl | later
        · exact ⟨hole, by simp [holes], own, rfl⟩
        · obtain ⟨other, inHoles, same⟩ := ih later
          exact ⟨other, List.mem_cons_of_mem _ inHoles, same⟩
      · simp only [segments, segmentsOf, own, if_false, Segments.values_prepend] at member
        obtain ⟨other, inHoles, same⟩ := ih member
        exact ⟨other, List.mem_cons_of_mem _ inHoles, same⟩

/-! ### One hole -/

section Hole

variable {s : Surface} {exact : Prop} {start len : Nat} {new : Text} {behind : Segments}

/-- A mark in front moves a region. -/
theorem located_segmentsOf (mark : Mark) (located : Segments.Located exact (start + 1) len behind.found) :
    Segments.Located exact (mark.text.length + (start + 1)) len (segmentsOf s mark behind).found := by
  rcases mark with ⟨c, _ | hole⟩
  · exact Segments.located_prepend.mpr located
  · by_cases own : hole.surface = s
    · simp only [segmentsOf, own, if_true, Mark.text, Option.elim_some, List.length_cons]
      refine Or.inr (Or.inr ⟨?_, ?_⟩)
      · simp only [List.length_cons, List.length_nil]
        omega
      · rw [show hole.value.length + 1 + (start + 1) - ([c].length + hole.value.length) = start + 1 by
          simp only [List.length_cons, List.length_nil]
          omega]
        exact located
    · simp only [segmentsOf, own, if_false, Mark.text, Option.elim_some]
      exact Segments.located_prepend.mpr located

theorem edit_segmentsOf (mark : Mark) :
    (segmentsOf s mark behind).edit (mark.text.length + (start + 1)) len new
      = segmentsOf s mark (behind.edit (start + 1) len new) := by
  rcases mark with ⟨c, _ | hole⟩
  · exact Segments.edit_prepend (start + 1) len new [c] behind
  · by_cases own : hole.surface = s
    · simp only [segmentsOf, own, if_true, Mark.text, Option.elim_some, List.length_cons]
      rw [Segments.edit_push_behind (by simp only [List.length_cons, List.length_nil]; omega)]
      rw [show hole.value.length + 1 + (start + 1) - ([c].length + hole.value.length) = start + 1 by
        simp only [List.length_cons, List.length_nil]
        omega]
    · simp only [segmentsOf, own, if_false, Mark.text, Option.elim_some]
      exact Segments.edit_prepend (start + 1) len new (c :: hole.value) behind

variable (s) (before after : Marking) (c : Char) (hole : Hole)

/-- **A hole is a value of its own surface and lies between the values of the others.** -/
theorem located_segments :
    Segments.Located (hole.surface = s) (before.text.length + 1) hole.value.length
      (segments s (before ++ ⟨c, some hole⟩ :: after)).found := by
  induction before with
  | nil =>
    simp only [List.nil_append, segments, segmentsOf]
    by_cases own : hole.surface = s
    · simp only [own, if_true]
      exact Or.inr (Or.inl ⟨trivial, rfl, rfl⟩)
    · simp only [own, if_false]
      cases found : (segments s after).found with
      | nil => simp [Segments.prepend, found, Segments.Located]
      | cons segment more =>
        have positive := List.length_pos_iff.mpr (gap_ne_nil found)
        simp only [Segments.prepend, found, Segments.Located]
        refine Or.inl ⟨not_false, ?_⟩
        simp only [text_nil, List.length_nil, List.length_append, List.length_cons]
        omega
  | cons mark before ih =>
    simp only [List.cons_append, segments, text_cons, List.length_append, Nat.add_assoc]
    exact located_segmentsOf mark ih

/-- **Filling a hole anew changes its region.** -/
theorem edit_segments (new : Text) :
    (segments s (before ++ ⟨c, some hole⟩ :: after)).edit (before.text.length + 1) hole.value.length new
      = segments s (before ++ ⟨c, some { hole with value := new }⟩ :: after) := by
  induction before with
  | nil =>
    simp only [List.nil_append, segments, segmentsOf]
    by_cases own : hole.surface = s
    · simp only [own, if_true]
      show (Segments.push ⟨[c], hole.value, hole.quote, hole.name⟩ _).edit [c].length
        hole.value.length new = _
      exact Segments.edit_push_value _ new
    · simp only [own, if_false]
      cases found : (segments s after).found with
      | nil =>
        have spliced := Segments.splice_append [c] new hole.value (segments s after).rest
        simp only [Segments.prepend, found, Segments.edit, Segments.editFrom]
        exact congrArg (Segments.mk []) spliced
      | cons segment more =>
        have nonempty := gap_ne_nil found
        have pushed : segments s after = Segments.push segment ⟨more, (segments s after).rest⟩ := by
          rw [Segments.push, ← found]
        rw [pushed]
        show (Segments.push ⟨[c] ++ hole.value ++ segment.gap, segment.value, segment.quote,
          segment.name⟩ _).edit [c].length hole.value.length new = _
        exact Segments.edit_push_gap _ new nonempty
  | cons mark before ih =>
    simp only [List.cons_append, segments, text_cons, List.length_append, Nat.add_assoc]
    rw [edit_segmentsOf mark, ih]

/-- A hole is captured between the text before and behind it. -/
theorem captures_segments :
    (segments hole.surface (before ++ ⟨c, some hole⟩ :: after)).Captures (before.text ++ [c])
      hole.value after.text := by
  induction before with
  | nil =>
    simp only [List.nil_append, segments, segmentsOf, if_true]
    exact Or.inl ⟨rfl, rfl, (text_segments hole.surface after).symm⟩
  | cons mark before ih =>
    simp only [List.cons_append, segments, segmentsOf, text_cons, Mark.text]
    rcases mark with ⟨d, _ | other⟩
    · exact Segments.captures_prepend.mpr ⟨_, by simp, ih⟩
    · by_cases own : other.surface = hole.surface
      · simp only [own, if_true]
        exact Segments.captures_push.mpr (Or.inr ⟨_, by simp, ih⟩)
      · simp only [own, if_false]
        exact Segments.captures_prepend.mpr ⟨_, by simp, ih⟩

end Hole

/-- Every hole is captured. -/
theorem exists_captures {marking : Marking} {hole : Hole} (member : hole ∈ marking.holes) :
    ∃ x y, (marking.segments hole.surface).Captures x hole.value y := by
  obtain ⟨⟨c, _ | other⟩, inMarking, isHole⟩ := List.mem_filterMap.mp member
  · simp at isHole
  · obtain rfl := Option.some.inj isHole
    obtain ⟨before, after, rfl⟩ := List.append_of_mem inMarking
    exact ⟨_, _, captures_segments before after c other⟩

end Marking

end Relabel
