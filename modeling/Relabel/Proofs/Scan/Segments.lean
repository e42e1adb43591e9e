/-
**Segments under a change of their text.**

A change of a text replaces one stretch of it, its *region*. Segments of the text change with it in
one of two ways: the region is a captured value, or it lies strictly within the text between values.
Which of the two holds, and where, is read off the segments by counting characters.

* `Segments.prepend`: the segments of a text with more text in front.
* `Segments.Located`: the region is a value, or lies strictly between values.
* `Segments.edit`: the segments with the region replaced.
* `Segments.Captures`: a value is captured between two given texts.
-/

import Mathlib.Tactic
import Relabel.Scan.Basic

namespace Relabel

namespace Segments

/-! ### Text in front -/

/-- The segments of a text with more text in front. -/
def prepend (text : Text) (segments : Segments) : Segments :=
  match segments.found with
  | [] => ⟨[], text ++ segments.rest⟩
  | segment :: found => ⟨{ segment with gap := text ++ segment.gap } :: found, segments.rest⟩

@[simp]
theorem prepend_nil (segments : Segments) : segments.prepend [] = segments := by
  rcases segments with ⟨_ | ⟨segment, found⟩, rest⟩ <;> rfl

@[simp]
theorem prepend_prepend (first second : Text) (segments : Segments) :
    (segments.prepend second).prepend first = segments.prepend (first ++ second) := by
  rcases segments with ⟨_ | ⟨segment, found⟩, rest⟩ <;> simp [prepend]

@[simp]
theorem values_prepend (text : Text) (segments : Segments) :
    (segments.prepend text).values = segments.values := by
  rcases segments with ⟨_ | ⟨segment, found⟩, rest⟩ <;> rfl

/-- The segments with one more segment in front. -/
def push (segment : Segment) (segments : Segments) : Segments :=
  ⟨segment :: segments.found, segments.rest⟩

@[simp]
theorem values_push (segment : Segment) (segments : Segments) :
    (segments.push segment).values = segment.value :: segments.values := rfl

@[simp]
theorem prepend_push (text : Text) (segment : Segment) (segments : Segments) :
    (segments.push segment).prepend text
      = segments.push { segment with gap := text ++ segment.gap } := rfl

/-! ### Regions -/

/-- Where the region of `len` characters behind `start` others lies among the segments `found` of a
text. If `exact` holds, it is a captured value. Otherwise it is strictly inside the text between
values, or anywhere behind the last one. -/
def Located (exact : Prop) (start len : Nat) : (found : List Segment) → Prop
  | [] => ¬ exact
  | segment :: found =>
    (¬ exact ∧ start + len < segment.gap.length)
      ∨ (exact ∧ start = segment.gap.length ∧ len = segment.value.length)
      ∨ (segment.gap.length + segment.value.length < start
        ∧ Located exact (start - (segment.gap.length + segment.value.length)) len found)

/-- A text with a stretch of it replaced. -/
def splice (start len : Nat) (text whole : Text) : Text :=
  whole.take start ++ text ++ whole.drop (start + len)

theorem splice_append (before text region after : Text) :
    splice before.length region.length text (before ++ region ++ after)
      = before ++ text ++ after := by
  simp [splice, List.drop_append]

theorem splice_prepend (start len : Nat) (text front whole : Text) :
    splice (front.length + start) len text (front ++ whole) = front ++ splice start len text whole := by
  rw [splice, Nat.add_assoc, List.take_length_add_append, List.drop_length_add_append]
  simp [splice]

/-- The segments of a text, the last of which is followed by `rest`, with a region replaced. -/
def editFrom (start len : Nat) (text rest : Text) : (found : List Segment) → Segments
  | [] => ⟨[], splice start len text rest⟩
  | segment :: found =>
    if start + len < segment.gap.length then
      ⟨{ segment with gap := splice start len text segment.gap } :: found, rest⟩
    else if start = segment.gap.length ∧ len = segment.value.length then
      ⟨{ segment with value := text } :: found, rest⟩
    else
      (editFrom (start - (segment.gap.length + segment.value.length)) len text rest found).push
        segment

/-- The segments with a region replaced. -/
def edit (start len : Nat) (text : Text) (segments : Segments) : Segments :=
  editFrom start len text segments.rest segments.found

/-- Text in front moves the region. -/
theorem located_prepend {exact : Prop} {start len : Nat} {front : Text} {segments : Segments} :
    Located exact (front.length + start) len (segments.prepend front).found
      ↔ Located exact start len segments.found := by
  rcases segments with ⟨_ | ⟨segment, found⟩, rest⟩
  · rfl
  · simp only [prepend, Located, List.length_append]
    rw [show front.length + start - (front.length + segment.gap.length + segment.value.length)
      = start - (segment.gap.length + segment.value.length) by omega]
    have first : front.length + start + len < front.length + segment.gap.length
        ↔ start + len < segment.gap.length := by omega
    have second : front.length + start = front.length + segment.gap.length
        ↔ start = segment.gap.length := by omega
    have third : front.length + segment.gap.length + segment.value.length < front.length + start
        ↔ segment.gap.length + segment.value.length < start := by omega
    rw [first, second, third]

theorem edit_prepend (start len : Nat) (text front : Text) (segments : Segments) :
    (segments.prepend front).edit (front.length + start) len text
      = (segments.edit start len text).prepend front := by
  rcases segments with ⟨_ | ⟨segment, found⟩, rest⟩
  · simp [prepend, edit, editFrom, splice_prepend]
  · simp only [prepend, edit, editFrom, List.length_append]
    rw [show front.length + start - (front.length + segment.gap.length + segment.value.length)
      = start - (segment.gap.length + segment.value.length) by omega]
    have first : front.length + start + len < front.length + segment.gap.length
        ↔ start + len < segment.gap.length := by omega
    have second : front.length + start = front.length + segment.gap.length
        ↔ start = segment.gap.length := by omega
    simp only [first, second]
    split_ifs with inGap asValue
    · simp [splice_prepend]
    · simp
    · rfl

/-- A region in a gap. -/
theorem edit_push_gap {before region behind value : Text} {quote : Option Char} {name : Option Text}
    (segments : Segments) (text : Text) (nonempty : behind ≠ []) :
    (segments.push ⟨before ++ region ++ behind, value, quote, name⟩).edit
        before.length region.length text
      = segments.push ⟨before ++ text ++ behind, value, quote, name⟩ := by
  have positive := List.length_pos_iff.mpr nonempty
  have less : before.length + region.length < (before ++ region ++ behind).length := by
    simp only [List.length_append]
    omega
  simp only [edit, push, editFrom, if_pos less, splice_append]

/-- A region that is a value. -/
theorem edit_push_value {gap value : Text} {quote : Option Char} {name : Option Text}
    (segments : Segments) (text : Text) :
    (segments.push ⟨gap, value, quote, name⟩).edit gap.length value.length text
      = segments.push ⟨gap, text, quote, name⟩ := by
  simp [edit, push, editFrom]

/-- A region behind a value. -/
theorem edit_push_behind {segment : Segment} {segments : Segments} {start len : Nat} {text : Text}
    (behind : segment.gap.length + segment.value.length < start) :
    (segments.push segment).edit start len text
      = (segments.edit (start - (segment.gap.length + segment.value.length)) len text).push
          segment := by
  simp only [edit, push, editFrom]
  rw [if_neg (by omega), if_neg (by omega)]

/-- A region that begins where the text begins lies in the first gap, and the text before its later
parts may be left out. -/
theorem Located.of_prepend {exact : Prop} {len : Nat} {front : Text} {segments : Segments}
    (nonempty : front ≠ [])
    (located : Located exact 0 (front.length + len) (segments.prepend front).found) :
    Located exact 0 len segments.found := by
  have positive := List.length_pos_iff.mpr nonempty
  rcases segments with ⟨_ | ⟨segment, found⟩, rest⟩
  · exact located
  · simp only [prepend, Located, List.length_append] at located ⊢
    rcases located with ⟨notExact, inGap⟩ | ⟨_, same, _⟩ | ⟨less, _⟩
    · exact Or.inl ⟨notExact, by omega⟩
    · omega
    · omega

section Behind

variable {exact : Prop} {len : Nat} {lead value tail kept : Text} {quote : Option Char}
  {name : Option Text} {segments : Segments} (nonempty : tail ≠ [])

include nonempty

/-- A region that begins behind a match lies among the segments of what follows the match. -/
theorem located_behind
    (located : Located exact (lead ++ value ++ tail ++ kept).length len
      ((segments.prepend tail).push ⟨lead, value, quote, name⟩).found) :
    Located exact kept.length len segments.found := by
  have positive := List.length_pos_iff.mpr nonempty
  have sizes : (lead ++ value ++ tail ++ kept).length
      = lead.length + value.length + (tail.length + kept.length) := by
    simp only [List.length_append]
    omega
  rw [sizes] at located
  rcases located with ⟨_, inGap⟩ | ⟨_, same, _⟩ | ⟨_, later⟩
  · simp only at inGap
    omega
  · simp only at same
    omega
  · rw [Nat.add_sub_cancel_left] at later
    exact located_prepend.mp later

/-- Replacing a region behind a match. -/
theorem edit_behind (text : Text) :
    ((segments.prepend tail).push ⟨lead, value, quote, name⟩).edit
        (lead ++ value ++ tail ++ kept).length len text
      = ((segments.edit kept.length len text).prepend tail).push ⟨lead, value, quote, name⟩ := by
  have positive := List.length_pos_iff.mpr nonempty
  have sizes : (lead ++ value ++ tail ++ kept).length
      = lead.length + value.length + (tail.length + kept.length) := by
    simp only [List.length_append]
    omega
  rw [sizes, edit_push_behind (by simp only; omega), Nat.add_sub_cancel_left, edit_prepend]

end Behind

/-! ### Captures -/

@[simp]
theorem text_prepend (front : Text) (segments : Segments) :
    (segments.prepend front).text = front ++ segments.text := by
  rcases segments with ⟨_ | ⟨segment, found⟩, rest⟩ <;> simp [prepend, text]

@[simp]
theorem text_push (segment : Segment) (segments : Segments) :
    (segments.push segment).text = segment.gap ++ segment.value ++ segments.text := by
  simp [push, text]

/-- Replacing values keeps the text in front. -/
theorem substitute_prepend (front : Text) (replace : Text → Option Text) (segments : Segments) :
    (segments.prepend front).substitute (fun found => replace found.value)
      = front ++ segments.substitute (fun found => replace found.value) := by
  rcases segments with ⟨_ | ⟨segment, found⟩, rest⟩ <;>
    simp [prepend, substitute, text, Segment.replaced]

theorem substitute_push (segment : Segment) (replace : Segment → Option Text) (segments : Segments) :
    (segments.push segment).substitute replace
      = segment.gap ++ (replace segment).getD segment.value ++ segments.substitute replace := by
  simp [push, substitute, text, Segment.replaced]

/-- Replacing values by themselves gives the text. -/
theorem substitute_eq_text {segments : Segments} {replace : Segment → Option Text}
    (same : ∀ segment ∈ segments.found, (replace segment).getD segment.value = segment.value) :
    segments.substitute replace = segments.text := by
  have kept : segments.found.map (·.replaced replace) = segments.found := by
    refine (List.map_congr_left fun segment member => ?_).trans (List.map_id _)
    show { segment with value := _ } = segment
    rw [same segment member]
  exact congrArg (fun found => text ⟨found, segments.rest⟩) kept

/-- Among the segments `found` of a text, the last of which is followed by `rest`, `value` is captured
between `before` and `behind`. -/
def CapturesFrom (rest : Text) : (found : List Segment) → (before value behind : Text) → Prop
  | [], _, _, _ => False
  | segment :: found, before, value, behind =>
    (before = segment.gap ∧ value = segment.value ∧ behind = text ⟨found, rest⟩)
      ∨ ∃ further, before = segment.gap ++ segment.value ++ further
          ∧ CapturesFrom rest found further value behind

/-- `value` is captured between `before` and `behind`. -/
def Captures (segments : Segments) (before value behind : Text) : Prop :=
  CapturesFrom segments.rest segments.found before value behind

theorem captures_push {segment : Segment} {segments : Segments} {before value behind : Text} :
    (segments.push segment).Captures before value behind
      ↔ (before = segment.gap ∧ value = segment.value ∧ behind = segments.text)
        ∨ ∃ further, before = segment.gap ++ segment.value ++ further
            ∧ segments.Captures further value behind :=
  Iff.rfl

theorem captures_prepend {front : Text} {segments : Segments} {before value behind : Text} :
    (segments.prepend front).Captures before value behind
      ↔ ∃ further, before = front ++ further ∧ segments.Captures further value behind := by
  rcases segments with ⟨_ | ⟨segment, found⟩, rest⟩
  · simp [prepend, Captures, CapturesFrom]
  · simp only [prepend, Captures, CapturesFrom]
    constructor
    · rintro (⟨rfl, rfl, rfl⟩ | ⟨further, rfl, deeper⟩)
      · exact ⟨segment.gap, rfl, Or.inl ⟨rfl, rfl, rfl⟩⟩
      · exact ⟨segment.gap ++ segment.value ++ further, by simp, Or.inr ⟨further, rfl, deeper⟩⟩
    · rintro ⟨further, rfl, ⟨rfl, rfl, rfl⟩ | ⟨deeper, rfl, captured⟩⟩
      · exact Or.inl ⟨rfl, rfl, rfl⟩
      · exact Or.inr ⟨deeper, by simp, captured⟩

/-- The parts around a captured value make up the text. -/
theorem Captures.text_eq {segments : Segments} {before value behind : Text}
    (captured : segments.Captures before value behind) :
    segments.text = before ++ value ++ behind := by
  rcases segments with ⟨found, rest⟩
  induction found generalizing before with
  | nil => exact captured.elim
  | cons segment found ih =>
    have pushed : (push segment ⟨found, rest⟩).Captures before value behind := captured
    rcases captures_push.mp pushed with ⟨rfl, rfl, rfl⟩ | ⟨further, rfl, deeper⟩
    · exact text_push segment ⟨found, rest⟩
    · have parts := ih deeper
      rw [show (⟨segment :: found, rest⟩ : Segments) = push segment ⟨found, rest⟩ from rfl,
        text_push, parts]
      simp

/-- The captured values are those that are captured somewhere. -/
theorem mem_values {segments : Segments} {value : Text} :
    value ∈ segments.values ↔ ∃ before behind, segments.Captures before value behind := by
  rcases segments with ⟨found, rest⟩
  induction found with
  | nil => simp [values, Captures, CapturesFrom]
  | cons segment found ih =>
    constructor
    · intro member
      rcases List.mem_cons.mp member with rfl | later
      · exact ⟨_, _, Or.inl ⟨rfl, rfl, rfl⟩⟩
      · obtain ⟨before, behind, captured⟩ := ih.mp later
        exact ⟨_, behind, Or.inr ⟨before, rfl, captured⟩⟩
    · rintro ⟨before, behind, ⟨_, rfl, _⟩ | ⟨further, _, captured⟩⟩
      · exact List.mem_cons_self
      · exact List.mem_cons_of_mem _ (ih.mpr ⟨further, behind, captured⟩)

end Segments

end Relabel
