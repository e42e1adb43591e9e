/-
**Captured values in the order of the document.**

The matchers go through a document one after the other. Put in the order of their starts, what they
capture are the holes of a sound marking.

* `captures`: what all matchers capture, in order.
* `Marking.capturesFrom`: the holes of a marking with their byte ranges.
* `Marking.perm_capturesFrom`: the holes are what the matchers capture, surface by surface.
* `Marking.Sound.captures_text`: the captures of a document with a sound marking.
-/

import Relabel.Proofs.Markup.Sound
import Relabel.Proofs.Text.Script

namespace Relabel

open Text (byteLength)

theorem Segments.findingsFrom_prepend (offset : Nat) (front : Text) (segments : Segments) :
    findingsFrom offset (segments.prepend front).found
      = findingsFrom (offset + byteLength front) segments.found := by
  rcases segments with ⟨_ | ⟨segment, found⟩, rest⟩
  · rfl
  · simp [prepend, findingsFrom, Nat.add_assoc]

/-- **A captured value is found where it is captured**, and nothing else is found. -/
theorem Segments.mem_findingsFrom {segments : Segments} {offset start stop : Nat} {v : Text} :
    (∃ finding ∈ findingsFrom offset segments.found,
        finding.start = start ∧ finding.stop = stop ∧ finding.value = v)
      ↔ ∃ x y, segments.Captures x v y ∧ offset + byteLength x = start
          ∧ offset + byteLength x + byteLength v = stop := by
  rcases segments with ⟨found, rest⟩
  induction found generalizing offset with
  | nil => simp [findingsFrom, Captures, CapturesFrom]
  | cons segment found ih =>
    rw [findingsFrom]
    simp only [List.mem_cons, exists_eq_or_imp, ih]
    constructor
    · rintro (⟨rfl, rfl, rfl⟩ | ⟨x, y, captured, rfl, rfl⟩)
      · exact ⟨_, _, Or.inl ⟨rfl, rfl, rfl⟩, rfl, rfl⟩
      · refine ⟨_, y, Or.inr ⟨x, rfl, captured⟩, ?_, ?_⟩ <;> simp [Nat.add_assoc]
    · rintro ⟨x, y, ⟨rfl, rfl, rfl⟩ | ⟨further, rfl, captured⟩, rfl, rfl⟩
      · exact Or.inl ⟨rfl, rfl, rfl⟩
      · refine Or.inr ⟨further, y, captured, ?_, ?_⟩ <;> simp [Nat.add_assoc]

theorem Segments.mem_findings {segments : Segments} {start stop : Nat} {v : Text} :
    (∃ finding ∈ segments.findings,
        finding.start = start ∧ finding.stop = stop ∧ finding.value = v)
      ↔ ∃ x y, segments.Captures x v y ∧ byteLength x = start ∧ byteLength x + byteLength v = stop := by
  rw [findings, mem_findingsFrom]
  simp only [Nat.zero_add]

/-- **Findings are in order**: each ends before the next begins. -/
theorem Segments.increasing_findingsFrom {found : List Segment} (spaced : ∀ segment ∈ found, segment.gap ≠ [])
    (offset : Nat) :
    (findingsFrom offset found).Pairwise (fun first second => first.stop < second.start)
      ∧ ∀ finding ∈ findingsFrom offset found, offset < finding.start := by
  induction found generalizing offset with
  | nil => exact ⟨List.Pairwise.nil, by simp [findingsFrom]⟩
  | cons segment found ih =>
    have positive := Text.byteLength_pos (spaced segment List.mem_cons_self)
    obtain ⟨increasing, later⟩ := ih (fun other member => spaced other (List.mem_cons_of_mem _ member))
      (offset + byteLength segment.gap + byteLength segment.value)
    refine ⟨List.pairwise_cons.mpr ⟨later, increasing⟩, fun finding member => ?_⟩
    rcases List.mem_cons.mp member with rfl | behind
    · simp only
      omega
    · have further := later finding behind
      omega

/-! ### Captures -/

/-- A captured value and where it stands. -/
structure Capture where
  surface : Surface
  finding : Finding

/-- One capture does not begin behind another. -/
def Capture.Precedes (first second : Capture) : Prop :=
  first.finding.start ≤ second.finding.start

instance (first second : Capture) : Decidable (first.Precedes second) :=
  inferInstanceAs (Decidable (_ ≤ _))

instance : Std.Total Capture.Precedes where
  total first second := Nat.le_total first.finding.start second.finding.start

instance : IsTrans Capture Capture.Precedes where
  trans _ _ _ first second := Nat.le_trans first second

/-- What is captured in a document, in order. -/
def captures (html : Text) : List Capture :=
  (Surface.all.flatMap fun s => (s.matcher.cut html).findings.map (Capture.mk s)).insertionSort
    Capture.Precedes

/-- The capture of a hole that begins at byte `start`. -/
def Hole.capture (start : Nat) (hole : Hole) : Capture :=
  ⟨hole.surface, start, start + byteLength hole.value, hole.value, hole.quote, hole.name⟩

namespace Marking

/-- The captures of a marking whose text begins at byte `offset`. -/
def capturesFrom (offset : Nat) : Marking → List Capture
  | [] => []
  | mark :: marking =>
    (mark.hole.map (Hole.capture (offset + byteLength [mark.char]))).toList
      ++ capturesFrom (offset + byteLength mark.text) marking

/-- The captures are the holes. -/
theorem values_capturesFrom (offset : Nat) (marking : Marking) :
    (marking.capturesFrom offset).map (fun capture => (capture.surface, capture.finding.value))
      = marking.holes.map fun hole => (hole.surface, hole.value) := by
  induction marking generalizing offset with
  | nil => rfl
  | cons mark marking ih =>
    rw [capturesFrom, List.map_append, ih, holes_cons, List.map_append]
    rcases mark with ⟨c, _ | hole⟩ <;> rfl

/-- **Captures begin one after the other.** Each hole stands behind a character. -/
theorem increasing_capturesFrom (offset : Nat) (marking : Marking) :
    (marking.capturesFrom offset).Pairwise
        (fun first second => first.finding.start < second.finding.start)
      ∧ ∀ capture ∈ marking.capturesFrom offset, offset < capture.finding.start := by
  induction marking generalizing offset with
  | nil => exact ⟨List.Pairwise.nil, fun _ member => absurd member List.not_mem_nil⟩
  | cons mark marking ih =>
    obtain ⟨increasing, later⟩ := ih (offset + byteLength mark.text)
    have positive := mark.char.utf8Size_pos
    rcases mark with ⟨c, _ | hole⟩
    · refine ⟨increasing, fun capture member => ?_⟩
      have behind := later capture member
      omega
    · simp only [Mark.text, Option.elim_some, Text.byteLength_cons] at later
      have here : ∀ capture ∈ capturesFrom (offset + byteLength (Mark.text ⟨c, some hole⟩)) marking,
          (hole.capture (offset + byteLength [c])).finding.start < capture.finding.start := by
        intro capture member
        have behind := later capture member
        simp only [Hole.capture, Text.byteLength_cons, Text.byteLength_nil]
        omega
      refine ⟨List.pairwise_cons.mpr ⟨here, increasing⟩, fun capture member => ?_⟩
      rcases List.mem_cons.mp member with rfl | behind
      · show offset < offset + byteLength [c]
        exact Nat.lt_add_of_pos_right (Text.byteLength_pos (by simp))
      · have behind := later capture behind
        omega

/-- The captures of one surface, mark by mark. -/
theorem findingsFrom_segments_cons (s : Surface) (mark : Mark) (marking : Marking) (offset : Nat) :
    (Segments.findingsFrom offset (segments s (mark :: marking)).found).map (Capture.mk s)
      = ((mark.hole.map (Hole.capture (offset + byteLength [mark.char]))).toList.filter
            (·.surface = s))
        ++ (Segments.findingsFrom (offset + byteLength mark.text) (segments s marking).found).map
            (Capture.mk s) := by
  rcases mark with ⟨c, _ | hole⟩
  · simp [segments, segmentsOf, Segments.findingsFrom_prepend, Mark.text]
  · by_cases own : hole.surface = s
    · subst own
      simp [segments, segmentsOf, Segments.push, Segments.findingsFrom, Mark.text, Hole.capture,
        Nat.add_assoc]
    · simp [segments, segmentsOf, own, Segments.findingsFrom_prepend, Mark.text, Hole.capture]

/-- **The holes are what is captured**, surface by surface. -/
theorem perm_capturesFrom (marking : Marking) (offset : Nat) :
    (Surface.all.flatMap fun s =>
      (Segments.findingsFrom offset (segments s marking).found).map (Capture.mk s)).Perm
        (marking.capturesFrom offset) := by
  induction marking generalizing offset with
  | nil => simp [Surface.all, segments, Segments.findingsFrom, capturesFrom]
  | cons mark marking ih =>
    have here : (Surface.all.flatMap fun s =>
          (mark.hole.map (Hole.capture (offset + byteLength [mark.char]))).toList.filter
            (·.surface = s))
        = (mark.hole.map (Hole.capture (offset + byteLength [mark.char]))).toList := by
      rcases mark with ⟨c, _ | ⟨s, value, quote, name⟩⟩
      · rfl
      · cases s <;> rfl
    simp only [findingsFrom_segments_cons]
    refine (List.flatMap_append_perm _ _ _).symm.trans ?_
    rw [here, capturesFrom]
    exact (ih _).append_left _

/-- **The captures of a document with a sound marking** are its holes. -/
theorem Sound.captures_text {marking : Marking} (sound : marking.Sound fun _ => True) :
    captures marking.text = marking.capturesFrom 0 := by
  have cuts : ∀ s : Surface, s.matcher.cut marking.text = marking.segments s :=
    fun s => sound.cuts s trivial
  unfold captures
  simp only [cuts]
  exact Text.eq_of_increasing (fun capture : Capture => capture.finding.start)
    ((List.perm_insertionSort _ _).trans (marking.perm_capturesFrom 0))
    (List.pairwise_insertionSort Capture.Precedes _) (marking.increasing_capturesFrom 0).1

end Marking

end Relabel
