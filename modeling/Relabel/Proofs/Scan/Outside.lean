/-
**What stands around findings.**

A text is the byte ranges of its findings and the stretches around them. Two texts are the same outside their
findings if all stretches are the same, wherever they stand.

* `stretchesFrom`: the stretches around findings.
* `SameOutside`: texts that differ in their findings only.
* `Matcher.Rewrites`: a text in which each value that a matcher finds has become another.
* `Matcher.Steady.rewrites`: replacing values does so.
-/

import Relabel.Proofs.Scan.Replaced
import Relabel.Proofs.Text.Script

namespace Relabel

open Text (byteLength byteLength_append)

/-! ### Stretches -/

/-- The stretches of a text from byte `offset` on, before, between and behind the byte ranges of findings; none if
these overlap, stand in another order or cut a character. -/
def stretchesFrom (text : Text) (offset : Nat) : List Finding → Option (List Text)
  | [] => (Text.slice? text offset (byteLength text)).map ([·])
  | finding :: findings => do
    let stretch ← Text.slice? text offset finding.start
    let later ← stretchesFrom text finding.stop findings
    some (stretch :: later)

/-- Two texts have the same stretches around their findings. -/
def SameOutside (old : Text) (oldFindings : List Finding) (new : Text) (newFindings : List Finding) : Prop :=
  ∃ stretches, stretchesFrom old 0 oldFindings = some stretches
    ∧ stretchesFrom new 0 newFindings = some stretches

namespace Segments

/-- **The stretches around the findings of segments** are their gaps and what follows the last value. -/
theorem stretchesFrom_findingsFrom (front : Text) (segments : Segments) :
    stretchesFrom (front ++ segments.text) (byteLength front) (findingsFrom (byteLength front) segments.found)
      = some (segments.found.map (·.gap) ++ [segments.rest]) := by
  rcases segments with ⟨found, rest⟩
  induction found generalizing front with
  | nil =>
    have whole : front ++ text ⟨[], rest⟩ = front ++ (rest ++ []) := by simp [text]
    rw [whole, findingsFrom, stretchesFrom, byteLength_append, List.append_nil]
    have last := Text.slice?_append front rest []
    rw [List.append_nil] at last
    rw [last]
    rfl
  | cons segment found ih =>
    have whole : front ++ text ⟨segment :: found, rest⟩
        = front ++ (segment.gap ++ (segment.value ++ text ⟨found, rest⟩)) := by
      simp [text]
    have further := ih (front ++ segment.gap ++ segment.value)
    rw [byteLength_append, byteLength_append] at further
    rw [whole, findingsFrom, stretchesFrom, Text.slice?_append]
    simp only [List.append_assoc] at further
    simp only [Option.bind_eq_bind, Option.bind_some, further]
    rfl

/-- Replacing values keeps what stands around them. -/
theorem sameOutside_replaced (segments : Segments) (replace : Segment → Option Text) :
    SameOutside segments.text segments.findings (segments.replaced replace).text
      (segments.replaced replace).findings := by
  refine ⟨segments.found.map (·.gap) ++ [segments.rest], stretchesFrom_findingsFrom [] segments, ?_⟩
  refine (stretchesFrom_findingsFrom [] (segments.replaced replace)).trans ?_
  simp only [replaced, List.map_map]
  rfl

/-- The findings of segments correspond if the segments do, wherever they stand. -/
theorem forall₂_findingsFrom {relates : Finding → Finding → Prop} {found found' : List Segment}
    (related : List.Forall₂ (fun segment segment' : Segment => ∀ start stop start' stop',
      relates ⟨start, stop, segment.value, segment.quote, segment.name⟩
        ⟨start', stop', segment'.value, segment'.quote, segment'.name⟩) found found') (offset offset' : Nat) :
    List.Forall₂ relates (findingsFrom offset found) (findingsFrom offset' found') := by
  induction related generalizing offset offset' with
  | nil => exact List.Forall₂.nil
  | cons first _ ih => exact List.Forall₂.cons (first _ _ _ _) (ih _ _)

end Segments

/-! ### Values that become others -/

namespace Matcher

/-- What the matcher finds in the new text is what it finds in the old one, in the same order, under the same
attribute names and between the same quotes. Each value has become another, and what stands around the values is the
same. -/
structure Rewrites (matcher : Matcher) (becomes : Text → Text → Prop) (old new : Text) : Prop where
  values : List.Forall₂ (fun before after : Finding =>
      after.quote = before.quote ∧ after.name = before.name ∧ becomes before.value after.value)
    (matcher.cut old).findings (matcher.cut new).findings
  outside : SameOutside old (matcher.cut old).findings new (matcher.cut new).findings

/-- **Replacing values rewrites a text.** -/
theorem Steady.rewrites {matcher : Matcher} {replace : Segment → Option Text} (steady : matcher.Steady replace)
    {becomes : Text → Text → Prop} {text : Text}
    (renews : ∀ segment ∈ (matcher.cut text).found,
      becomes segment.value ((replace segment).getD segment.value)) :
    matcher.Rewrites becomes text ((matcher.cut text).substitute replace) := by
  have cut : matcher.cut ((matcher.cut text).substitute replace) = (matcher.cut text).replaced replace :=
    steady.cutFrom_replaced .start text
  constructor
  · rw [cut]
    refine Segments.forall₂_findingsFrom (List.forall₂_map_right_iff.mpr (List.forall₂_same.mpr ?_)) 0 0
    exact fun segment member _ _ _ _ => ⟨rfl, rfl, renews segment member⟩
  · have outside := (matcher.cut text).sameOutside_replaced replace
    rw [matcher.text_cut] at outside
    rw [cut]
    exact outside

end Matcher

end Relabel
