/-
**Scripts of edits for documents.**

If each hole has a script for its value, then the marking has one for the document. Its edits are those
of the holes, surface by surface, and no two of them touch.

* `Segments.scriptBy`, `Segments.script`: the scripts of a cut.
* `Segments.mem_valueEdits`: its edits are those of the captured values.
* `Marking.script`: the script of a document.
* `Marking.before_script`: its edits are in order.
* `Marking.perm_edits`: its edits are those of the captured values.
* `Marking.applyEdits_eq`: applying the edits of the captured values, in any order.
-/

import Relabel.Proofs.Markup.Captures
import Relabel.Proofs.Markup.Joint

namespace Relabel

open Text (byteLength Edit Script)

namespace Segments

theorem stop_of_mem_findings {segments : Segments} {finding : Finding}
    (member : finding ∈ segments.findings) : finding.stop = finding.start + byteLength finding.value := by
  have general : ∀ (found : List Segment) (offset : Nat), finding ∈ findingsFrom offset found →
      finding.stop = finding.start + byteLength finding.value := by
    intro found
    induction found with
    | nil => simp [findingsFrom]
    | cons segment found ih =>
      intro offset member
      rcases List.mem_cons.mp member with rfl | behind
      · rfl
      · exact ih _ behind
  exact general segments.found 0 member

end Segments

/-- The edits of the values that are found, each with its own script. -/
def findingEdits (edit : Text → Script) (findings : List Finding) : List Edit :=
  findings.flatMap fun finding => (edit finding.value).editsFrom finding.start

/-- The edits that replace whole values. -/
def valueEdits (replace : Text → Option Text) (findings : List Finding) : List Edit :=
  findings.filterMap fun finding =>
    (replace finding.value).map fun new => ⟨finding.start, finding.stop, new⟩

theorem findingEdits_eq_valueEdits (replace : Text → Option Text) (segments : Segments) :
    findingEdits (fun value => [⟨value, replace value⟩]) segments.findings
      = valueEdits replace segments.findings := by
  rw [findingEdits, valueEdits, List.filterMap_eq_flatMap_toList]
  refine List.flatMap_congr fun finding member => ?_
  rw [Segments.stop_of_mem_findings member]
  simp [Script.editsFrom]

theorem findingEdits_none (findings : List Finding) :
    findingEdits (fun value => [⟨value, none⟩]) findings = [] := by
  simp [findingEdits, Script.editsFrom]

/-! ### Cuts -/

namespace Segments

section Segmentwise

variable (replace : Segment → Option Text)

/-- The script that replaces captured values, each as its segment says. -/
def scriptBy (segments : Segments) : Script :=
  segments.found.flatMap (fun segment => [⟨segment.gap, none⟩, ⟨segment.value, replace segment⟩])
    ++ [⟨segments.rest, none⟩]

/-- The edits that do so, for segments that begin at byte `offset`. -/
def editsBy (offset : Nat) (found : List Segment) : List Edit :=
  (found.zip (findingsFrom offset found)).filterMap fun (segment, finding) =>
    (replace segment).map fun new => ⟨finding.start, finding.stop, new⟩

theorem editsBy_cons (offset : Nat) (segment : Segment) (found : List Segment) :
    editsBy replace offset (segment :: found)
      = ((replace segment).map fun new => ⟨offset + byteLength segment.gap,
            offset + byteLength segment.gap + byteLength segment.value, new⟩).toList
        ++ editsBy replace (offset + byteLength segment.gap + byteLength segment.value) found := by
  simp only [editsBy, findingsFrom, List.zip_cons_cons, List.filterMap_cons]
  cases replace segment <;> rfl

theorem scriptBy_push (segment : Segment) (segments : Segments) :
    (segments.push segment).scriptBy replace
      = ⟨segment.gap, none⟩ :: ⟨segment.value, replace segment⟩ :: segments.scriptBy replace :=
  rfl

variable {replace}

@[simp]
theorem old_scriptBy (segments : Segments) : (segments.scriptBy replace).old = segments.text := by
  rcases segments with ⟨found, rest⟩
  induction found with
  | nil => simp [scriptBy, Script.old, text]
  | cons segment found ih =>
    have pushed := scriptBy_push replace segment ⟨found, rest⟩
    have whole := text_push segment ⟨found, rest⟩
    rw [push] at pushed whole
    rw [pushed, whole, Script.old_cons, Script.old_cons, ih, List.append_assoc]

theorem new_scriptBy (segments : Segments) : (segments.scriptBy replace).new = segments.substitute replace := by
  rcases segments with ⟨found, rest⟩
  induction found with
  | nil => simp [scriptBy, Script.new, Text.Piece.new, substitute, text]
  | cons segment found ih =>
    have pushed := scriptBy_push replace segment ⟨found, rest⟩
    have whole := substitute_push segment replace ⟨found, rest⟩
    rw [push] at pushed whole
    rw [pushed, whole, Script.new_cons, Script.new_cons, ih, List.append_assoc]
    rfl

theorem editsFrom_scriptBy (segments : Segments) (offset : Nat) :
    (segments.scriptBy replace).editsFrom offset = editsBy replace offset segments.found := by
  rcases segments with ⟨found, rest⟩
  induction found generalizing offset with
  | nil => simp [scriptBy, Script.editsFrom, editsBy]
  | cons segment found ih =>
    have pushed := scriptBy_push replace segment ⟨found, rest⟩
    rw [push] at pushed
    rw [pushed, Script.editsFrom, Script.editsFrom, ih, editsBy_cons]
    rfl

/-- Edits of captured values that have text before them are in order. -/
theorem before_scriptBy {segments : Segments} (spaced : segments.Spaced) (offset : Nat) :
    ((segments.scriptBy replace).editsFrom offset).Pairwise Edit.Before
      ∧ ∀ e ∈ (segments.scriptBy replace).editsFrom offset, offset < e.start := by
  rcases segments with ⟨found, rest⟩
  induction found generalizing offset with
  | nil => simp [scriptBy, Script.editsFrom]
  | cons segment found ih =>
    have positive := Text.byteLength_pos (spaced segment List.mem_cons_self)
    obtain ⟨inOrder, later⟩ := ih (offset + byteLength segment.gap + byteLength segment.value)
      fun other member => spaced other (List.mem_cons_of_mem _ member)
    have pushed := scriptBy_push replace segment ⟨found, rest⟩
    rw [push] at pushed
    rw [pushed, Script.editsFrom, Script.editsFrom]
    cases replace segment with
    | none =>
      refine ⟨inOrder, fun e member => ?_⟩
      have behind := later e member
      omega
    | some new =>
      refine ⟨List.pairwise_cons.mpr ⟨fun e member => ?_, inOrder⟩, fun e member => ?_⟩
      · have behind := later e member
        exact ⟨by simp only; omega, by simp only; omega⟩
      · rcases List.mem_cons.mp member with rfl | member
        · simp only
          omega
        · have behind := later e member
          omega

end Segmentwise

variable (replace : Text → Option Text)

/-- The script that replaces captured values. -/
def script (segments : Segments) : Script :=
  segments.found.flatMap (fun segment => [⟨segment.gap, none⟩, ⟨segment.value, replace segment.value⟩])
    ++ [⟨segments.rest, none⟩]

theorem script_eq_scriptBy (segments : Segments) :
    segments.script replace = segments.scriptBy fun found => replace found.value :=
  rfl

/-- The edits of whole values do not depend on more than the values. -/
theorem editsBy_value (offset : Nat) (found : List Segment) :
    editsBy (fun segment => replace segment.value) offset found = valueEdits replace (findingsFrom offset found) := by
  induction found generalizing offset with
  | nil => rfl
  | cons segment found ih =>
    rw [editsBy_cons, ih, valueEdits, valueEdits, findingsFrom, List.filterMap_cons]
    cases replace segment.value <;> rfl

variable {replace}

@[simp]
theorem old_script (segments : Segments) : (segments.script replace).old = segments.text :=
  old_scriptBy segments

theorem new_script (segments : Segments) :
    (segments.script replace).new = segments.substitute fun found => replace found.value :=
  new_scriptBy segments

/-- The edits of the script are those of the captured values. -/
theorem editsFrom_script (segments : Segments) (offset : Nat) :
    (segments.script replace).editsFrom offset
      = valueEdits replace (findingsFrom offset segments.found) := by
  rw [script_eq_scriptBy, editsFrom_scriptBy, editsBy_value]

/-- **What is edited** are the captured values for which there is another. -/
theorem mem_valueEdits {segments : Segments} {offset : Nat} {e : Edit} :
    e ∈ valueEdits replace (findingsFrom offset segments.found)
      ↔ ∃ x v y, segments.Captures x v y ∧ replace v = some e.text ∧ offset + byteLength x = e.start
          ∧ offset + byteLength x + byteLength v = e.stop := by
  rw [valueEdits, List.mem_filterMap]
  constructor
  · rintro ⟨finding, member, edited⟩
    obtain ⟨new, renamed, rfl⟩ := Option.map_eq_some_iff.mp edited
    obtain ⟨x, y, captured, start, stop⟩ := mem_findingsFrom.mp ⟨finding, member, rfl, rfl, rfl⟩
    exact ⟨x, _, y, captured, renamed, start, stop⟩
  · rintro ⟨x, v, y, captured, renamed, start, stop⟩
    obtain ⟨finding, member, start', stop', rfl⟩ :=
      mem_findingsFrom.mpr ⟨x, y, captured, start, stop⟩
    exact ⟨finding, member, by rw [renamed, start', stop']; rfl⟩

/-- The edits of captured values, each with its own script. -/
theorem mem_findingEdits {edit : Text → Script} {segments : Segments} {e : Edit} :
    e ∈ findingEdits edit segments.findings
      ↔ ∃ x v y, segments.Captures x v y ∧ e ∈ (edit v).editsFrom (byteLength x) := by
  rw [findingEdits, List.mem_flatMap]
  constructor
  · rintro ⟨finding, member, edited⟩
    obtain ⟨x, y, captured, start, _⟩ := mem_findings.mp ⟨finding, member, rfl, rfl, rfl⟩
    exact ⟨x, _, y, captured, start ▸ edited⟩
  · rintro ⟨x, v, y, captured, edited⟩
    obtain ⟨finding, member, start, _, rfl⟩ := mem_findings.mpr ⟨x, y, captured, rfl, rfl⟩
    exact ⟨finding, member, by rwa [start]⟩

/-- Edits of captured values that have text before them are in order. -/
theorem before_script {segments : Segments} (spaced : segments.Spaced) (offset : Nat) :
    ((segments.script replace).editsFrom offset).Pairwise Edit.Before
      ∧ ∀ e ∈ (segments.script replace).editsFrom offset, offset < e.start :=
  before_scriptBy spaced offset

end Segments

/-! ### Markings -/

namespace Marking

variable (edit : Surface → Text → Script)

/-- The script of a mark. -/
def markScript (mark : Mark) : Script :=
  ⟨[mark.char], none⟩ :: mark.hole.elim [] fun hole => edit hole.surface hole.value

/-- The script of a document. -/
def script (marking : Marking) : Script :=
  marking.flatMap (markScript edit)

variable {edit}

theorem new_script (marking : Marking) :
    (marking.script edit).new = (marking.fill fun s value => (edit s value).new).text := by
  induction marking with
  | nil => rfl
  | cons mark marking ih =>
    rw [script, List.flatMap_cons, Script.new_append, ← script, ih, fill_cons, text_cons]
    rcases mark with ⟨c, _ | hole⟩ <;> rfl

/-- The edits of a document begin behind its first character. -/
theorem lt_start_of_mem {marking : Marking} {offset : Nat} {e : Edit}
    (member : e ∈ (marking.script edit).editsFrom offset) : offset < e.start := by
  cases marking with
  | nil => simp [script, Script.editsFrom] at member
  | cons mark marking =>
    have positive := mark.char.utf8Size_pos
    rw [script, List.flatMap_cons, markScript, List.cons_append] at member
    have bounds := Script.bounds_of_mem (List.mem_append.mp member |>.resolve_left (by simp))
    simp only [Text.byteLength_cons, Text.byteLength_nil] at bounds
    omega

/-- What is asked of the scripts of values. -/
structure Orderly (edit : Surface → Text → Script) : Prop where
  old : ∀ s value, (edit s value).old = value
  before : ∀ s value offset, ((edit s value).editsFrom offset).Pairwise Edit.Before

variable (orderly : Orderly edit)

include orderly

theorem old_markScript (mark : Mark) : (markScript edit mark).old = mark.text := by
  rcases mark with ⟨c, _ | hole⟩
  · rfl
  · exact congrArg (c :: ·) (orderly.old hole.surface hole.value)

@[simp]
theorem old_script (marking : Marking) : (marking.script edit).old = marking.text := by
  induction marking with
  | nil => rfl
  | cons mark marking ih =>
    rw [script, List.flatMap_cons, Script.old_append, old_markScript orderly, ← script, ih, text_cons]

/-- **The edits of a script are in order.** Each hole stands behind a character. -/
theorem before_script (marking : Marking) (offset : Nat) :
    ((marking.script edit).editsFrom offset).Pairwise Edit.Before := by
  induction marking generalizing offset with
  | nil => exact List.Pairwise.nil
  | cons mark marking ih =>
    rw [script, List.flatMap_cons, Script.editsFrom_append, ← script, old_markScript orderly]
    refine List.pairwise_append.mpr ⟨?_, ih _, fun first inMark second behind => ?_⟩
    · rcases mark with ⟨c, _ | hole⟩
      · exact List.Pairwise.nil
      · exact orderly.before hole.surface hole.value _
    · have bounds := Script.bounds_of_mem inMark
      have later := lt_start_of_mem behind
      rw [old_markScript orderly] at bounds
      exact ⟨by omega, by omega⟩

/-- The edits of a script, hole by hole. -/
theorem editsFrom_script (marking : Marking) (offset : Nat) :
    (marking.script edit).editsFrom offset = (marking.capturesFrom offset).flatMap fun capture =>
      (edit capture.surface capture.finding.value).editsFrom capture.finding.start := by
  induction marking generalizing offset with
  | nil => rfl
  | cons mark marking ih =>
    rw [script, List.flatMap_cons, Script.editsFrom_append, ← script, old_markScript orderly, ih,
      capturesFrom, List.flatMap_append]
    rcases mark with ⟨c, _ | hole⟩
    · rfl
    · simp [markScript, Script.editsFrom, Hole.capture]

/-- **The edits of a script are those of the captured values**, surface by surface. -/
theorem perm_edits (marking : Marking) (offset : Nat) :
    ((marking.script edit).editsFrom offset).Perm
      (Surface.all.flatMap fun s =>
        findingEdits (edit s) (Segments.findingsFrom offset (segments s marking).found)) := by
  have perm := (perm_capturesFrom marking offset).symm.flatMap_right fun capture =>
    (edit capture.surface capture.finding.value).editsFrom capture.finding.start
  rw [editsFrom_script orderly]
  simpa only [List.flatMap_assoc, List.flatMap_map, findingEdits] using perm

/-- **Applying the edits of the captured values**, in any order. -/
theorem applyEdits_eq {marking : Marking} {edits : List Edit}
    (perm : edits.Perm (Surface.all.flatMap fun s =>
      findingEdits (edit s) (marking.segments s).findings)) :
    Text.applyEdits marking.text edits
      = some (marking.fill fun s value => (edit s value).new).text := by
  rw [← old_script orderly, ← new_script]
  exact Text.applyEdits_of_perm (perm.trans (perm_edits orderly marking 0).symm)
    (before_script orderly marking 0)

end Marking

end Relabel
