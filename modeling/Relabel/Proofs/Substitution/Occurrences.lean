/-
**Ids and references to ids.**

Relabelling a document keeps its ids and the references to them in their places and replaces each of
them by itself, whether it stands on its own, in a list or in a link.

* `occurrences`, `mem_occurrences`: the ids and references of a document, in order.
* `Surface.occurrences_renew`: what becomes of those in one captured value.
* `Separable.occurrences_relabelDocument`: those of a relabelled document.
-/

import Relabel.Proofs.Substitution.Document
import Relabel.Proofs.Substitution.Respelled

namespace Relabel

/-! ### Occurrences -/

/-- An id or a reference to one, and what holds it. -/
structure Occurrence where
  surface : Surface
  target : Text
  deriving DecidableEq

/-- The ids that a captured value names: a link does so behind its number sign, a list by each of its
words. -/
def Surface.targets : Surface → Text → List Text
  | .id, value | .url, value => [value]
  | .fragment, value => [value.drop 1]
  | .reference, value => Text.words value
  | .cls, _ | .style, _ => []

/-- The ids and references in a captured value. -/
def Surface.occurrences (s : Surface) (value : Text) : List Occurrence :=
  (s.targets value).map (Occurrence.mk s)

/-- The ids and references of a document, in order. -/
def occurrences (html : Text) : List Occurrence :=
  (captures html).flatMap fun capture => capture.surface.occurrences capture.finding.value

theorem Segments.map_value_findings (segments : Segments) :
    segments.findings.map (·.value) = segments.values := by
  have general : ∀ (found : List Segment) (offset : Nat),
      (findingsFrom offset found).map (·.value) = found.map (·.value) := by
    intro found
    induction found with
    | nil => exact fun _ => rfl
    | cons segment found ih => exact fun offset => congrArg (segment.value :: ·) (ih _)
  exact general segments.found 0

/-- The ids and references of a document come from its captured values. -/
theorem mem_occurrences {html : Text} {occurrence : Occurrence} :
    occurrence ∈ occurrences html
      ↔ ∃ value ∈ (occurrence.surface.matcher.cut html).values,
          occurrence.target ∈ occurrence.surface.targets value := by
  simp only [occurrences, captures, List.mem_flatMap, List.mem_insertionSort, List.mem_map,
    ← Segments.map_value_findings, Surface.occurrences]
  constructor
  · rintro ⟨_, ⟨s, _, finding, found, rfl⟩, target, isTarget, rfl⟩
    exact ⟨finding.value, ⟨finding, found, rfl⟩, isTarget⟩
  · rintro ⟨_, ⟨finding, found, rfl⟩, isTarget⟩
    exact ⟨_, ⟨occurrence.surface, by cases occurrence.surface <;> decide, finding, found, rfl⟩,
      occurrence.target, isTarget, rfl⟩

/-- The occurrence with the new name of its target. -/
def Occurrence.follow (ids : Renaming) (occurrence : Occurrence) : Occurrence :=
  { occurrence with target := ids.apply occurrence.target }

/-- What becomes of an occurrence: links that cannot be links to ids are kept. -/
def Occurrence.renamed (ids : Renaming) (occurrence : Occurrence) : Occurrence :=
  if occurrence.surface = .fragment ∧ isForeignFragment occurrence.target = true then occurrence
  else occurrence.follow ids

/-! ### One value -/

/-- The target of a relabelled link. -/
theorem drop_relabelFragment (ids : Renaming) (target : Text) :
    ((relabelFragment ids ('#' :: target)).getD ('#' :: target)).drop 1
      = if isForeignFragment target = true then target else ids.apply target := by
  have found : Text.after? "#" ('#' :: target) = some target := rfl
  simp only [relabelFragment, found, Option.bind_eq_bind, Option.bind_some]
  split
  · rfl
  · unfold Renaming.apply
    cases ids.get? target <;> rfl

/-- **What becomes of the ids and references in a captured value.** -/
theorem Surface.occurrences_renew {names : Renamings} (giveNames : names.GiveNames) {s : Surface}
    {value : Text} (link : s = .fragment → value.head? = some '#') :
    s.occurrences (s.renew names value) = (s.occurrences value).map (Occurrence.renamed names.ids) := by
  cases s with
  | cls | style => rfl
  | id | url => simp [occurrences, targets, renew, Occurrence.renamed, Occurrence.follow]
  | fragment =>
    obtain ⟨target, rfl⟩ := List.head?_eq_some_iff.mp (link rfl)
    have renewed := drop_relabelFragment names.ids target
    simp only [occurrences, targets, renew, List.map_cons, List.map_nil, renewed]
    by_cases foreign : isForeignFragment target = true <;> simp [Occurrence.renamed, Occurrence.follow, foreign]
  | reference =>
    have words : Text.words (Text.wordScript names.ids.get? value).new
        = (Text.words value).map names.ids.apply := words_wordScript (giveNames .id)
    simp [occurrences, targets, renew, words, Occurrence.renamed, Occurrence.follow]

/-! ### Documents -/

/-- The ids and references of a document with a sound marking. -/
theorem Marking.Sound.occurrences_text {marking : Marking} (sound : marking.Sound fun _ => True) :
    occurrences marking.text = marking.holes.flatMap fun hole => hole.surface.occurrences hole.value := by
  have values := congrArg (List.flatMap fun value : Surface × Text => value.1.occurrences value.2)
    (marking.values_capturesFrom 0)
  rw [List.flatMap_map, List.flatMap_map] at values
  rw [occurrences, sound.captures_text]
  exact values

/-- A link in a hole begins with a number sign. -/
theorem Marking.Sound.head_link {marking : Marking} (sound : marking.Sound fun _ => True)
    {hole : Hole} (member : hole ∈ marking.holes) (isLink : hole.surface = .fragment) :
    hole.value.head? = some '#' := by
  obtain ⟨x, y, captured⟩ := exists_captures member
  rw [← sound.cuts hole.surface trivial] at captured
  have site := site_of_captures captured
  rw [isLink] at site
  simpa using site.accepted rfl

/-- Quiet renamings give names. -/
theorem Renaming.Quiet.givesNames {names : Renaming} (quiet : names.Quiet) : names.GivesNames := by
  intro name member
  obtain ⟨⟨token, _⟩, isEntry, rfl⟩ := List.mem_map.mp member
  exact (quiet token _ (OrderedMap.get?_eq_some_iff.mpr isEntry)).2.isName

/-- **The ids and references of a relabelled document** are the old ones, each of them renamed, in the
same order. -/
theorem Separable.occurrences_relabelDocument {names : Renamings} {html : Text}
    (separable : Separable html) (quiet : ∀ kind, (names.ofKind kind).Quiet) :
    occurrences (relabelDocument names html)
      = (occurrences html).map (Occurrence.renamed names.ids) := by
  have giveNames : names.GiveNames := fun kind => (quiet kind).givesNames
  obtain ⟨marking, rfl, sound⟩ := separable.exists_marking
  obtain ⟨text, _, later⟩ := sound.relabelDocument_text giveNames
  have soundLater := later fun hole _ _ => urlRefill_relabelStylesheet quiet hole.value
  rw [text, soundLater.occurrences_text, sound.occurrences_text, Marking.holes_fill,
    List.flatMap_map, List.map_flatMap]
  refine List.flatMap_congr fun hole member => ?_
  exact Surface.occurrences_renew giveNames fun isLink => sound.head_link member isLink

end Relabel
