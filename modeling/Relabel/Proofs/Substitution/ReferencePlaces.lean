/-
**Where references are replaced.**

References to ids are found in two ways: as words of the lists that some attributes hold, and as names in
`url(#name)`. A name of the second kind may stand in a word of the first. Then it begins behind the start of
the word, so that the edit of the word comes first and the edit of the name is skipped.

* `ListedWord`, `UrlName`: the references of a document, with their places.
* `ListedWord.place`: a name in `url(#name)` lies strictly within a word of a list, or apart from it.
* `relabelReferences_places`: which references are replaced, and that nothing else changes.
-/

import Relabel.Proofs.Markup.Script
import Relabel.Proofs.Markup.UrlSite
import Relabel.Proofs.Scan.Taken
import Relabel.Proofs.Text.Nested
import Relabel.Proofs.Text.WordPlaces
import Relabel.Substitution.Markup

namespace Relabel

open Segments (stop_of_mem_findings)
open Text (Edit Script StandsAt Word byteLength byteLength_append byteLength_cons byteLength_nil
  byteLength_pos)

/-! ### References -/

/-- A word of a list of ids, with its place in the document. -/
def ListedWord (html : Text) (word : Word) : Prop :=
  ∃ finding ∈ (referenceAttributes.cut html).findings, StandsAt finding.start finding.value word

/-- A name in `url(#name)`, with its place in the document. -/
def UrlName (html : Text) (name : Word) : Prop :=
  ∃ finding ∈ (urlReferences.cut html).findings, name = ⟨finding.start, finding.value⟩

/-- The edit puts a new name in the place of a reference. -/
structure Renames (ids : Renaming) (word : Word) (edit : Edit) : Prop where
  renamed : ids.get? word.text = some edit.text
  start : edit.start = word.start
  stop : edit.stop = word.stop

variable {html : Text} {ids : Renaming} {word name : Word} {edit : Edit}

theorem mem_wordEdits {finding : Finding} :
    edit ∈ wordEdits ids finding ↔ ∃ word, StandsAt finding.start finding.value word ∧ Renames ids word edit := by
  simp only [wordEdits, List.mem_filterMap, Option.map_eq_some_iff]
  constructor
  · rintro ⟨located, member, new, renamed, rfl⟩
    exact ⟨⟨finding.start + located.start, located.text⟩, Text.standsAt_iff.mpr ⟨located, member, rfl⟩,
      renamed, rfl, (Nat.add_assoc _ _ _).symm⟩
  · rintro ⟨word, stands, renamed, start, stop⟩
    obtain ⟨located, member, rfl⟩ := Text.standsAt_iff.mp stands
    refine ⟨located, member, edit.text, renamed, ?_⟩
    rcases edit with ⟨begins, ends, text⟩
    rw [Edit.mk.injEq]
    exact ⟨start.symm, (Nat.add_assoc _ _ _).symm.trans stop.symm, rfl⟩

theorem mem_urlEdits_iff :
    edit ∈ (urlReferences.cut html).findings.filterMap (findingEdit? ids)
      ↔ ∃ name, UrlName html name ∧ Renames ids name edit := by
  simp only [List.mem_filterMap, findingEdit?, Option.map_eq_some_iff]
  constructor
  · rintro ⟨finding, member, new, renamed, rfl⟩
    exact ⟨_, ⟨finding, member, rfl⟩, renamed, rfl, stop_of_mem_findings member⟩
  · rintro ⟨name, ⟨finding, member, rfl⟩, renamed, start, stop⟩
    refine ⟨finding, member, edit.text, renamed, ?_⟩
    rcases edit with ⟨begins, ends, text⟩
    rw [Edit.mk.injEq]
    exact ⟨start.symm, (stop_of_mem_findings member).trans stop.symm, rfl⟩

theorem mem_referenceEdits :
    edit ∈ referenceEdits ids html
      ↔ (∃ word, ListedWord html word ∧ Renames ids word edit) ∨ ∃ name, UrlName html name ∧ Renames ids name edit := by
  rw [referenceEdits, List.mem_append, mem_urlEdits_iff, List.mem_flatMap]
  simp only [mem_wordEdits]
  refine or_congr_left ⟨?_, ?_⟩
  · rintro ⟨finding, member, word, stands, renames⟩
    exact ⟨word, ⟨finding, member, stands⟩, renames⟩
  · rintro ⟨word, ⟨finding, member, stands⟩, renames⟩
    exact ⟨finding, member, word, stands, renames⟩

/-! ### Places -/

/-- What ends a word of a list: white space, or a quote around the list. -/
def EndsWord (c : Char) : Prop :=
  isBlank c = true ∨ isQuote c = true

theorem EndsWord.not_isUrlNameChar {c : Char} (ends : EndsWord c) : isUrlNameChar c = false := by
  rcases ends with blank | quoted
  · simp [isUrlNameChar, blank]
  · simp [isUrlNameChar, quoted]

theorem EndsWord.ne_sharp {c : Char} (ends : EndsWord c) : c ≠ '#' := by
  rintro rfl
  rcases ends with blank | quoted
  · exact absurd blank (by decide)
  · exact absurd quoted (by decide)

/-- **What stands around a word of a list.** -/
theorem ListedWord.surrounded (listed : ListedWord html word) :
    ∃ x c d y, html = x ++ c :: (word.text ++ d :: y) ∧ EndsWord c ∧ EndsWord d
      ∧ word.start = byteLength (x ++ [c]) ∧ word.text ≠ [] := by
  obtain ⟨finding, member, before, behind, value, between, start⟩ := listed
  obtain ⟨a, b, captured, begins, _⟩ := Segments.mem_findings.mp ⟨finding, member, rfl, rfl, rfl⟩
  have site : Site .reference a finding.value b := site_of_captures captured
  obtain ⟨_, _, _, quote, front, rest, _, _, _, quoted, opening, closing⟩ := site.of_rule rfl
  have whole : html = a ++ before ++ (word.text ++ (behind ++ b)) := by
    have parts := captured.text_eq
    rw [Matcher.text_cut] at parts
    rw [parts, value]
    simp
  obtain ⟨x, c, ahead, endsBefore⟩ : ∃ x c, a ++ before = x ++ [c] ∧ EndsWord c := by
    cases last : before.getLast? with
    | none =>
      obtain rfl := List.getLast?_eq_none_iff.mp last
      exact ⟨_, quote, by rw [List.append_nil, opening], Or.inr quoted⟩
    | some c =>
      obtain ⟨init, rfl⟩ := List.getLast?_eq_some_iff.mp last
      exact ⟨a ++ init, c, (List.append_assoc _ _ _).symm, Or.inl (between.opened c last)⟩
  obtain ⟨d, y, follows, endsBehind⟩ : ∃ d y, behind ++ b = d :: y ∧ EndsWord d := by
    cases behind with
    | nil => exact ⟨quote, rest, closing, Or.inr quoted⟩
    | cons d behind => exact ⟨d, behind ++ b, rfl, Or.inl (between.closed d rfl)⟩
  refine ⟨x, c, d, y, ?_, endsBefore, endsBehind, ?_, between.nonempty⟩
  · rw [whole, ahead, follows]
    simp
  · rw [start, ← begins, ← byteLength_append, ahead]

/-- What stands around a name in `url(#name)`. -/
theorem UrlName.surrounded (isName : UrlName html name) :
    ∃ x y, html = x ++ '#' :: (name.text ++ y) ∧ (∀ c ∈ name.text, isUrlNameChar c = true)
      ∧ name.start = byteLength (x ++ ['#']) ∧ name.text ≠ [] := by
  obtain ⟨finding, member, rfl⟩ := isName
  obtain ⟨a, b, captured, begins, _⟩ := Segments.mem_findings.mp ⟨finding, member, rfl, rfl, rfl⟩
  have site : Site .url a finding.value b := site_of_captures captured
  obtain ⟨_, _, _, _, _, _, _, opening, nonempty⟩ := site.of_url
  obtain ⟨x, rfl⟩ : ∃ x, a = x ++ ['#'] := ⟨_, opening⟩
  have parts := captured.text_eq
  rw [Matcher.text_cut] at parts
  exact ⟨x, b, by simp [parts], site.of_sharp.2.2.1, begins.symm, nonempty⟩

/-- Where a name in `url(#name)` may stand beside a word of a list: within it, behind its start, or apart. -/
def SetApart (word name : Word) : Prop :=
  (word.start < name.start ∧ name.stop ≤ word.stop) ∨ name.stop ≤ word.start ∨ word.stop ≤ name.start

/-- **A name in `url(#name)` lies strictly within a word of a list, or apart from it.** The characters around
the word are part of no name, and the character before the name is neither white space nor a quote. -/
theorem ListedWord.place (listed : ListedWord html word) (isName : UrlName html name) : SetApart word name := by
  obtain ⟨x, c, d, y, whole, endsBefore, endsBehind, start, _⟩ := listed.surrounded
  obtain ⟨x', y', whole', inName, start', _⟩ := isName.surrounded
  have absent : ∀ {c : Char}, EndsWord c → c ∉ name.text := fun ends member =>
    Bool.false_ne_true (ends.not_isUrlNameChar.symm.trans (inName _ member))
  have same : x ++ c :: (word.text ++ d :: y) = (x' ++ ['#']) ++ (name.text ++ y') := by
    rw [← whole, whole']
    simp
  have behind : (x ++ c :: word.text) ++ d :: y = (x' ++ ['#']) ++ (name.text ++ y') := by
    rw [← same]
    simp
  simp only [SetApart, Word.stop, start, start']
  rcases exists_apart same (absent endsBefore) with ⟨r, ahead⟩ | ⟨r, rfl⟩
  · have gapped : r ≠ [] := by
      rintro rfl
      exact endsBefore.ne_sharp ((List.append_singleton_inj.mp ahead).2).symm
    have positive := byteLength_pos gapped
    have before := congrArg byteLength ahead
    rcases exists_apart behind (absent endsBehind) with ⟨r', later⟩ | ⟨r', within⟩
    · have sizes := congrArg byteLength later
      simp only [byteLength_append, byteLength_cons, byteLength_nil] at sizes ⊢
      exact Or.inr (Or.inr (by omega))
    · have sizes := congrArg byteLength within
      simp only [byteLength_append, byteLength_cons, byteLength_nil] at before sizes ⊢
      exact Or.inl ⟨by omega, by omega⟩
  · simp only [byteLength_append]
    exact Or.inr (Or.inl (by omega))

/-! ### Edits -/

/-- An edit of a reference replaces a part of the document. -/
theorem fits_of_mem_referenceEdits (member : edit ∈ referenceEdits ids html) : edit.Fits html := by
  rcases mem_referenceEdits.mp member with ⟨word, listed, renames⟩ | ⟨name, isName, renames⟩
  · obtain ⟨x, c, d, y, whole, _, _, start, nonempty⟩ := listed.surrounded
    exact ⟨x ++ [c], word.text, d :: y, by simp [whole], nonempty, renames.start.trans start,
      by rw [renames.stop, Word.stop, start]⟩
  · obtain ⟨x, y, whole, _, start, nonempty⟩ := isName.surrounded
    exact ⟨x ++ ['#'], name.text, y, by simp [whole], nonempty, renames.start.trans start,
      by rw [renames.stop, Word.stop, start]⟩

theorem start_le_stop {segments : Segments} {finding : Finding} (member : finding ∈ segments.findings) :
    finding.start ≤ finding.stop := by
  rw [stop_of_mem_findings member]
  exact Nat.le_add_right _ _

/-- The edits of words are in order, within a list and from one list to the next. -/
theorem before_wordEdits (ids : Renaming) (html : Text) :
    ((referenceAttributes.cut html).findings.flatMap (wordEdits ids)).Pairwise Edit.Before := by
  have scripted : ∀ finding, wordEdits ids finding
      = (Text.wordScript ids.get? finding.value).editsFrom finding.start :=
    fun finding => Text.locatedWords_edits ids.get? finding.start finding.value
  have bounds : ∀ finding ∈ (referenceAttributes.cut html).findings, ∀ edit ∈ wordEdits ids finding,
      finding.start ≤ edit.start ∧ edit.start ≤ edit.stop ∧ edit.stop ≤ finding.stop := by
    intro finding inFindings edit member
    rw [scripted] at member
    have inside := Script.bounds_of_mem member
    rwa [Text.old_wordScript, ← stop_of_mem_findings inFindings] at inside
  refine List.pairwise_flatMap.mpr ⟨fun finding _ => ?_, ?_⟩
  · rw [scripted]
    exact Text.before_wordScript ids.get? finding.value finding.start
  · refine (referenceAttributes.findings_apart html).imp_of_mem fun inFirst inSecond apart a inA b inB => ?_
    have first := bounds _ inFirst a inA
    have second := bounds _ inSecond b inB
    exact ⟨by omega, by omega⟩

theorem before_urlEdits (ids : Renaming) (html : Text) :
    ((urlReferences.cut html).findings.filterMap (findingEdit? ids)).Pairwise Edit.Before := by
  refine List.pairwise_filterMap.mpr ((urlReferences.findings_apart html).imp_of_mem
    fun inFirst _ apart a isFirst b isSecond => ?_)
  obtain ⟨_, _, rfl⟩ := Option.map_eq_some_iff.mp isFirst
  obtain ⟨_, _, rfl⟩ := Option.map_eq_some_iff.mp isSecond
  exact ⟨apart.le, (start_le_stop inFirst).trans_lt apart⟩

/-- The edits of a word of a list and of a name in `url(#name)`. -/
theorem nested_of_places {wordEdit nameEdit : Edit} (listed : ListedWord html word) (isName : UrlName html name)
    (renames : Renames ids word wordEdit) (renames' : Renames ids name nameEdit) :
    nameEdit.Within wordEdit ∨ nameEdit.Before wordEdit ∨ wordEdit.Before nameEdit := by
  have solid := (fits_of_mem_referenceEdits (mem_referenceEdits.mpr (Or.inl ⟨word, listed, renames⟩))).bounds.1
  have solid' := (fits_of_mem_referenceEdits (mem_referenceEdits.mpr (Or.inr ⟨name, isName, renames'⟩))).bounds.1
  have place := listed.place isName
  simp only [SetApart, ← renames.start, ← renames.stop, ← renames'.start, ← renames'.stop] at place
  rcases place with within | behind | before
  · exact Or.inl within
  · exact Or.inr (Or.inl ⟨behind, by omega⟩)
  · exact Or.inr (Or.inr ⟨before, by omega⟩)

theorem nested_referenceEdits (ids : Renaming) (html : Text) : (referenceEdits ids html).Pairwise Edit.Nested := by
  refine List.pairwise_append.mpr ⟨(before_wordEdits ids html).imp fun before => Or.inl (Or.inl before),
    (before_urlEdits ids html).imp fun before => Or.inl (Or.inl before), fun wordEdit inWords nameEdit inNames => ?_⟩
  obtain ⟨finding, inFindings, edited⟩ := List.mem_flatMap.mp inWords
  obtain ⟨word, stands, renames⟩ := mem_wordEdits.mp edited
  obtain ⟨name, isName, renames'⟩ := mem_urlEdits_iff.mp inNames
  rcases nested_of_places ⟨finding, inFindings, stands⟩ isName renames renames' with within | behind | before
  · exact Or.inr (Or.inr within)
  · exact Or.inl (Or.inr behind)
  · exact Or.inl (Or.inl before)

/-! ### What is replaced -/

/-- A name in `url(#name)` that lies in no word of a list that is renamed. -/
def OutsideRenamed (ids : Renaming) (html : Text) (name : Word) : Prop :=
  ∀ word new, ListedWord html word → ids.get? word.text = some new →
    ¬ (word.start ≤ name.start ∧ name.stop ≤ word.stop)

/-- The edit of a word of a list is never skipped, and that of a name in `url(#name)` is skipped exactly where the
name lies in a word of a list that is renamed. -/
theorem mem_outermost_referenceEdits :
    edit ∈ Text.outermost (referenceEdits ids html)
      ↔ (∃ word, ListedWord html word ∧ Renames ids word edit)
        ∨ ∃ name, UrlName html name ∧ OutsideRenamed ids html name ∧ Renames ids name edit := by
  rw [Text.mem_outermost]
  constructor
  · rintro ⟨member, alone⟩
    refine (mem_referenceEdits.mp member).imp id ?_
    rintro ⟨name, isName, renames⟩
    refine ⟨name, isName, fun word new listed renamed inside => ?_, renames⟩
    have around : Renames ids word ⟨word.start, word.stop, new⟩ := ⟨renamed, rfl, rfl⟩
    have solid := (fits_of_mem_referenceEdits member).bounds.1
    rw [← renames.start, ← renames.stop] at inside
    rcases nested_of_places listed isName around renames with within | before | behind
    · exact alone _ (mem_referenceEdits.mpr (Or.inl ⟨word, listed, around⟩)) within
    · exact absurd (before.1.trans inside.1) (Nat.not_le.mpr solid)
    · exact absurd (inside.2.trans behind.1) (Nat.not_le.mpr solid)
  · rintro (⟨word, listed, renames⟩ | ⟨name, isName, outside, renames⟩)
    · have member := mem_referenceEdits.mpr (Or.inl ⟨word, listed, renames⟩)
      have solid := (fits_of_mem_referenceEdits member).bounds.1
      refine ⟨member, fun outer inEdits within => ?_⟩
      rcases mem_referenceEdits.mp inEdits with ⟨word', listed', renames'⟩ | ⟨name, isName, renames'⟩
      · have inWords : ∀ {word edit}, ListedWord html word → Renames ids word edit →
            edit ∈ (referenceAttributes.cut html).findings.flatMap (wordEdits ids) := by
          rintro word edit ⟨finding, inFindings, stands⟩ renames
          exact List.mem_flatMap.mpr ⟨finding, inFindings, mem_wordEdits.mpr ⟨word, stands, renames⟩⟩
        exact Text.not_within_of_before (before_wordEdits ids html) (inWords listed renames)
          (inWords listed' renames') solid within
      · rcases nested_of_places listed isName renames renames' with inner | apart
        · exact absurd inner.1 (Nat.not_lt.mpr within.1.le)
        · exact within.not_before solid apart.symm
    · have member := mem_referenceEdits.mpr (Or.inr ⟨name, isName, renames⟩)
      have solid := (fits_of_mem_referenceEdits member).bounds.1
      refine ⟨member, fun outer inEdits within => ?_⟩
      rcases mem_referenceEdits.mp inEdits with ⟨word, listed, renames'⟩ | ⟨name', isName', renames'⟩
      · refine outside word outer.text listed renames'.renamed ?_
        rw [← renames.start, ← renames.stop, ← renames'.start, ← renames'.stop]
        exact ⟨within.1.le, within.2⟩
      · exact Text.not_within_of_before (before_urlEdits ids html) (mem_urlEdits_iff.mpr ⟨name, isName, renames⟩)
          (mem_urlEdits_iff.mpr ⟨name', isName', renames'⟩) solid within

/-- **Which references are replaced.** Every word of a list of ids that is renamed is replaced, and every renamed
name in `url(#name)` that lies in no such word; all other text is kept. Names in `url(#name)` do not overlap, and
each of them lies strictly within a word of a list or apart from it. -/
theorem relabelReferences_places (ids : Renaming) (html : Text) :
    (∃ script : Script, script.old = html ∧ script.new = relabelReferences ids html
        ∧ ∀ edit, edit ∈ script.edits
          ↔ (∃ word, ListedWord html word ∧ Renames ids word edit)
            ∨ ∃ name, UrlName html name ∧ OutsideRenamed ids html name ∧ Renames ids name edit)
      ∧ ((urlReferences.cut html).findings.Pairwise fun first second => first.stop < second.start)
      ∧ ∀ word name, ListedWord html word → UrlName html name → SetApart word name := by
  obtain ⟨script, old, applied, edits⟩ := Text.applyEdits_of_nested
    (fun _ => fits_of_mem_referenceEdits) (nested_referenceEdits ids html)
  refine ⟨⟨script, old, ?_, fun edit => (edits edit).trans mem_outermost_referenceEdits⟩,
    urlReferences.findings_apart html, fun word name listed isName => listed.place isName⟩
  rw [relabelReferences, applied]
  rfl

end Relabel
