/-
**Every replacement is made.**

Each pass over a text replaces values where they are found, and every one of these edits is applied as it is: none is
skipped, none begins or ends within a character. References to ids are the exception, for a name in `url(#name)` may
lie within a word that is replaced as well; but there too all byte ranges fit the text.

* `Matcher.appliedInFull`: replacing values that a matcher finds.
* `selectorEdits`, `restyled?`, `redirect?`: what some of the passes replace.
* `InFull`: what is applied in full.
* `edits_appliedInFull`: what is found is well placed, and what is replaced is replaced in full.
-/

import Relabel.Proofs.Markup.Script
import Relabel.Proofs.Scan.Placed
import Relabel.Proofs.Substitution.ReferencePlaces
import Relabel.Proofs.Substitution.SelectorGrammar
import Relabel.Proofs.Text.Accepted
import Relabel.Proofs.Text.WordRanges
import Relabel.Script.Relocate

namespace Relabel

open Text (AppliedInFull Edit byteLength slice?)

/-! ### Replaced values -/

/-- Two ways to replace values that make the same of each value make the same of a text. -/
theorem Segments.substitute_congr {segments : Segments} {replace replace' : Segment → Option Text}
    (same : ∀ segment ∈ segments.found, (replace segment).getD segment.value = (replace' segment).getD segment.value) :
    segments.substitute replace = segments.substitute replace' := by
  have found : segments.found.map (·.replaced replace) = segments.found.map (·.replaced replace') := by
    refine List.map_congr_left fun segment member => ?_
    rw [Segment.replaced, Segment.replaced, same segment member]
  rw [substitute, substitute, found]

namespace Matcher

/-- **The edits of values that are found are applied in full.** -/
theorem appliedInFull_editsBy (matcher : Matcher) (replace : Segment → Option Text) (text : Text) :
    AppliedInFull text (Segments.editsBy replace 0 (matcher.cut text).found)
      ((matcher.cut text).substitute replace) := by
  have before : ((matcher.cut text).scriptBy replace).edits.Pairwise Edit.Before :=
    (Segments.before_scriptBy (fun _ => gap_ne_nil) 0).1
  have inFull := Text.Script.appliedInFull before
  rwa [Segments.old_scriptBy, Segments.new_scriptBy, text_cut, Text.Script.edits, Segments.editsFrom_scriptBy] at inFull

theorem appliedInFull (matcher : Matcher) (replace : Text → Option Text) (text : Text) :
    AppliedInFull text (valueEdits replace (matcher.cut text).findings)
      ((matcher.cut text).substitute fun found => replace found.value) := by
  rw [Segments.findings, ← Segments.editsBy_value]
  exact matcher.appliedInFull_editsBy _ text

end Matcher

/-! ### What is replaced -/

/-- The edit that replaces the name of a selector, if it has a new one. -/
def selectorEdit? (names : Renamings) (located : Kind × Finding) : Option Edit :=
  ((names.ofKind located.1).get? located.2.value).map fun new => ⟨located.2.start, located.2.stop, new⟩

/-- The edits that replace the names of selectors. -/
def selectorEdits (names : Renamings) (css : Text) : List Edit :=
  (locatedSelectors css).filterMap (selectorEdit? names)

/-- The new body of a style element, if it differs. -/
def restyled? (names : Renamings) (css : Text) : Option Text :=
  if relabelStylesheet names css = css then none else some (relabelStylesheet names css)

/-- The copy that a reference to a script is replaced by. -/
def redirect? [InternationalNames] (base : Option Url) (paths : OrderedMap Text) (reference : Text) : Option Text := do
  let url ← resolve? base reference
  paths.get? (scriptAddress url)

theorem selectorEdits_eq (names : Renamings) (css : Text) :
    selectorEdits names css
      = Segments.editsBy (fun selector => (names.ofKind selector.kind).get? selector.value) 0
          (selectors.cut css).found := by
  have general : ∀ (found : List Segment) (offset : Nat),
      ((found.map (·.kind)).zip (Segments.findingsFrom offset found)).filterMap (selectorEdit? names)
        = Segments.editsBy (fun selector => (names.ofKind selector.kind).get? selector.value) offset found := by
    intro found
    induction found with
    | nil => exact fun _ => rfl
    | cons segment found ih =>
      intro offset
      rw [Segments.editsBy_cons, ← ih, Segments.findingsFrom, List.map_cons, List.zip_cons_cons, List.filterMap_cons,
        selectorEdit?]
      cases (names.ofKind segment.kind).get? segment.value <;> rfl
  exact general (selectors.cut css).found 0

theorem relabelStyles_eq (names : Renamings) (html : Text) :
    relabelStyles names html = (styleBodies.cut html).substitute fun found => restyled? names found.value := by
  refine Segments.substitute_congr fun segment _ => ?_
  by_cases same : relabelStylesheet names segment.value = segment.value
  · rw [restyled?, if_pos same, Option.getD_some, Option.getD_none, same]
  · rw [restyled?, if_neg same]

/-! ### All passes -/

/-- Each pass over a text applies its edits in full. Edits of references may lie within one another, so that some of
them are skipped; but none cuts a character or reaches beyond the text, and the words of lists are taken from where
they stand. -/
structure InFull [InternationalNames] (names : Renamings) (base : Option Url) (paths : OrderedMap Text) (text : Text) :
    Prop where
  classes : AppliedInFull text (valueEdits (relabelClassValue names.classes) (classAttributes.cut text).findings)
    (relabelClassAttributes names.classes text)
  ids : AppliedInFull text (valueEdits names.ids.get? (idAttributes.cut text).findings)
    (relabelIdAttributes names.ids text)
  fragments : AppliedInFull text (valueEdits (relabelFragment names.ids) (fragmentAttributes.cut text).findings)
    (relabelFragments names.ids text)
  styles : AppliedInFull text (valueEdits (restyled? names) (styleBodies.cut text).findings) (relabelStyles names text)
  selectors : AppliedInFull text (selectorEdits names text) (relabelStylesheet names text)
  scripts : AppliedInFull text (valueEdits (redirect? base paths) (scriptAttributes.cut text).findings)
    (redirectScripts base paths text)
  references : Text.applyEdits text (referenceEdits names.ids text) = some (relabelReferences names.ids text)
  words : ∀ finding ∈ (referenceAttributes.cut text).findings, ∀ word ∈ Text.locatedWords finding.value,
    slice? finding.value word.start word.stop = some word.text

theorem inFull [InternationalNames] (names : Renamings) (base : Option Url) (paths : OrderedMap Text) (text : Text) :
    InFull names base paths text where
  classes := classAttributes.appliedInFull _ text
  ids := idAttributes.appliedInFull _ text
  fragments := fragmentAttributes.appliedInFull _ text
  styles := by
    rw [relabelStyles_eq]
    exact styleBodies.appliedInFull _ text
  selectors := by
    rw [selectorEdits_eq]
    exact selectors.appliedInFull_editsBy _ text
  scripts := scriptAttributes.appliedInFull _ text
  references := by
    obtain ⟨script, _, applied, _⟩ := Text.applyEdits_of_nested (fun _ => fits_of_mem_referenceEdits)
      (nested_referenceEdits names.ids text)
    rw [relabelReferences, applied]
    rfl
  words _ _ _ member := Text.slice?_of_mem_locatedWords member

/-- **What is found is well placed, and what is replaced is replaced in full.** The ranges of all findings fit the
text, and values between quotes are enclosed by them. So the edits of a pass are applied as they are, whatever the text
and whatever the new names. -/
theorem edits_appliedInFull [InternationalNames] (text : Text) :
    (∀ matcher ∈ quotedMatchers ++ bareMatchers, WellPlaced text (matcher.cut text).findings)
      ∧ WellPlaced text ((locatedSelectors text).map Prod.snd)
      ∧ (∀ matcher ∈ quotedMatchers, ∀ finding ∈ (matcher.cut text).findings, ∃ quote, finding.Enclosed text quote)
      ∧ (∀ matcher ∈ bareMatchers, ∀ finding ∈ (matcher.cut text).findings, finding.quote = none)
      ∧ ∀ names base paths, InFull names base paths text := by
  refine ⟨fun matcher _ => matcher.wellPlaced text, ?_, fun _ quotes _ => Matcher.exists_enclosed quotes,
    fun _ bare _ => Matcher.quote_of_bare bare, fun names base paths => inFull names base paths text⟩
  have located : (locatedSelectors text).map Prod.snd = (selectors.cut text).findings :=
    Segments.map_snd_selectorsFrom 0 (selectors.cut text)
  rw [located]
  exact selectors.wellPlaced text

end Relabel
