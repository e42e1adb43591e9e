/-
**Renamings of tokens that do not occur.**

A renaming changes what it finds and nothing else. If no token that it renames is a token of the documents or the
target of a reference, no pass finds one: each value is put back as it was captured, with its white space, and no
reference is replaced at all. So each pass gets the document that the first one got, and returns it.

* `Absent`: nothing that is renamed occurs in a pair.
* `relabelClassAttributes_unnamed` and so on: a pass that finds nothing to rename.
* `Absent.relabelDocument`, `Absent.relabelStylesheet`: all passes in turn.
* `processed_of_kept`: a run on tokens that are all kept.
* `relabel_absent`: neither such a renaming nor such a run changes anything.
-/

import Relabel.Proofs.Run.Names
import Relabel.Proofs.Substitution.Occurrences
import Relabel.Proofs.Token.Inventory

namespace Relabel

/-! ### Passes that find nothing -/

/-- Replacing captured values by themselves changes nothing. -/
theorem Matcher.substitute_cut {matcher : Matcher} {text : Text} {replace : Segment → Option Text}
    (same : ∀ segment ∈ (matcher.cut text).found,
      (replace segment).getD segment.value = segment.value) :
    (matcher.cut text).substitute replace = text :=
  (Segments.substitute_eq_text same).trans (matcher.text_cut text)

section Passes

variable {names : Renamings} {ids : Renaming} {html css : Text}

theorem relabelStylesheet_unnamed
    (unnamed : ∀ selector ∈ (selectors.cut css).found, (names.ofKind selector.kind).get? selector.value = none) :
    relabelStylesheet names css = css := by
  refine Matcher.substitute_cut fun selector member => ?_
  rw [unnamed selector member, Option.getD_none]

/-- A list of classes keeps its white space if none of them is renamed. -/
theorem relabelClassAttributes_unnamed {classes : Renaming}
    (unnamed : ∀ value ∈ (classAttributes.cut html).values, ∀ token ∈ Text.words value, classes.get? token = none) :
    relabelClassAttributes classes html = html := by
  refine Matcher.substitute_cut fun found member => ?_
  have none : (Text.words found.value).any classes.contains = false :=
    List.any_eq_false.mpr fun token isWord => by
      simp [OrderedMap.contains, unnamed _ (List.mem_map_of_mem member) token isWord]
  rw [relabelClassValue, if_neg (by simp [none]), Option.getD_none]

theorem relabelIdAttributes_unnamed (unnamed : ∀ value ∈ (idAttributes.cut html).values, ids.get? value = none) :
    relabelIdAttributes ids html = html := by
  refine Matcher.substitute_cut fun found member => ?_
  rw [unnamed _ (List.mem_map_of_mem member), Option.getD_none]

theorem relabelFragments_unnamed
    (unnamed : ∀ value ∈ (fragmentAttributes.cut html).values, ids.get? (value.drop 1) = none) :
    relabelFragments ids html = html := by
  refine Matcher.substitute_cut fun found member => ?_
  have none : relabelFragment ids found.value = none := by
    unfold relabelFragment
    cases link : Text.after? "#" found.value with
    | none => rfl
    | some fragment =>
      have target : found.value.drop 1 = fragment := by
        rw [after?_eq_some link]
        rfl
      have noName : ids.get? fragment = none := target ▸ unnamed _ (List.mem_map_of_mem member)
      simp [noName]
  rw [none, Option.getD_none]

/-- There is no edit if neither a word of a list nor the name in a `url` is renamed. -/
theorem relabelReferences_unnamed
    (listed : ∀ value ∈ (referenceAttributes.cut html).values, ∀ id ∈ Text.words value, ids.get? id = none)
    (linked : ∀ value ∈ (urlReferences.cut html).values, ids.get? value = none) :
    relabelReferences ids html = html := by
  have values : ∀ {matcher : Matcher} {finding : Finding}, finding ∈ (matcher.cut html).findings →
      finding.value ∈ (matcher.cut html).values := fun member =>
    Segments.map_value_findings _ ▸ List.mem_map_of_mem member
  have noWord : (referenceAttributes.cut html).findings.flatMap (wordEdits ids) = [] := by
    refine List.flatMap_eq_nil_iff.mpr fun finding member => List.filterMap_eq_nil_iff.mpr fun word isWord => ?_
    have inWords : word.text ∈ Text.words finding.value :=
      Text.map_text_locatedWords finding.value ▸ List.mem_map_of_mem isWord
    rw [listed _ (values member) _ inWords, Option.map_none]
  have noName : (urlReferences.cut html).findings.filterMap (findingEdit? ids) = [] := by
    refine List.filterMap_eq_nil_iff.mpr fun finding member => ?_
    rw [findingEdit?, linked _ (values member), Option.map_none]
  rw [relabelReferences, referenceEdits, noWord, noName, List.append_nil, Text.applyEdits, List.mergeSort_nil]
  rfl

theorem relabelStyles_unnamed
    (unnamed : ∀ body ∈ (styleBodies.cut html).values, relabelStylesheet names body = body) :
    relabelStyles names html = html := by
  refine Matcher.substitute_cut fun found member => ?_
  rw [unnamed _ (List.mem_map_of_mem member), Option.getD_some]

end Passes

/-! ### All passes -/

/-- Nothing that is renamed occurs in a pair. -/
structure Absent (names : Renamings) (pair : Pair) : Prop where
  /-- No renamed token is one of the documents. -/
  tokens : ∀ kind, ∀ token ∈ (names.ofKind kind).keys, token ∉ (pair.tokens.ofKind kind).toList
  /-- No renamed id is the value of an id attribute or the target of a reference. -/
  targets : ∀ id ∈ names.ids.keys, ∀ occurrence ∈ occurrences pair.html, occurrence.target ≠ id

namespace Absent

variable {names : Renamings} {pair : Pair}

/-- Where there are no names, nothing is renamed. -/
theorem of_isEmpty (empty : names.isEmpty = true) (pair : Pair) : Absent names pair := by
  obtain ⟨noClass, noId⟩ := Bool.and_eq_true_iff.mp empty
  have unnamed : ∀ map : Renaming, map.isEmpty = true → ∀ token, token ∉ map.keys := by
    intro map none token member
    rw [OrderedMap.keys, List.isEmpty_iff.mp none] at member
    exact absurd member List.not_mem_nil
  refine ⟨fun kind token member => ?_, fun id member => absurd member (unnamed _ noId id)⟩
  cases kind with
  | cls => exact absurd member (unnamed _ noClass token)
  | id => exact absurd member (unnamed _ noId token)

variable (absent : Absent names pair)

include absent

theorem get?_token (kind : Kind) {token : Text} (isToken : token ∈ (pair.tokens.ofKind kind).toList) :
    (names.ofKind kind).get? token = none :=
  OrderedMap.get?_eq_none_iff.mpr fun member => absent.tokens kind token member isToken

theorem get?_target (s : Surface) : ∀ value ∈ (s.matcher.cut pair.html).values, ∀ id ∈ s.targets value,
    names.ids.get? id = none := fun value inValues id isTarget =>
  OrderedMap.get?_eq_none_iff.mpr fun member =>
    absent.targets id member ⟨s, id⟩ (mem_occurrences.mpr ⟨value, inValues, isTarget⟩) rfl

/-- The selectors of a stylesheet are not renamed if they are tokens. -/
theorem relabelStylesheet_of_selects {css : Text}
    (selected : ∀ kind token, Selects css kind token → token ∈ (pair.tokens.ofKind kind).toList) :
    relabelStylesheet names css = css :=
  relabelStylesheet_unnamed fun selector member => absent.get?_token _ (selected _ _ ⟨selector, member, rfl, rfl⟩)

theorem relabelStylesheet : relabelStylesheet names pair.css = pair.css :=
  absent.relabelStylesheet_of_selects fun _ _ selects => Inventory.mem_ofTexts.mpr (Or.inl selects)

/-- **Each pass** returns the document. -/
theorem relabelDocument : relabelDocument names pair.html = pair.html := by
  have classes : relabelClassAttributes names.classes pair.html = pair.html :=
    relabelClassAttributes_unnamed fun value inValues token isWord =>
      absent.get?_token .cls (Inventory.mem_ofTexts.mpr (Or.inr (Or.inr ⟨value, inValues, isWord⟩)))
  have ids : relabelIdAttributes names.ids pair.html = pair.html :=
    relabelIdAttributes_unnamed fun value inValues =>
      absent.get?_target .id value inValues value (List.mem_singleton_self value)
  have fragments : relabelFragments names.ids pair.html = pair.html :=
    relabelFragments_unnamed fun value inValues =>
      absent.get?_target .fragment value inValues _ (List.mem_singleton_self _)
  have references : relabelReferences names.ids pair.html = pair.html :=
    relabelReferences_unnamed (absent.get?_target .reference) fun value inValues =>
      absent.get?_target .url value inValues value (List.mem_singleton_self value)
  have styles : relabelStyles names pair.html = pair.html :=
    relabelStyles_unnamed fun body inValues => absent.relabelStylesheet_of_selects fun _ _ selects =>
      Inventory.mem_ofTexts.mpr (Or.inr (Or.inl ⟨body, inValues, selects⟩))
  rw [Relabel.relabelDocument, classes, ids, fragments, references, styles]

end Absent

/-! ### Runs -/

/-- A run on tokens that are all kept names nothing and changes nothing. -/
theorem processed_of_kept {options : Options} {pair : Pair}
    (kept : ∀ kind, ∀ token ∈ (pair.tokens.ofKind kind).toList,
      (judge kind options.mode token).rename = false) :
    (processed options pair).names.isEmpty = true ∧ (processed options pair).pair = pair := by
  have unnamed : ∀ kind, ((processed options pair).names.ofKind kind).isEmpty = true := by
    intro kind
    have none : selectTokens kind options.mode (pair.tokens.ofKind kind) = [] := by
      rw [selectTokens, List.filter_eq_nil_iff]
      intro token member
      simp [kept kind token member]
    rw [names_ofKind_processed, OrderedMap.isEmpty, entries_nameTokens, none]
    rfl
  have empty : (processed options pair).names.isEmpty = true :=
    Bool.and_eq_true_iff.mpr ⟨unnamed .cls, unnamed .id⟩
  have absent : Absent (processed options pair).names pair := .of_isEmpty empty pair
  exact ⟨empty, congrArg₂ Pair.mk absent.relabelDocument absent.relabelStylesheet⟩

/-- **Renaming what does not occur changes nothing**, whatever the documents are. A run whose tokens are all kept
does so. -/
theorem relabel_absent [InternationalNames] (pair : Pair) :
    (∀ names, Absent names pair →
        relabelDocument names pair.html = pair.html ∧ relabelStylesheet names pair.css = pair.css)
      ∧ ∀ options : Options, options.check = .ok () →
          (∀ kind, ∀ token ∈ (pair.tokens.ofKind kind).toList, (judge kind options.mode token).rename = false) →
          ∃ outcome, processPair options pair = .ok outcome ∧ outcome.pair = pair := by
  refine ⟨fun names absent => ⟨absent.relabelDocument, absent.relabelStylesheet⟩, fun options checked kept => ?_⟩
  exact ⟨processed options pair, processPair_eq_ok_iff.mpr ⟨checked, rfl⟩, (processed_of_kept kept).2⟩

/-- A pair with tokens and references of all kinds, and with white space that no other class value would keep. -/
def sparePair : Pair where
  html := "<p class=' a\tb ' id='x' for='x\n z' href='#x' fill='url( #y )'><style>.a #x \x7b</style>"
  css := ".b #y \x7b"

/-- A renaming of classes that occur as ids only, and of ids that occur as classes only. -/
def crossedNames : Renamings where
  classes := .ofList [("x", "c1"), ("y", "c2"), ("z", "c3")]
  ids := .ofList [("a", "i1"), ("b", "i2")]

/-- It is so where tokens of the other kind have the names that are renamed. -/
theorem relabel_absent_crossed :
    Absent crossedNames sparePair ∧ relabelDocument crossedNames sparePair.html = sparePair.html
      ∧ relabelStylesheet crossedNames sparePair.css = sparePair.css
      ∧ ({} : Options).check = .ok ()
      ∧ ∃ outcome, processPair {} sparePair = .ok outcome ∧ outcome.pair = sparePair := by
  have absent : Absent crossedNames sparePair := by
    refine ⟨fun kind => ?_, by decide +kernel⟩
    cases kind <;> decide +kernel
  have kept : ∀ kind, ∀ token ∈ (sparePair.tokens.ofKind kind).toList,
      (judge kind ({} : Options).mode token).rename = false := by
    intro kind
    cases kind <;> decide +kernel
  obtain ⟨unchanged, keeps⟩ := relabel_absent sparePair
  exact ⟨absent, (unchanged _ absent).1, (unchanged _ absent).2, rfl, keeps {} rfl kept⟩

end Relabel
