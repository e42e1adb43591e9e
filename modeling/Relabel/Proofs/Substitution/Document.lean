/-
**Relabelled documents.**

Each pass over a document fills the holes of its surfaces anew and leaves the marking sound, so that the
next pass finds what was there from the beginning. All passes together fill all holes.

* `Surface.script`: the edits of a captured value.
* `Marking.relabelReferences_text`: both kinds of references, by one list of edits.
* `Marking.relabelDocument_text`: all passes.
* `ValuesFollow`: what a relabelled document captures are the new values.
* `Separable.valuesFollow`: it is so for separable documents.
-/

import Relabel.Proofs.Markup.Script
import Relabel.Proofs.Markup.Separable
import Relabel.Proofs.Substitution.Values

namespace Relabel

open Text (Edit Script)

/-! ### Edits of values -/

/-- The script of a captured value. -/
def Surface.script (names : Renamings) : Surface → Text → Script
  | .cls, value => [⟨value, relabelClassValue names.classes value⟩]
  | .id, value => [⟨value, names.ids.get? value⟩]
  | .fragment, value => [⟨value, relabelFragment names.ids value⟩]
  | .reference, value => Text.wordScript names.ids.get? value
  | .url, value => [⟨value, names.ids.get? value⟩]
  | .style, value => [⟨value, some (relabelStylesheet names value)⟩]

/-- The script of a value on some surfaces, and the empty one on all others. -/
def Surface.scriptOn (some : List Surface) (names : Renamings) (s : Surface) (value : Text) : Script :=
  if s ∈ some then s.script names value else [⟨value, none⟩]

theorem Surface.new_scriptOn (some : List Surface) (names : Renamings) (s : Surface) (value : Text) :
    (s.scriptOn some names value).new = Surface.only some (Surface.renew names) s value := by
  unfold scriptOn only
  split
  · cases s with
    | reference => rfl
    | cls | id | fragment | url | style => simp [script, renew, Script.new, Text.Piece.new, Renaming.apply]
  · simp [Script.new, Text.Piece.new]

theorem Surface.orderly_scriptOn (some : List Surface) (names : Renamings) :
    Marking.Orderly (Surface.scriptOn some names) where
  old s value := by
    unfold scriptOn
    split
    · cases s with
      | reference => exact Text.old_wordScript _ value
      | cls | id | fragment | url | style => simp [script, Script.old]
    · simp [Script.old]
  before s value offset := by
    have single : ∀ swap : Option Text, (Script.editsFrom offset [⟨value, swap⟩]).Pairwise Edit.Before := by
      rintro (_ | new) <;> simp [Script.editsFrom]
    unfold scriptOn
    split
    · cases s with
      | reference => exact Text.before_wordScript _ value offset
      | cls | id | fragment | url | style => exact single _
    · exact single _

theorem edits_scriptOn (some : List Surface) (names : Renamings) (findings : Surface → List Finding) :
    (Surface.all.flatMap fun s => findingEdits (s.scriptOn some names) (findings s))
      = (Surface.all.filter (· ∈ some)).flatMap fun s =>
          findingEdits (s.script names) (findings s) := by
  induction Surface.all with
  | nil => rfl
  | cons s others ih =>
    by_cases inSome : s ∈ some
    · have edited : s.scriptOn some names = s.script names := by
        funext value
        simp [Surface.scriptOn, inSome]
      simp [ih, inSome, edited]
    · have unedited : s.scriptOn some names = fun value => [⟨value, none⟩] := by
        funext value
        simp [Surface.scriptOn, inSome]
      simp [ih, inSome, unedited, findingEdits_none]

/-- The edits of references are those of their words and names. -/
theorem referenceEdits_eq (names : Renamings) (html : Text) :
    referenceEdits names.ids html
      = findingEdits (Surface.script names .reference) (referenceAttributes.cut html).findings
        ++ findingEdits (Surface.script names .url) (urlReferences.cut html).findings := by
  have words : wordEdits names.ids = fun finding =>
      (Text.wordScript names.ids.get? finding.value).editsFrom finding.start := by
    funext finding
    exact Text.locatedWords_edits names.ids.get? finding.start finding.value
  rw [referenceEdits, words]
  exact congrArg _ (findingEdits_eq_valueEdits names.ids.get? _).symm

/-- References whose edits are in order are replaced one after the other. -/
theorem relabelReferences_of_ordered {ids : Renaming} {html : Text}
    (ordered : (referenceEdits ids html).Pairwise fun first second => first.start ≤ second.start) :
    relabelReferences ids html
      = (Text.applyFrom html (Text.byteLength html) 0 html (referenceEdits ids html)).getD html := by
  rw [relabelReferences, Text.applyEdits, List.mergeSort_of_pairwise (by simpa using ordered)]

/-! ### Passes -/

namespace Marking

variable {names : Renamings} {marking : Marking} {watched : Surface → Prop}

/-- A pass over some surfaces keeps a marking sound. -/
theorem Sound.relabel_only (sound : marking.Sound watched) (giveNames : names.GiveNames)
    (some : List Surface) (areWatched : ∀ s ∈ some, watched s)
    (calm : Surface.style ∈ some → watched .url →
      ∀ hole ∈ marking.holes, hole.surface = .style →
        UrlRefill hole.value (relabelStylesheet names hole.value)) :
    (marking.fill (Surface.only some (Surface.renew names))).Sound watched := by
  refine sound.fill fun hole member changed => ?_
  unfold Surface.only at changed ⊢
  split at changed
  next inSome =>
    rw [if_pos inSome]
    refine ⟨areWatched _ inSome, Surface.refill_renew giveNames (sound.admitted hole member) changed,
      fun isStyle urlWatched => ?_⟩
    have refill := calm (isStyle ▸ inSome) urlWatched hole member isStyle
    rw [isStyle]
    exact refill
  next => exact absurd rfl changed

/-- A pass over one surface replaces what its matcher captures. -/
theorem Sound.text_relabel (sound : marking.Sound watched) {s : Surface} (isWatched : watched s)
    (replace : Text → Option Text)
    (renews : ∀ value, (replace value).getD value = s.renew names value) :
    (s.matcher.cut marking.text).substitute (fun found => replace found.value)
      = (marking.fill (Surface.only [s] (Surface.renew names))).text := by
  have same : (Surface.only [s] fun _ value => (replace value).getD value)
      = Surface.only [s] (Surface.renew names) := by
    funext s' value
    unfold Surface.only
    split
    next own =>
      obtain rfl := List.mem_singleton.mp own
      exact renews value
    next => rfl
  rw [sound.text_pass isWatched replace, same]

/-- The passes over the attributes that hold tokens and links. -/
theorem Sound.relabelAttributes_text (sound : marking.Sound watched) (giveNames : names.GiveNames)
    (areWatched : ∀ s ∈ [Surface.cls, .id, .fragment], watched s) :
    relabelFragments names.ids
        (relabelIdAttributes names.ids (relabelClassAttributes names.classes marking.text))
      = (marking.fill (Surface.only [.cls, .id, .fragment] (Surface.renew names))).text
    ∧ (marking.fill (Surface.only [.cls, .id, .fragment] (Surface.renew names))).Sound watched := by
  have pass : ∀ {marking : Marking} {s : Surface}, s ∈ [Surface.cls, .id, .fragment] →
      marking.Sound watched → (marking.fill (Surface.only [s] (Surface.renew names))).Sound watched := by
    intro marking s isAttribute sound
    refine sound.relabel_only giveNames [s] (fun s' own => ?_) fun isStyle => ?_
    · exact List.mem_singleton.mp own ▸ areWatched s isAttribute
    · exact absurd (List.mem_singleton.mp isStyle ▸ isAttribute) (by decide)
  have sound₁ := pass (s := .cls) (by decide) sound
  have sound₂ := pass (s := .id) (by decide) sound₁
  have sound₃ := pass (s := .fragment) (by decide) sound₂
  have text₁ := sound.text_relabel (areWatched .cls (by decide)) (relabelClassValue names.classes)
    (fun _ => rfl)
  have text₂ := sound₁.text_relabel (areWatched .id (by decide)) names.ids.get? (fun _ => rfl)
  have text₃ := sound₂.text_relabel (areWatched .fragment (by decide)) (relabelFragment names.ids)
    (fun _ => rfl)
  simp only [fill_fill] at sound₃ text₁ text₂ text₃
  have attributes : (fun s value => Surface.only [.fragment] (Surface.renew names) s
      (Surface.only [.id] (Surface.renew names) s
        (Surface.only [.cls] (Surface.renew names) s value)))
      = Surface.only [.cls, .id, .fragment] (Surface.renew names) := by
    funext s value
    cases s <;> rfl
  rw [attributes] at sound₃ text₃
  refine ⟨?_, sound₃⟩
  rw [← text₃, ← text₂, ← text₁]
  rfl

/-- References in attributes and of the form `url(#name)` are replaced by one list of edits. -/
theorem Sound.relabelReferences_text (sound : marking.Sound fun _ => True) (names : Renamings) :
    relabelReferences names.ids marking.text
      = (marking.fill (Surface.only [.reference, .url] (Surface.renew names))).text := by
  have renewed : (fun s value => (Surface.scriptOn [.reference, .url] names s value).new)
      = Surface.only [.reference, .url] (Surface.renew names) := by
    funext s value
    exact Surface.new_scriptOn _ names s value
  have perm : (referenceEdits names.ids marking.text).Perm (Surface.all.flatMap fun s =>
      findingEdits (s.scriptOn [.reference, .url] names) (marking.segments s).findings) := by
    have cuts : ∀ s, marking.segments s = s.matcher.cut marking.text :=
      fun s => (sound.cuts s trivial).symm
    rw [edits_scriptOn, referenceEdits_eq]
    simp [Surface.all, Surface.matcher, cuts]
  have applied := Marking.applyEdits_eq (Surface.orderly_scriptOn [.reference, .url] names) perm
  rw [relabelReferences, applied, Option.getD_some, renewed]

/-! ### All passes -/

/-- **All passes together fill all holes anew.** The last of them may disturb references, unless new
bodies of style elements cannot. -/
theorem Sound.relabelDocument_text (sound : marking.Sound fun _ => True)
    (giveNames : names.GiveNames) :
    relabelDocument names marking.text = (marking.fill (Surface.renew names)).text
      ∧ (marking.fill (Surface.renew names)).Sound (· ≠ .url)
      ∧ ((∀ hole ∈ marking.holes, hole.surface = .style →
            UrlRefill hole.value (relabelStylesheet names hole.value)) →
          (marking.fill (Surface.renew names)).Sound fun _ => True) := by
  obtain ⟨text₃, sound₃⟩ := sound.relabelAttributes_text giveNames fun _ _ => trivial
  have sound₄ := sound₃.relabel_only giveNames [.reference, .url] (fun _ _ => trivial)
    fun isStyle => absurd isStyle (by decide)
  have text₄ := sound₃.relabelReferences_text names
  have text₅ := sound₄.text_relabel (s := .style) trivial
    (fun body => some (relabelStylesheet names body)) (fun _ => rfl)
  simp only [fill_fill] at sound₄ text₄ text₅
  have bodies : (fun s value => Surface.only [.style] (Surface.renew names) s
      (Surface.only [.reference, .url] (Surface.renew names) s
        (Surface.only [.cls, .id, .fragment] (Surface.renew names) s value))) = Surface.renew names := by
    funext s value
    cases s <;> rfl
  refine ⟨?_, ?_, fun calm => ?_⟩
  · rw [← bodies, ← text₅, ← text₄, ← text₃]
    rfl
  · have fewer : Sound (· ≠ .url) _ := sound₄.mono fun _ _ => trivial
    have later := fewer.relabel_only giveNames [.style] (by simp) fun _ watchesUrl =>
      absurd rfl watchesUrl
    rw [fill_fill, bodies] at later
    exact later
  · have later := sound₄.relabel_only giveNames [.style] (fun _ _ => trivial) (by
      rintro _ _ _ member isStyle
      rw [holes_fill] at member
      obtain ⟨⟨s, value, quote, name⟩, inOld, rfl⟩ := List.mem_map.mp member
      obtain rfl : s = .style := isStyle
      exact calm _ inOld rfl)
    rw [fill_fill, bodies] at later
    exact later

end Marking

/-! ### Captured values -/

/-- What a relabelled document captures, references of the form `url(#name)` aside, are the new values. -/
def ValuesFollow (names : Renamings) (html : Text) : Prop :=
  ∀ s : Surface, s ≠ .url → (s.matcher.cut (relabelDocument names html)).values
    = (s.matcher.cut html).values.map (s.renew names)

/-- **A relabelled separable document captures the new values.** -/
theorem Separable.valuesFollow {names : Renamings} {html : Text} (separable : Separable html)
    (giveNames : names.GiveNames) : ValuesFollow names html := by
  intro s other
  obtain ⟨marking, rfl, sound⟩ := separable.exists_marking
  obtain ⟨text, later, _⟩ := sound.relabelDocument_text giveNames
  rw [text, later.cuts s other, sound.cuts s trivial, Marking.values_fill]

end Relabel
