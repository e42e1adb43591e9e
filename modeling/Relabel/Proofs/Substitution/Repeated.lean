/-
**Relabelling a document again.**

The pass over references goes through a lasting document with one list of edits. An edit fills a hole, or
it lies in the body of a style element. So the pass fills holes anew as in a separable document, save that
it makes `relabelUrls` of a body, which makes no difference to what the last pass makes of the body.

* `Marking.Lasts.relabelReferences_text`: the pass over references.
* `Marking.Lasts.fill_urls`: holes of references are filled from the last to the first.
* `Lasting.valuesFollow`: a relabelled lasting document captures the new values.
* `Lasting.relabelDocument`: and it is lasting.
-/

import Relabel.Proofs.Substitution.Document
import Relabel.Proofs.Substitution.Lasting
import Relabel.Proofs.Substitution.UrlPass

namespace Relabel

open Text (byteLength Edit Script)

/-! ### What the pass over references makes of values -/

theorem Renamings.Apt.giveNames {names : Renamings} (apt : names.Apt) : names.GiveNames := by
  intro kind name member
  obtain ⟨⟨token, _⟩, isEntry, rfl⟩ := List.mem_map.mp member
  exact (apt kind token _ (OrderedMap.get?_eq_some_iff.mpr isEntry)).2.isName

/-- What the pass over references makes of a captured value. -/
def Surface.refer (names : Renamings) : Surface → Text → Text
  | .style, body => relabelUrls names.ids body
  | s, value => Surface.only [.reference, .url] (Surface.renew names) s value

/-- The edits by which it does so. -/
def Surface.referScript (names : Renamings) : Surface → Text → Script
  | .style, body => (urlReferences.cut body).script names.ids.get?
  | s, value => s.scriptOn [.reference, .url] names value

theorem Surface.new_referScript (names : Renamings) (s : Surface) (value : Text) :
    (s.referScript names value).new = s.refer names value := by
  cases s with
  | style => exact Segments.new_script _
  | cls | id | fragment | reference | url => exact Surface.new_scriptOn _ names _ value

theorem Surface.orderly_referScript (names : Renamings) : Marking.Orderly (Surface.referScript names) where
  old s value := by
    cases s with
    | style => exact (Segments.old_script _).trans (Matcher.text_cut _ value)
    | cls | id | fragment | reference | url =>
      exact (Surface.orderly_scriptOn [.reference, .url] names).old _ value
  before s value offset := by
    cases s with
    | style => exact (Segments.before_script (fun _ member => Matcher.gap_ne_nil member) offset).1
    | cls | id | fragment | reference | url =>
      exact (Surface.orderly_scriptOn [.reference, .url] names).before _ value offset

/-- **After the last pass** all values are the new ones. -/
theorem Surface.renew_refer {names : Renamings} (settled : names.Settled) (s : Surface) {value : Text}
    (selected : s = .style → UrlsSelected value) :
    Surface.only [.style] (Surface.renew names) s
        (s.refer names (Surface.only [.cls, .id, .fragment] (Surface.renew names) s value))
      = s.renew names value := by
  cases s with
  | style => exact relabelStylesheet_relabelUrls settled (selected rfl)
  | cls | id | fragment | reference | url => rfl

namespace Marking

variable {names : Renamings} {marking : Marking}

/-! ### The edits of the pass -/

/-- Edits one before the other are different. -/
theorem nodup_of_before {edits : List Edit} (before : edits.Pairwise Edit.Before) : edits.Nodup :=
  before.imp fun {_ _} isBefore same => absurd isBefore.2 (by rw [same]; exact lt_irrefl _)

theorem mem_urlEdits {segments : Segments} {e : Edit} :
    e ∈ findingEdits (Surface.script names .url) segments.findings
      ↔ ∃ x v y, segments.Captures x v y ∧ names.ids.get? v = some e.text
        ∧ byteLength x = e.start ∧ byteLength x + byteLength v = e.stop := by
  rw [Segments.mem_findingEdits]
  simp only [Surface.script, Script.mem_editsFrom_single]

theorem mem_bodyEdits {segments : Segments} {e : Edit} :
    e ∈ findingEdits (Surface.referScript names .style) segments.findings
      ↔ ∃ before body behind, segments.Captures before body behind
        ∧ ∃ x v y, (urlReferences.cut body).Captures x v y ∧ names.ids.get? v = some e.text
          ∧ byteLength (before ++ x) = e.start ∧ byteLength (before ++ x) + byteLength v = e.stop := by
  rw [Segments.mem_findingEdits]
  simp only [Surface.referScript, Segments.editsFrom_script, Segments.mem_valueEdits,
    Text.byteLength_append]

/-- **References are edited in holes and in bodies.** -/
theorem Lasts.mem_referenceEdits (lasts : marking.Lasts)
    (isName : ∀ id name, names.ids.get? id = some name → IsName id) (e : Edit) :
    e ∈ findingEdits (Surface.script names .url) (urlReferences.cut marking.text).findings
      ↔ e ∈ findingEdits (Surface.script names .url) (marking.segments .url).findings
        ∨ e ∈ findingEdits (Surface.referScript names .style) (marking.segments .style).findings := by
  have cut : styleBodies.cut marking.text = marking.segments .style :=
    lasts.sound.cuts .style (by decide)
  rw [mem_urlEdits, mem_urlEdits, mem_bodyEdits, ← cut]
  constructor
  · rintro ⟨x, v, y, captured, renamed, range⟩
    by_cases outside : Outside marking.text x
    · exact Or.inl ⟨x, v, y, (lasts.urls x v y).mpr ⟨captured, isName _ _ renamed, outside⟩, renamed,
        range⟩
    · obtain ⟨before, body, behind, x', y', isBody, rfl, rfl, inner⟩ :=
        exists_body captured (isName _ _ renamed) outside
      exact Or.inr ⟨before, body, behind, isBody, x', v, y', inner, renamed, range⟩
  · rintro (⟨x, v, y, captured, edited⟩ | ⟨before, body, behind, isBody, x, v, y, inner, edited⟩)
    · exact ⟨x, v, y, ((lasts.urls x v y).mp captured).1, edited⟩
    · exact ⟨before ++ x, v, y ++ behind, (captures_body_iff isBody).mp inner, edited⟩

/-- The edits of the pass are those of the holes. -/
theorem Lasts.perm_referenceEdits (lasts : marking.Lasts)
    (isName : ∀ id name, names.ids.get? id = some name → IsName id) :
    (referenceEdits names.ids marking.text).Perm (Surface.all.flatMap fun s =>
      findingEdits (s.referScript names) (marking.segments s).findings) := by
  have references : referenceAttributes.cut marking.text = marking.segments .reference :=
    lasts.sound.cuts .reference (by decide)
  have ordered := before_script (Surface.orderly_referScript names) marking 0
  have perm := perm_edits (Surface.orderly_referScript names) marking 0
  have parts : (Surface.all.flatMap fun s =>
        findingEdits (s.referScript names) (marking.segments s).findings)
      = findingEdits (Surface.script names .reference) (marking.segments .reference).findings
        ++ (findingEdits (Surface.script names .url) (marking.segments .url).findings
          ++ findingEdits (Surface.referScript names .style) (marking.segments .style).findings) := by
    have none : ∀ s ∈ [Surface.cls, .id, .fragment],
        s.referScript names = fun value => [⟨value, none⟩] := by
      simpa using ⟨rfl, rfl, rfl⟩
    have reference : Surface.referScript names .reference = Surface.script names .reference := rfl
    have url : Surface.referScript names .url = Surface.script names .url := rfl
    simp [Surface.all, none, reference, url, findingEdits_none]
  have nodup := perm.nodup_iff.mp (nodup_of_before ordered)
  rw [show (Surface.all.flatMap fun s => findingEdits (s.referScript names)
    (Segments.findingsFrom 0 (segments s marking).found)) = _ from parts] at nodup
  rw [parts, referenceEdits_eq, references]
  refine List.Perm.append_left _ ((List.perm_ext_iff_of_nodup ?_ nodup.of_append_right).mpr fun e => ?_)
  · have spaced : (urlReferences.cut marking.text).Spaced := fun _ member => Matcher.gap_ne_nil member
    have single : (((urlReferences.cut marking.text).script names.ids.get?).editsFrom 0).Pairwise
        Edit.Before := (Segments.before_script spaced 0).1
    rw [Segments.editsFrom_script, ← Segments.findings, ← findingEdits_eq_valueEdits] at single
    exact nodup_of_before single
  · rw [lasts.mem_referenceEdits isName, List.mem_append]

/-- **The pass over references.** -/
theorem Lasts.relabelReferences_text (lasts : marking.Lasts)
    (isName : ∀ id name, names.ids.get? id = some name → IsName id) :
    relabelReferences names.ids marking.text = (marking.fill (Surface.refer names)).text := by
  have renewed : (fun s value => (Surface.referScript names s value).new) = Surface.refer names := by
    funext s value
    exact Surface.new_referScript names s value
  have applied := applyEdits_eq (Surface.orderly_referScript names) (lasts.perm_referenceEdits isName)
  rw [relabelReferences, applied, Option.getD_some, renewed]

/-! ### The holes of the pass -/

/-- A hole of a reference stands behind a number sign and has the surroundings of one. -/
theorem Lasts.site_url (lasts : marking.Lasts) {before after : Marking} {c : Char} {hole : Hole}
    (parts : marking = before ++ ⟨c, some hole⟩ :: after) (isUrl : hole.surface = .url) :
    c = '#' ∧ Site .url (before.text ++ [c]) hole.value after.text := by
  have captured := captures_segments before after c hole
  rw [← parts, isUrl] at captured
  have site := (captures_urlReferences_iff.mp ((lasts.urls _ _ _).mp captured).1).2
  obtain ⟨_, _, _, _, _, _, _, sharp, _⟩ := site.of_url
  exact ⟨(List.append_singleton_inj.mp sharp).2, site⟩

/-- Filling holes of references keeps the text before the first number sign. -/
theorem text_fill_urls (renew : Surface → Text → Text) {marking : Marking} {tail rest : Text}
    (sharp : ∀ mark ∈ marking, ∀ hole ∈ mark.hole, hole.surface = .url → mark.char = '#')
    (absent : '#' ∉ tail) (parts : marking.text = tail ++ rest) :
    ∃ rest', (marking.fill (Surface.only [.url] renew)).text = tail ++ rest' := by
  induction marking generalizing tail with
  | nil => exact ⟨rest, parts⟩
  | cons mark marking ih =>
    rcases tail with _ | ⟨d, tail⟩
    · exact ⟨_, rfl⟩
    rw [text_cons] at parts
    have kept : mark.fill (Surface.only [.url] renew) = mark := by
      rcases mark with ⟨c, _ | ⟨s, value, quote, name⟩⟩
      · rfl
      · have other : s ≠ .url := by
          rintro rfl
          obtain rfl : c = '#' := sharp _ List.mem_cons_self _ rfl rfl
          obtain rfl := (List.cons.inj parts).1
          exact absent List.mem_cons_self
        simp [Mark.fill, Hole.fill, Surface.only, other]
    rw [fill_cons, text_cons, kept]
    rcases List.append_eq_append_iff.mp parts with ⟨inside, split, behind⟩ | ⟨more, split, _⟩
    · rw [split] at absent ⊢
      obtain ⟨rest', same⟩ := ih (fun other member => sharp other (List.mem_cons_of_mem _ member))
        (fun member => absent (List.mem_append_right _ member)) behind
      exact ⟨rest', by rw [same, List.append_assoc]⟩
    · exact ⟨more ++ (fill _ marking).text, by rw [split, List.append_assoc]⟩

/-- A hole of a reference keeps its surroundings when the references behind it are filled. -/
theorem Lasts.site_url_fill (lasts : marking.Lasts) (renew : Surface → Text → Text)
    {before after : Marking} {c : Char} {hole : Hole}
    (parts : marking = before ++ ⟨c, some hole⟩ :: after) (isUrl : hole.surface = .url) :
    Site .url (before.text ++ [c]) hole.value (after.fill (Surface.only [.url] renew)).text := by
  obtain ⟨front, lead, tail, rest, same, opens, nonempty, inName, behind, ends⟩ :=
    site_url_iff.mp (lasts.site_url parts isUrl).2
  have sharp : ∀ mark ∈ after, ∀ other ∈ mark.hole, other.surface = .url → mark.char = '#' := by
    rintro ⟨d, _⟩ member other rfl otherUrl
    obtain ⟨first, last, rfl⟩ := List.append_of_mem member
    have parts' : marking = (before ++ ⟨c, some hole⟩ :: first) ++ ⟨d, some other⟩ :: last := by
      simpa using parts
    exact (lasts.site_url parts' otherUrl).1
  have absent : '#' ∉ tail := ends.not_mem (by decide) (by decide) (by decide)
  obtain ⟨rest', filled⟩ := text_fill_urls renew sharp absent behind
  exact site_url_iff.mpr ⟨front, lead, tail, rest', same, opens, nonempty, inName, filled, ends⟩

/-- **Filling the holes of references**, the last of them first. The induction is on the marks that are
filled; what stands behind a hole is filled before it. -/
theorem Lasts.fill_urls (lasts : marking.Lasts) (giveNames : names.GiveNames) :
    (marking.fill (Surface.only [.url] (Surface.renew names))).Sound (· ≠ .url) := by
  have general : ∀ after before, marking = before ++ after →
      Sound (· ≠ .url) (before ++ after.fill (Surface.only [.url] (Surface.renew names))) := by
    intro after
    induction after with
    | nil =>
      rintro before parts
      exact parts ▸ lasts.sound
    | cons mark after ih =>
      intro before parts
      have later := ih (before ++ [mark]) (by simpa using parts)
      rw [List.append_assoc, List.singleton_append] at later
      rcases mark with ⟨c, _ | hole⟩
      · exact later
      by_cases changed : Surface.only [.url] (Surface.renew names) hole.surface hole.value = hole.value
      · simpa [Mark.fill, Hole.fill, changed] using later
      · have isUrl : hole.surface = .url := by
          by_contra other
          exact changed (by simp [Surface.only, other])
        have site := lasts.site_url_fill (Surface.renew names) parts isUrl
        have admitted := later.admitted hole (by simp)
        have renewed : Surface.only [.url] (Surface.renew names) hole.surface hole.value
            = hole.surface.renew names hole.value := by
          simp [Surface.only, isUrl]
        rw [renewed] at changed
        have filled := later.fill_sited (isUrl ▸ site) (Surface.refill_renew giveNames admitted changed)
          fun isStyle => absurd (isUrl.symm.trans isStyle) (by decide)
        simpa only [fill_cons, Mark.fill, Hole.fill, Option.map_some, renewed] using filled
  exact general marking [] rfl

/-- **The pass over references keeps a marking sound.** -/
theorem Lasts.fill_refer (lasts : marking.Lasts) (settled : names.Settled)
    (selected : ∀ hole ∈ marking.holes, hole.surface = .style → UrlsSelected hole.value) :
    (marking.fill (Surface.refer names)).Sound (· ≠ .url) := by
  have giveNames := settled.apt.giveNames
  have urls := lasts.fill_urls giveNames
  have both : (fill (Surface.only [.reference, .style] (Surface.refer names))
      (fill (Surface.only [.url] (Surface.renew names)) marking)).Sound (· ≠ .url) := by
    refine urls.fill fun hole member changed => ?_
    have admitted := urls.admitted hole member
    rw [holes_fill] at member
    obtain ⟨⟨s, value, quote, name⟩, inOld, rfl⟩ := List.mem_map.mp member
    cases s with
    | reference =>
      exact ⟨show Surface.reference ≠ .url by decide,
        Surface.refill_renew giveNames admitted changed, fun _ watchesUrl => absurd rfl watchesUrl⟩
    | style =>
      exact ⟨show Surface.style ≠ .url by decide,
        refill_relabelUrls settled (selected _ inOld rfl) admitted,
        fun _ watchesUrl => absurd rfl watchesUrl⟩
    | cls | id | fragment | url => exact absurd rfl changed
  have parts : (fun s value => Surface.only [.reference, .style] (Surface.refer names) s
      (Surface.only [.url] (Surface.renew names) s value)) = Surface.refer names := by
    funext s value
    cases s <;> rfl
  rwa [fill_fill, parts] at both

end Marking

/-! ### All passes -/

namespace Lasting

variable {names : Renamings} {html : Text}

/-- The bodies of style elements in a marking of a lasting document. -/
theorem selected_holes {marking : Marking} (lasting : Lasting marking.text)
    (sound : marking.Sound (· ≠ .url)) :
    ∀ hole ∈ marking.holes, hole.surface = .style → UrlsSelected hole.value := by
  intro hole member isStyle
  have cut : styleBodies.cut marking.text = marking.segments .style := sound.cuts .style (by decide)
  obtain ⟨x, y, captured⟩ := Marking.exists_captures member
  rw [isStyle, ← cut] at captured
  exact lasting.selected _ (Segments.mem_values.mpr ⟨x, y, captured⟩)

/-- **A relabelled lasting document captures the new values.** -/
theorem valuesFollow (lasting : Lasting html) (settled : names.Settled) : ValuesFollow names html := by
  have giveNames := settled.apt.giveNames
  obtain ⟨marking, rfl, lasts⟩ := lasting.exists_marking
  obtain ⟨text₃, sound₃⟩ := lasts.sound.relabelAttributes_text giveNames (by decide)
  have lasting₃ := sound₃.lasting (by
    intro hole member isStyle
    rw [Marking.holes_fill] at member
    obtain ⟨⟨s, value, quote, name⟩, inOld, rfl⟩ := List.mem_map.mp member
    obtain rfl : s = .style := isStyle
    exact lasting.selected_holes lasts.sound _ inOld rfl)
  obtain ⟨marking', same, lasts'⟩ := lasting₃.exists_marking
  rw [← same] at lasting₃ text₃
  have selected := lasting₃.selected_holes lasts'.sound
  have sound₄ := lasts'.fill_refer settled selected
  have text₄ := lasts'.relabelReferences_text settled.isName
  have sound₅ := sound₄.relabel_only giveNames [.style] (by decide)
    fun _ watchesUrl => absurd rfl watchesUrl
  have text₅ := sound₄.text_relabel (s := .style) (by decide)
    (fun body => some (relabelStylesheet names body)) (fun _ => rfl)
  have whole : Relabel.relabelDocument names marking.text
      = ((marking'.fill (Surface.refer names)).fill
          (Surface.only [.style] (Surface.renew names))).text := by
    rw [Relabel.relabelDocument, text₃, text₄]
    exact text₅
  intro s other
  have between : (marking'.segments s).values
      = (marking.segments s).values.map (Surface.only [.cls, .id, .fragment] (Surface.renew names) s) := by
    rw [← Marking.values_fill, ← lasts'.sound.cuts s other, ← sound₃.cuts s other, same]
  rw [whole, sound₅.cuts s other, lasts.sound.cuts s other, Marking.values_fill, Marking.values_fill,
    between, List.map_map, List.map_map]
  refine List.map_congr_left fun value member => Surface.renew_refer settled s ?_
  rintro rfl
  obtain ⟨hole, inHoles, isStyle, rfl⟩ := Marking.mem_values member
  exact lasting.selected_holes lasts.sound hole inHoles isStyle

/-- **A relabelled lasting document is lasting.** -/
theorem relabelDocument (lasting : Lasting html) (apt : names.Apt) (follow : ValuesFollow names html) :
    Lasting (relabelDocument names html) where
  admitted s other value member := by
    rw [follow s other] at member
    obtain ⟨old, inOld, rfl⟩ := List.mem_map.mp member
    exact Surface.admits_renew apt.giveNames (lasting.admitted s other old inOld)
  selected body member := by
    have bodies : (styleBodies.cut _).values = _ := follow .style (by decide)
    rw [bodies] at member
    obtain ⟨old, inOld, rfl⟩ := List.mem_map.mp member
    exact (lasting.selected old inOld).relabelStylesheet apt

end Lasting

end Relabel
