/-
**All replacements at once.**

A document is relabelled in five passes, each of which scans the text that the pass before it made. For a
separable document this is the same as applying all edits at once, computed on the document itself.

* `documentEdits`: the edits of a document.
* `relabelDocument_eq_applyEdits`: the passes make what the edits make.
-/

import Relabel.Proofs.Substitution.Document

namespace Relabel

open Text (Edit Script)

/-- The edits that replace words of values. -/
def listEdits (replace : Text → Option Text) (findings : List Finding) : List Edit :=
  findings.flatMap fun finding => (Text.locatedWords finding.value).filterMap fun word =>
    (replace word.text).map fun new => ⟨finding.start + word.start, finding.start + word.stop, new⟩

/-- The edits of a document, each of them computed on the document itself. -/
def documentEdits (names : Renamings) (html : Text) : List Edit :=
  valueEdits (relabelClassValue names.classes) (classAttributes.cut html).findings
    ++ valueEdits names.ids.get? (idAttributes.cut html).findings
    ++ valueEdits (relabelFragment names.ids) (fragmentAttributes.cut html).findings
    ++ listEdits names.ids.get? (referenceAttributes.cut html).findings
    ++ valueEdits names.ids.get? (urlReferences.cut html).findings
    ++ valueEdits (fun body => some (relabelStylesheet names body)) (styleBodies.cut html).findings

/-- Two edits without a byte in common. -/
def Text.Edit.Disjoint (first second : Edit) : Prop :=
  first.stop ≤ second.start ∨ second.stop ≤ first.start

theorem documentEdits_eq (names : Renamings) (html : Text) :
    documentEdits names html = Surface.all.flatMap fun s =>
      findingEdits (s.script names) (s.matcher.cut html).findings := by
  have lists : listEdits names.ids.get? (referenceAttributes.cut html).findings
      = findingEdits (Surface.script names .reference) (referenceAttributes.cut html).findings :=
    List.flatMap_congr fun finding _ => Text.locatedWords_edits names.ids.get? finding.start finding.value
  simp only [documentEdits, lists, ← findingEdits_eq_valueEdits, Surface.all,
    List.flatMap_cons, List.flatMap_nil, List.append_nil, List.append_assoc]
  rfl

/-- **Relabelling a separable document in five passes is applying all its edits at once.** No two of the
edits have a byte in common, and the two documents are made of the same pieces save those that the edits
replace. -/
theorem relabelDocument_eq_applyEdits {names : Renamings} {html : Text} (separable : Separable html)
    (giveNames : names.GiveNames) :
    Text.applyEdits html (documentEdits names html) = some (relabelDocument names html)
      ∧ (documentEdits names html).Pairwise Edit.Disjoint
      ∧ ∃ script : Script, script.edits.Perm (documentEdits names html) ∧ script.old = html
          ∧ script.new = relabelDocument names html := by
  obtain ⟨marking, rfl, sound⟩ := separable.exists_marking
  have orderly := Surface.orderly_scriptOn Surface.all names
  have renewed : (fun s value => (Surface.scriptOn Surface.all names s value).new)
      = Surface.renew names := by
    funext s value
    rw [Surface.new_scriptOn]
    cases s <;> rfl
  have text : relabelDocument names marking.text
      = (marking.fill fun s value => (Surface.scriptOn Surface.all names s value).new).text := by
    rw [renewed]
    exact (sound.relabelDocument_text giveNames).1
  have perm : (documentEdits names marking.text).Perm (Surface.all.flatMap fun s =>
      findingEdits (s.scriptOn Surface.all names) (marking.segments s).findings) := by
    have cuts : ∀ s, marking.segments s = s.matcher.cut marking.text :=
      fun s => (sound.cuts s trivial).symm
    rw [edits_scriptOn, documentEdits_eq]
    simp only [cuts]
    exact List.Perm.refl _
  have perm' := perm.trans (Marking.perm_edits orderly marking 0).symm
  refine ⟨?_, ?_, marking.script _, perm'.symm, Marking.old_script orderly marking, ?_⟩
  · rw [text]
    exact Marking.applyEdits_eq orderly perm
  · have ordered : ((marking.script (Surface.scriptOn Surface.all names)).editsFrom 0).Pairwise
        Edit.Disjoint :=
      (Marking.before_script orderly marking 0).imp fun before => Or.inl before.1
    exact ordered.perm perm'.symm fun disjoint => Or.symm disjoint
  · rw [text]
    exact Marking.new_script marking

/-- A document with tokens and references of all kinds. -/
def linkingDocument : Text :=
  "<p class='x' id='y'><a href='#y'></a><b for='w y'></b><i fill='url(#y)'></i><style>.x #y{}</style>"

/-- Names for its class and its id. -/
def linkingNames : Renamings where
  classes := OrderedMap.ofList [("x", "n1")]
  ids := OrderedMap.ofList [("y", "n2")]

/-- The document with these names. -/
theorem relabelDocument_eq_applyEdits_link :
    Separable linkingDocument ∧ linkingNames.GiveNames
      ∧ Text.applyEdits linkingDocument (documentEdits linkingNames linkingDocument)
          = some (relabelDocument linkingNames linkingDocument)
      ∧ relabelDocument linkingNames linkingDocument
          = "<p class='n1' id='n2'><a href='#n2'></a><b for='w n2'></b><i fill='url(#n2)'></i>"
            ++ "<style>.n1 #n2{}</style>" := by
  have separable : Separable linkingDocument := by decide +kernel
  have giveNames : linkingNames.GiveNames := by rintro (_ | _) <;> decide
  refine ⟨separable, giveNames, (relabelDocument_eq_applyEdits separable giveNames).1, ?_⟩
  rw [relabelDocument, relabelReferences_of_ordered (by decide +kernel)]
  decide +kernel

end Relabel
