/-
**References to copies.**

The references to a script that is stored are replaced by the path of its copy, and nothing else in the document
changes. A path has no quotes, so the new document is cut at the same places as the old one, however malformed
it is.

* `Redirects`: what a reference becomes.
* `Segments.Redirected`: what the scripts of a document become.
* `get?_storedPaths`: the paths of copies, by the keys of their scripts.
* `isQuote_of_mem_referenceTo`: the path of a copy has no quotes.
* `localizeScriptsBy_redirected`: the document that a run leaves behind.
-/

import Relabel.Proofs.Files.Below
import Relabel.Proofs.Script.Sources
import Relabel.Proofs.Script.Stored

namespace Relabel

variable {base : Option Url} {html : Text} {place : ScriptPlace} {disk disk' : Disk} {relocation : Relocation}
  {exchanges : List Exchange} {attempts : List Attempt}

/-! ### What is replaced -/

/-- What a reference becomes: the path of the copy of the script that it leads to, or what it was if there is no
copy. -/
structure Redirects [InternationalNames] (base : Option Url) (relocation : Relocation) (old new : Text) : Prop where
  copied : ∀ url stored, resolve? base old = some url → (scriptAddress url, stored) ∈ relocation.stored →
    new = stored.path
  kept : (∀ url stored, resolve? base old = some url → (scriptAddress url, stored) ∉ relocation.stored) → new = old

/-- What the references of a document become. Their quotes are the same, and so is the text around them. -/
def Segments.Redirected [InternationalNames] (base : Option Url) (relocation : Relocation)
    (old new : Segments) : Prop :=
  List.Forall₂ (fun before after => ∃ value, after = { before with value } ∧ Redirects base relocation before.value value)
      old.found new.found
    ∧ new.rest = old.rest

/-- The path of the copy of the script that a reference leads to. -/
def copyPath? [InternationalNames] (base : Option Url) (paths : OrderedMap Text) (segment : Segment) : Option Text := do
  let url ← resolve? base segment.value
  paths.get? (scriptAddress url)

theorem careless_copyPath? [InternationalNames] (paths : OrderedMap Text) : Careless (copyPath? base paths) :=
  fun _ _ _ => rfl

/-- **The paths of copies**, by the keys of their scripts. -/
theorem get?_storedPaths (distinct : (attempts.map Attempt.key).Nodup) {key path : Text} :
    (storedPaths attempts).get? key = some path
      ↔ ∃ stored, (key, stored) ∈ attempts.filterMap Attempt.stored? ∧ stored.path = path := by
  have pairs : storedPaths attempts
      = .ofList ((attempts.filterMap Attempt.stored?).map fun entry => (entry.1, entry.2.path)) := rfl
  have keys : ((attempts.filterMap Attempt.stored?).map fun entry => (entry.1, entry.2.path)).map Prod.fst
      = Attempt.storedKeys attempts := by
    rw [List.map_map]
    rfl
  rw [pairs, OrderedMap.get?_ofList (keys ▸ distinct.sublist (Attempt.storedKeys_sublist attempts)), List.mem_map]
  constructor
  · rintro ⟨⟨_, stored⟩, member, same⟩
    obtain ⟨rfl, rfl⟩ := Prod.mk.inj same
    exact ⟨stored, member, rfl⟩
  · rintro ⟨stored, member, rfl⟩
    exact ⟨_, member, rfl⟩

/-! ### Quotes -/

theorem isQuote_of_isFileChar {c : Char} (plain : isFileChar c = true) : isQuote c = false := by
  by_contra quoted
  rcases eq_of_isQuote (Bool.not_eq_false _ ▸ quoted) with rfl | rfl <;> exact absurd plain (by decide)

/-- **The path of a copy** has no quotes. -/
theorem isQuote_of_mem_referenceTo {directory name : Text} (plain : isPlainDirectory directory = true)
    (isPlain : PlainName name) : ∀ c ∈ referenceTo directory name, isQuote c = false := by
  intro c member
  rcases plain_of_mem_referenceTo (plainDirectory_of_isPlainDirectory plain) isPlain c member with fileChar | rfl
  · exact isQuote_of_isFileChar fileChar
  · decide

/-- A script that is stored has a name, and the path of its copy has no quotes. -/
theorem AttemptedAll.quoteless [InternationalNames] {taken : NamesTaken} {scripts : List (Text × Url)}
    (plain : isPlainDirectory place.directory = true) (distinct : (attempts.map Attempt.key).Nodup)
    (all : AttemptedAll place taken disk scripts exchanges attempts disk') :
    Quoteless (copyPath? base (storedPaths attempts)) := by
  intro segment path replaced
  obtain ⟨url, _, found⟩ := Option.bind_eq_some_iff.mp replaced
  obtain ⟨stored, member, rfl⟩ := (get?_storedPaths distinct).mp found
  obtain ⟨name, isPlain, same, _⟩ := all.names_fresh _ member
  show ∀ c ∈ stored.path, isQuote c = false
  rw [show stored.path = _ from same]
  exact isQuote_of_mem_referenceTo plain isPlain

/-! ### Runs -/

/-- What the path of a copy replaces is what leads to it. -/
theorem redirects_copyPath? [InternationalNames] (distinct : (relocation.attempts.map Attempt.key).Nodup)
    (segment : Segment) :
    Redirects base relocation segment.value
      ((copyPath? base (storedPaths relocation.attempts) segment).getD segment.value) := by
  have found : ∀ url, resolve? base segment.value = some url →
      copyPath? base (storedPaths relocation.attempts) segment
        = (storedPaths relocation.attempts).get? (scriptAddress url) := by
    intro url resolved
    unfold copyPath?
    rw [resolved]
    rfl
  constructor
  · intro url stored resolved member
    have path := (get?_storedPaths distinct).mpr ⟨stored, member, rfl⟩
    rw [found url resolved, path]
    rfl
  · intro unstored
    cases replaced : copyPath? base (storedPaths relocation.attempts) segment with
    | none => rfl
    | some path =>
      obtain ⟨url, resolved, path⟩ := Option.bind_eq_some_iff.mp replaced
      obtain ⟨stored, member, _⟩ := (get?_storedPaths distinct).mp path
      exact absurd member (unstored url stored resolved)

theorem Localized.redirected [InternationalNames] (plain : isPlainDirectory place.directory = true)
    (localized : Localized base place html disk relocation exchanges disk') :
    (scriptAttributes.cut html).Redirected base relocation (scriptAttributes.cut relocation.html) := by
  have distinct := localized.nodup_keys
  cases localized with
  | none =>
    refine ⟨List.forall₂_same.mpr fun segment _ => ⟨segment.value, rfl, ?_⟩, rfl⟩
    exact ⟨fun _ _ _ absent => absurd absent List.not_mem_nil, fun _ => rfl⟩
  | @some _ _ _ attempts _ _ all =>
    have cut : scriptAttributes.cut (redirectScripts base (storedPaths attempts) html)
        = (scriptAttributes.cut html).replaced (copyPath? base (storedPaths attempts)) :=
      (scriptAttributes_steady (all.quoteless plain distinct) (careless_copyPath? _)).cutFrom_replaced .start html
    rw [show scriptAttributes.cut (Relocation.html _) = _ from cut]
    refine ⟨List.forall₂_map_right_iff.mpr (List.forall₂_same.mpr fun segment _ => ?_), rfl⟩
    exact ⟨_, rfl, redirects_copyPath? distinct segment⟩

/-- **Exactly the references to copies are new** in the document that a run leaves behind, whatever the document
is, and whatever is answered and refused. Removing an unfinished file is assumed not to be refused. -/
theorem localizeScriptsBy_redirected [InternationalNames] {surroundings : Surroundings} {world : World}
    (plain : isPlainDirectory place.directory = true)
    (ran : (localizeScriptsBy surroundings.ask base place html : Amid surroundings _) { disk }
      = (.ok relocation, world)) :
    (scriptAttributes.cut html).Redirected base relocation (scriptAttributes.cut relocation.html) := by
  obtain ⟨_, _, localized⟩ := localizeScriptsBy_localized ran
  exact localized.redirected plain

/-- It is so where two scripts are stored, one of them under another name than its own, and others are not. -/
theorem localizeScriptsBy_redirected_fiveScripts :
    isPlainDirectory "js" = true
      ∧ ∃ relocation world, fiveScriptsRun = (.ok relocation, world) ∧ relocation.stored = fiveScriptsStored
        ∧ (scriptAttributes.cut fiveScripts).Redirected none relocation (scriptAttributes.cut relocation.html) := by
  have plain : isPlainDirectory (ScriptPlace.directory ⟨"out", "js"⟩) = true := by decide
  obtain ⟨relocation, world, ran, stored, _⟩ := fiveScriptsRun_ok
  exact ⟨plain, relocation, world, ran, stored, localizeScriptsBy_redirected plain ran⟩

end Relabel
