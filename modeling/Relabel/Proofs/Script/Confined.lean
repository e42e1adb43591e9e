/-
**Scripts are stored below the output directory.**

An address may end in any text, and a directory for scripts may be spelled in many ways. Whatever they are, the
name of a copy is a plain one with an extension, its path takes no step back out of the output directory, and the
reference to it consists of characters that need no quoting.

* `Confined`: a name whose file is below the output directory, under a reference of plain characters.
* `confined_of_plain`: plain names in plain directories are confined.
* `handOutAll_confined`: all names of a run are.
* `Localized.confined`: the copies that a run leaves behind have such names.
-/

import Relabel.Proofs.Files.Below
import Relabel.Proofs.Script.Stored

namespace Relabel

/-- A name of a script whose file is below the output directory, under a reference of plain characters. -/
structure Confined (place : ScriptPlace) (name : Text) : Prop where
  nonempty : name ≠ []
  visible : name.head? ≠ some '.'
  plain : ∀ c ∈ name, isFileChar c = true
  extension : HasExtension name
  /-- The file is where the reference to it leads from the output directory, -/
  path : joinPath place.path name = joinPath place.output (referenceTo place.directory name)
  /-- which begins there -/
  relative : isAbsolute (referenceTo place.directory name) = false
  /-- and takes no step back. -/
  forward : upward ∉ Text.splitOn '/' (referenceTo place.directory name)
  inside : LiesInside place.output (joinPath place.path name)
  /-- The reference consists of letters, digits, full stops, underscores, hyphens and slashes. -/
  unquoted : ∀ c ∈ referenceTo place.directory name, isFileChar c = true ∨ c = '/'

theorem PlainName.visible {name : Text} (isPlain : PlainName name) : name.head? ≠ some '.' := by
  obtain ⟨_, c, isHead, notDot⟩ := isPlain
  exact fun dot => notDot (Option.some.inj (isHead.symm.trans dot))

/-- **Plain names in plain directories** are confined. -/
theorem confined_of_plain {place : ScriptPlace} {name : Text} (isDirectory : PlainDirectory place.directory)
    (isPlain : PlainName name) (has : HasExtension name) : Confined place name := by
  have single := isPlain.single
  have relative := relative_referenceTo place.directory single.relative
  have path := place.joinPath_path single.relative
  obtain ⟨front, names, inDirectory, _⟩ := splitOn_referenceTo isDirectory.relative single
  have forward : upward ∉ Text.splitOn '/' (referenceTo place.directory name) := by
    rw [names, List.mem_append, List.mem_singleton]
    rintro (inFront | own)
    · exact isDirectory.forward (inDirectory inFront)
    · exact isPlain.ne_upward own.symm
  have leads : realNames (Text.splitOn '/' (referenceTo place.directory name)) ≠ [] := by
    rw [names, realNames_append, realNames_cons_of_leads single.nonempty isPlain.ne_sameward]
    simp
  exact
    { nonempty := single.nonempty
      visible := isPlain.visible
      plain := isPlain.plain
      extension := has
      path := path
      relative := decide_eq_false relative
      forward := forward
      inside := path ▸ liesInside_of_below relative forward leads
      unquoted := plain_of_mem_referenceTo isDirectory isPlain }

/-- The copy of one script has such a name. -/
theorem Attempted.confined {place : ScriptPlace} {taken taken' : NamesTaken} {disk disk' : Disk} {key : Text} {url : Url}
    {exchange : Exchange} {attempt : Attempt} {entry : Text × StoredScript}
    (isDirectory : PlainDirectory place.directory)
    (attempted : Attempted place taken disk key url exchange attempt taken' disk')
    (stored : attempt.stored? = some entry) :
    ∃ name, Confined place name ∧ entry.2.path = referenceTo place.directory name := by
  cases attempted with
  | notFetched | notStored => exact absurd stored nofun
  | stored content name location chosen =>
    obtain rfl := Option.some.inj stored
    have isPlain := (taken.choose_fresh (plainName_scriptName url)).1
    have has := taken.hasExtension_choose (hasExtension_scriptName url)
    exact ⟨name, chosen ▸ confined_of_plain isDirectory isPlain has, rfl⟩

/-- **The copies of a run** have such names. The induction is on the scripts. -/
theorem AttemptedAll.confined {place : ScriptPlace} {taken : NamesTaken} {disk disk' : Disk}
    {scripts : List (Text × Url)} {exchanges : List Exchange} {attempts : List Attempt}
    (isDirectory : PlainDirectory place.directory)
    (all : AttemptedAll place taken disk scripts exchanges attempts disk') :
    ∀ entry ∈ attempts.filterMap Attempt.stored?,
      ∃ name, Confined place name ∧ entry.2.path = referenceTo place.directory name := by
  induction all with
  | nil => exact fun _ absent => absurd absent List.not_mem_nil
  | cons first _ ih =>
    intro entry member
    rw [stored_cons, List.mem_append, Option.mem_toList] at member
    rcases member with own | later
    · exact first.confined isDirectory own
    · exact ih entry later

theorem Localized.confined [InternationalNames] {base : Option Url} {place : ScriptPlace} {html : Text}
    {disk disk' : Disk} {relocation : Relocation} {exchanges : List Exchange} (isDirectory : PlainDirectory place.directory)
    (localized : Localized base place html disk relocation exchanges disk') :
    ∀ entry ∈ relocation.stored, ∃ name, Confined place name ∧ entry.2.path = referenceTo place.directory name := by
  cases localized with
  | none => exact fun _ absent => absurd absent List.not_mem_nil
  | some _ _ all => exact all.confined isDirectory

/-- **All names of a run** are confined, whatever the addresses are for which they are handed out. -/
theorem handOutAll_confined {place : ScriptPlace} (plain : isPlainDirectory place.directory = true) (urls : List Url) :
    ∀ name ∈ NamesTaken.handOutAll {} (urls.map scriptName), Confined place name := by
  intro name member
  obtain ⟨asked, inNames, before, rfl⟩ := NamesTaken.mem_handOutAll member
  obtain ⟨url, _, rfl⟩ := List.mem_map.mp inNames
  exact confined_of_plain (plainDirectory_of_isPlainDirectory plain) (before.choose_fresh (plainName_scriptName url)).1
    (before.hasExtension_choose (hasExtension_scriptName url))

/-- Addresses with names that differ in case only, and with one that is no name of a file. -/
def craftyAddresses : List Url :=
  ["https://a.org/A.js".toList, "https://b.org/x?/a%2Ejs", "https://c.org/a%2Ejs", "https://d.org/..%2F..%2Fetc.js"].filterMap
    (resolve? none)

/-- The second one of such names, in a directory that is spelled with care. -/
theorem handOutAll_confined_secondName :
    isPlainDirectory "./a//b/" = true
      ∧ "a_1.js".toList ∈ NamesTaken.handOutAll {} (craftyAddresses.map scriptName)
      ∧ Confined ⟨"../out", "./a//b/"⟩ "a_1.js" := by
  have plain : isPlainDirectory (ScriptPlace.directory ⟨"../out", "./a//b/"⟩) = true := by decide
  have member : "a_1.js".toList ∈ NamesTaken.handOutAll {} (craftyAddresses.map scriptName) := by decide +kernel
  exact ⟨plain, member, handOutAll_confined plain craftyAddresses _ member⟩

end Relabel
