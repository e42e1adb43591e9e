/-
**The files of one run.**

The copies of scripts are written first, and then the files of the output, into the same directory. Neither part
knows the names of the other one. A copy is kept if its directory is another one than that of the output, or if
its name is another one than those of the output. If both are the same, the file of the output takes its place.

* `TakesPlace`: a file of the output has the place of a copy.
* `FilesKept`: what is known of all files at the end of a run.
* `processPair_filesKept`: it is so for every run that succeeds.
-/

import Relabel.Proofs.Files.Below
import Relabel.Proofs.Run.Copies
import Relabel.Proofs.Run.Output
import Relabel.Proofs.Script.Stored

namespace Relabel

variable {surroundings : Surroundings} {options : Options} {output directory : Text} {names : OutputNames}
  {outcome outcome' : Outcome}

/-! ### Copies beside the output -/

/-- The names of the files of the output and their texts. -/
def namedFiles (names : OutputNames) (outcome : Outcome) : List (Text × Text) :=
  [(names.html, outcome.pair.html), (names.css, outcome.pair.css), (mappingName, renamingsDocument outcome.names)]

theorem outputFiles_eq (output : Text) (names : OutputNames) (outcome : Outcome) :
    outputFiles (outputPaths output names) outcome
      = (namedFiles names outcome).map fun file => (joinPath output file.1, file.2) := rfl

theorem namedFiles_whole (whole : '/' ∉ names.html ∧ '/' ∉ names.css) :
    ∀ file ∈ namedFiles names outcome, '/' ∉ file.1 := by
  simp only [namedFiles, List.forall_mem_cons]
  exact ⟨whole.1, whole.2, by decide, fun _ absent => absurd absent List.not_mem_nil⟩

/-- Whether a file of the output has the place of a copy: the directory for scripts is that of the output under
another spelling, and the names are the same. -/
def TakesPlace (directory name : Text) (stored : StoredScript) : Prop :=
  realNames (Text.splitOn '/' directory) = [] ∧ stored.path = referenceTo directory name

/-- What is known of the files of a run at its end. -/
structure FilesKept (output directory : Text) (names : OutputNames) (outcome : Outcome) (relocation : Relocation)
    (exchanges : List Exchange) (disk : Disk) : Prop where
  /-- Each file of the output holds its text. -/
  texts : ∀ file ∈ namedFiles names outcome, disk.read (joinPath output file.1) = .ok (Utf8.encode file.2)
  /-- Each copy holds what the one request for its script was answered, unless its place is taken. -/
  copies : ∀ key stored, (key, stored) ∈ relocation.stored →
    (∀ file ∈ namedFiles names outcome, ¬ TakesPlace directory file.1 stored) → ∃ url content,
      exchanges.filter (fun exchange => scriptAddress exchange.url = key) = [⟨url, .ok content⟩]
        ∧ disk.read (joinPath output stored.path) = .ok content ∧ stored.size = content.length
  /-- Where it is taken, the text of the output is. -/
  taken : ∀ key stored, (key, stored) ∈ relocation.stored → ∀ file ∈ namedFiles names outcome,
    TakesPlace directory file.1 stored → disk.read (joinPath output stored.path) = .ok (Utf8.encode file.2)

section Beside

variable {disk disk' : Disk} {places : List Location} {files : List (Text × Text)}
  (all : WrittenAll disk (files.map fun file => (joinPath output file.1, file.2)) places disk')
  (isDirectory : PlainDirectory directory)

include all isDirectory

/-- **The place of a copy is taken** by a file of the output with its name. -/
theorem WrittenAll.copy_taken {name : Text} {content text : Bytes} (isPlain : PlainName name)
    (read : disk.read (joinPath output (referenceTo directory name)) = .ok content)
    (noNames : realNames (Text.splitOn '/' directory) = []) (readText : disk'.read (joinPath output name) = .ok text) :
    disk'.read (joinPath output (referenceTo directory name)) = .ok text := by
  obtain ⟨target, located, notSlashed, short, _⟩ := Disk.read_eq_ok_iff.mp read
  have locatedLater := Disk.locate_mono all.keepsDirectories located
  obtain ⟨start, followed, place⟩ := Disk.locate_referenceTo isDirectory isPlain locatedLater
  obtain ⟨target', located', _, _, found⟩ := Disk.read_eq_ok_iff.mp readText
  obtain ⟨start', followed', rfl⟩ := Disk.locate_joinPath isPlain.single located'
  obtain rfl := Except.ok.inj (followed.symm.trans followed')
  refine Disk.read_eq_ok_iff.mpr ⟨target, locatedLater, notSlashed, short, ?_⟩
  rw [isPlain.place_eq] at found
  rw [place, noNames, List.reverse_nil, List.nil_append, found]

variable (whole : ∀ file ∈ files, '/' ∉ file.1)

include whole

/-- **Where the files of the output are**, and a copy. -/
theorem WrittenAll.copy_place {name : Text} {target : Disk.Target} (isPlain : PlainName name)
    (located : disk.locate (joinPath output (referenceTo directory name)) = .ok target) :
    ∃ start, places = files.map (fun file => file.1 :: start)
      ∧ target.place = name :: ((realNames (Text.splitOn '/' directory)).reverse ++ start) := by
  obtain ⟨start, followed, place⟩ := Disk.locate_referenceTo isDirectory isPlain located
  exact ⟨start, all.places_eq whole (Disk.follow_mono all.keepsDirectories followed), place⟩

/-- **A copy is kept** if no file of the output takes its place. -/
theorem WrittenAll.copy_kept {name : Text} {content : Bytes} (isPlain : PlainName name)
    (read : disk.read (joinPath output (referenceTo directory name)) = .ok content)
    (apart : ∀ file ∈ files, realNames (Text.splitOn '/' directory) = [] → name ≠ file.1) :
    disk'.read (joinPath output (referenceTo directory name)) = .ok content := by
  obtain ⟨target, located, _⟩ := Disk.read_eq_ok_iff.mp read
  obtain ⟨start, parts, place⟩ := all.copy_place isDirectory whole isPlain located
  refine all.read_kept located (fun inPlaces => ?_) read
  rw [parts, place] at inPlaces
  obtain ⟨file, member, same⟩ := List.mem_map.mp inPlaces
  obtain ⟨own, behind⟩ := List.cons.inj same
  have noNames : realNames (Text.splitOn '/' directory) = [] := by
    have lengths := congrArg List.length behind
    rw [List.length_append, List.length_reverse] at lengths
    exact List.eq_nil_of_length_eq_zero (by omega)
  exact apart file member noNames own.symm

end Beside

/-- **The files of a run** are kept, if the output is written when copies of scripts have been stored. -/
theorem StoredApart.filesKept {disk copied disk' : Disk} {relocation : Relocation} {exchanges : List Exchange}
    {written : Written} (isDirectory : PlainDirectory directory)
    (whole : ∀ file ∈ namedFiles names outcome, '/' ∉ file.1)
    (copies : StoredApart ⟨output, directory⟩ disk relocation exchanges copied)
    (plain : ∀ entry ∈ relocation.stored, ∃ name, PlainName name ∧ entry.2.path = referenceTo directory name)
    (wrote : OutputWritten output names outcome copied written disk') (done : written.failure = none) :
    FilesKept output directory names outcome relocation exchanges disk' := by
  obtain ⟨apart, middle, places, made, all⟩ := wrote.writtenAll done
  rw [outputFiles_eq] at all
  have texts := (all.complete_named whole (names_apart apart)).2
  refine { texts, copies := fun key stored member free => ?_, taken := fun key stored member file inFiles takes => ?_ }
  · obtain ⟨url, content, requested, read, size⟩ := copies.complete key stored member
    obtain ⟨name, isPlain, path⟩ := plain _ member
    refine ⟨url, content, requested, ?_, size⟩
    rw [path] at read ⊢
    refine all.copy_kept isDirectory whole isPlain (made.read_kept read) fun file inFiles noNames same => ?_
    exact free file inFiles ⟨noNames, same ▸ path⟩
  · obtain ⟨_, content, _, read, _⟩ := copies.complete key stored member
    obtain ⟨name, isPlain, path⟩ := plain _ member
    obtain ⟨noNames, same⟩ := takes
    obtain rfl : name = file.1 := referenceTo_injective (path.symm.trans same)
    rw [path] at read ⊢
    exact all.copy_taken isDirectory isPlain (made.read_kept read) noNames (texts file inFiles)

/-! ### Runs -/

/-- **The files of a run** that succeeds are kept: each file of the output holds its text, and each copy what was
fetched for it, unless a file of the output takes its place. Operations on files may be refused, save that removing an
unfinished file is assumed not to be. -/
theorem processPair_filesKept [InternationalNames] {pair : Pair} {disk : Disk} {world world' : World}
    {written : Written} (whole : '/' ∉ names.html ∧ '/' ∉ names.css) (ran : processPair options pair = .ok outcome)
    (copied : (outcome.relocateBy surroundings.ask options output : Amid surroundings _) { disk } = (.ok outcome', world))
    (wrote : (writeOutput output names outcome' : Amid surroundings _) world = (written, world'))
    (done : written.failure = none) :
    ∃ relocation, outcome'.relocation = some relocation
      ∧ FilesKept output options.scriptsDirectory names outcome' relocation world'.exchanges world'.disk := by
  have checked := (processPair_eq_ok_iff.mp ran).1
  have isDirectory := plainDirectory_of_isPlainDirectory (check_eq_ok_iff.mp checked).2.1
  obtain ⟨silent, output⟩ := writeOutput_written wrote
  obtain ⟨_, _, failed, _⟩ | ⟨base, answer, _, same, localized⟩ := relocateBy_cases copied
  · exact absurd failed nofun
  cases answer with
  | error failure => exact absurd same nofun
  | ok relocation =>
    obtain rfl := Except.ok.inj same
    obtain ⟨exchanges, recorded, localized⟩ := localizeScriptsBy_localized localized
    rw [silent, recorded, List.nil_append]
    have kept := localized.storedApart.filesKept isDirectory (namedFiles_whole whole) localized.plainNames output done
    exact ⟨relocation, rfl, kept⟩

/-- A document with two scripts, one of which has the name of the file of the renamings. -/
def mappedPair : Pair :=
  ⟨"<script src='https://a.org/mapping.json'></script><script src='https://a.org/a.js'></script>", []⟩

/-- The scripts are kept in the directory of the output. -/
def mappedOptions : Options :=
  { scriptsDirectory := "." }

def mappedNames : OutputNames :=
  ⟨"index.html", "style.css"⟩

/-- Local copies of these scripts, in a directory that is there. -/
def mappedCopies : Except Failure Outcome × World :=
  ((processed mappedOptions mappedPair).relocateBy calmSurroundings.ask mappedOptions "out" : Amid calmSurroundings _)
    { disk := ({} : Disk).place "out" .directory }

/-- The output beside the copies. -/
def mappedOutput (outcome : Outcome) : Written × World :=
  (writeOutput "out" mappedNames outcome : Amid calmSurroundings _) mappedCopies.2

/-- The copies in this run. -/
def mappedStored : List (Text × StoredScript) :=
  [("https://a.org/a.js", ⟨"./a.js", 1⟩), ("https://a.org/mapping.json", ⟨"./mapping.json", 1⟩)]

theorem mappedRun_ok :
    ∃ outcome relocation, mappedCopies.1 = .ok outcome ∧ outcome.relocation = some relocation
      ∧ relocation.stored = mappedStored ∧ (mappedOutput outcome).1.failure = none
      ∧ (mappedOutput outcome).2.exchanges.map Exchange.answer = [.ok [59], .ok [59]]
      ∧ (mappedOutput outcome).2.disk.read "out/./mapping.json" ≠ .ok [59] := by
  have results : ∃ outcome ∈ mappedCopies.1.toOption, outcome.relocation.map Relocation.stored = some mappedStored
      ∧ (mappedOutput outcome).1.failure = none
      ∧ (mappedOutput outcome).2.exchanges.map Exchange.answer = [.ok [59], .ok [59]]
      ∧ (mappedOutput outcome).2.disk.read "out/./mapping.json" ≠ .ok [59] := by
    decide +kernel
  obtain ⟨outcome, ran, copies, facts⟩ := results
  obtain ⟨relocation, relocated, stored⟩ := Option.map_eq_some_iff.mp copies
  exact ⟨outcome, relocation, eq_ok_of_toOption ran, relocated, stored, facts⟩

/-- It is so where the directory of the output holds the scripts as well, and the place of one copy is taken. -/
theorem processPair_filesKept_mapped :
    ∃ outcome relocation, mappedCopies.1 = .ok outcome ∧ (mappedOutput outcome).1.failure = none
      ∧ relocation.stored = mappedStored ∧ TakesPlace "." mappingName ⟨"./mapping.json", 1⟩
      ∧ FilesKept "out" "." mappedNames outcome relocation (mappedOutput outcome).2.exchanges
        (mappedOutput outcome).2.disk := by
  obtain ⟨outcome, relocation, copied, relocated, stored, done, _⟩ := mappedRun_ok
  have ran : processPair mappedOptions mappedPair = .ok (processed mappedOptions mappedPair) :=
    processPair_eq_ok_iff.mpr ⟨by decide, rfl⟩
  have copiedTo : mappedCopies = (.ok outcome, mappedCopies.2) := copied ▸ Prod.mk.eta.symm
  have wrote : mappedOutput outcome = ((mappedOutput outcome).1, (mappedOutput outcome).2) := Prod.mk.eta.symm
  obtain ⟨relocation', relocated', kept⟩ :=
    processPair_filesKept ⟨by decide, by decide⟩ ran copiedTo wrote done
  obtain rfl := Option.some.inj (relocated.symm.trans relocated')
  exact ⟨outcome, relocation, copied, done, stored, ⟨by decide, by decide⟩, kept⟩

/-- **A copy is lost** in this run, although all of it succeeds: what is read under its path is not what was
fetched for it. -/
theorem copy_lost_mapped :
    processPair mappedOptions mappedPair = .ok (processed mappedOptions mappedPair)
      ∧ ∃ outcome relocation, mappedCopies.1 = .ok outcome ∧ outcome.relocation = some relocation
        ∧ (mappedOutput outcome).1.failure = none
        ∧ ∃ key stored, (key, stored) ∈ relocation.stored ∧ ¬ ∃ url content,
            (mappedOutput outcome).2.exchanges.filter (fun exchange => scriptAddress exchange.url = key)
                = [⟨url, .ok content⟩]
              ∧ (mappedOutput outcome).2.disk.read (joinPath "out" stored.path) = .ok content := by
  obtain ⟨outcome, relocation, copied, relocated, stored, done, answers, read⟩ := mappedRun_ok
  refine ⟨processPair_eq_ok_iff.mpr ⟨by decide, rfl⟩, outcome, relocation, copied, relocated, done,
    "https://a.org/mapping.json", ⟨"./mapping.json", 1⟩, stored ▸ by decide, ?_⟩
  rintro ⟨url, content, requested, kept⟩
  have member : (⟨url, .ok content⟩ : Exchange) ∈ (mappedOutput outcome).2.exchanges :=
    List.mem_of_mem_filter (requested ▸ List.mem_singleton_self _)
  have answered := List.mem_map_of_mem (f := Exchange.answer) member
  rw [answers] at answered
  have fetched : content = [59] := by simpa using answered
  rw [fetched] at kept
  exact read kept

end Relabel
