/-
**How long the names of scripts are.**

The name that is asked for fits: it is checked, or made from a digest. The number that it gets when it is taken is
not looked at again, so a name near the limit may be longer than names can be once it has a number. Where nothing is
refused, this is the only way in which the name of a script is too long for its file, and no file is written then.

* `byteLength_scriptName`, `byteLength_numberedFile`: how long a name is, and how much longer a number makes it.
* `Handled`: what becomes of a script that has been fetched, under the name that is handed out for it.
* `scriptNames_lengths`: the names of scripts in turn, and what becomes of the scripts.
* `longName_lost`: two scripts that have a name of the greatest length, of which the second one is lost.
-/

import Relabel.Proofs.Files.Reached
import Relabel.Proofs.Script.Attempts
import Relabel.Proofs.Script.HandedOut
import Relabel.Proofs.Script.Unhindered

namespace Relabel

open Text (byteLength)

/-! ### Lengths -/

theorem byteLength_variantMark (k : Nat) :
    byteLength (variantMark k) = if k = 0 then 0 else 1 + (Text.decimal k).length := by
  have ascii : IsAscii (variantMark k) := fun c member => toNat_lt_of_isFileChar (plain_variantMark k c member)
  rw [ascii.byteLength_eq]
  unfold variantMark
  split <;> simp [Nat.add_comm]

/-- A number makes a name longer by its digits and an underscore. -/
theorem byteLength_numberedFile (name : Text) (k : Nat) :
    byteLength (numberedFile name k) = byteLength name + if k = 0 then 0 else 1 + (Text.decimal k).length := by
  obtain ⟨front, back, rfl, _, variants⟩ := numberedFile_parts name
  rw [variants, ← byteLength_variantMark]
  simp only [Text.byteLength_append]
  omega

/-- The name made from a digest is short. -/
theorem byteLength_digestName (url : Url) : byteLength (digestName url) ≤ longestName := by
  have ascii : IsAscii (digestName url) :=
    fun c member => toNat_lt_of_isFileChar ((plainName_digestName url).plain c member)
  have front : "script_".toList.length = 7 := by decide
  have back : ".js".toList.length = 3 := by decide
  rw [ascii.byteLength_eq]
  unfold digestName longestName
  simp only [List.length_append, List.length_take]
  omega

/-- **The name of a script fits.** -/
theorem byteLength_scriptName (url : Url) : byteLength (scriptName url) ≤ longestName := by
  rcases scriptName_cases url with ⟨_, _, file⟩ | digest
  · exact file.fits
  · rw [digest]
    exact byteLength_digestName url

/-! ### Scripts in turn -/

theorem PlainName.fileName {name : Text} (isPlain : PlainName name) : Disk.FileName name where
  toSingleName := isPlain.single
  noZero member := absurd (isPlain.plain _ member) (by decide)
  notDot := isPlain.ne_sameward
  notUp := isPlain.ne_upward

/-- Whether a script has been fetched. -/
def Attempt.isFetched (attempt : Attempt) : Bool :=
  match attempt.result with
  | .error (.notFetched _) => false
  | _ => true

/-- The addresses at which there is something. -/
def fetchedUrls (fetch : Fetch) (scripts : List (Text × Url)) : List Url :=
  (scripts.map Prod.snd).filter fun url => (fetch url).toOption.isSome

/-- What becomes of a script that has been fetched, under the name that is handed out for it. -/
structure Handled (place : ScriptPlace) (name : Text) (attempt : Attempt) : Prop where
  /-- It is stored only if the name fits. -/
  stored : ∀ copy, attempt.result = .ok copy →
    copy.path = referenceTo place.directory name ∧ byteLength name ≤ longestName
  /-- If it is lost, no unfinished file can be made, or the name is too long, or a directory has the name. -/
  lost : ∀ name' error, attempt.result = .error (.notStored name' error) → name' = name
    ∧ (error = .alreadyThere ∨ error = if longestName < byteLength name then .nameTooLong else .isDirectory)

section Run

variable {fetch : Fetch} {place : ScriptPlace} {taken : NamesTaken} {disk disk' : Disk} {start : Location}

/-- On a disk alone, too, a file is replaced as a whole, or the disk stays as it is. -/
theorem replaceFile_onDisk {directory name : Text} {content : Bytes} {result : Except FileError Unit}
    (ran : (replaceFile directory name content : OnDisk _) disk = (result, disk')) :
    (∃ error, result = .error error ∧ disk' = disk)
      ∨ ∃ location, result = .ok () ∧ disk.writable (joinPath directory name) = .ok location
          ∧ disk' = disk.put location (.file content) := by
  have agrees := @Agrees.replaceFile (fun _ => .ok []) directory name content { disk := disk }
  rcases amid : (replaceFile directory name content : Amid (unhindered fun _ => .ok []) _) { disk := disk } with
    ⟨result', world⟩
  rw [amid] at agrees
  obtain ⟨rfl, rfl⟩ := Prod.mk.inj (ran.symm.trans agrees)
  obtain ⟨_, ⟨error, failed, same⟩ | ⟨_, done, location, writable, put⟩⟩ := replaceFile_settles amid
  · exact Or.inl ⟨error, failed, same⟩
  · exact Or.inr ⟨location, done, writable, put⟩

/-- **One script** that has been fetched. -/
theorem storeScript_handled (reaches : disk.Reaches place.path start) (room : HasRoom place.path) {key : Text}
    {url : Url} {content : Bytes} {attempt : Attempt} {taken' : NamesTaken} (fetched : fetch url = .ok content)
    (ran : (storeScript (fun url => pure (fetch url)) place.path place.directory taken key url : OnDisk _) disk
      = ((attempt, taken'), disk')) :
    taken' = taken.add (taken.choose (scriptName url)) ∧ attempt.isFetched = true
      ∧ Handled place (taken.choose (scriptName url)) attempt ∧ disk'.Reaches place.path start := by
  have isName := (taken.choose_fresh (plainName_scriptName url)).1.fileName
  unfold storeScript at ran
  simp only [OnDisk.bind_apply, OnDisk.pure_apply, fetched, NamesTaken.handOut] at ran
  rcases replaced : (replaceFile place.path (taken.choose (scriptName url)) content : OnDisk _) disk with ⟨result, last⟩
  rw [replaced] at ran
  rcases replaceFile_onDisk replaced with ⟨error, rfl, kept⟩ | ⟨location, rfl, writable, put⟩
  · obtain ⟨parts, rfl⟩ := Prod.mk.inj ran
    obtain ⟨rfl, rfl⟩ := Prod.mk.inj parts
    have reason := replaceFile_error reaches room isName (congrArg Prod.fst replaced)
    refine ⟨rfl, rfl, ⟨by simp, fun name error' lost => ?_⟩, kept ▸ reaches⟩
    obtain ⟨rfl, rfl⟩ := ScriptLoss.notStored.inj (Except.error.inj lost)
    exact ⟨rfl, reason⟩
  · obtain ⟨parts, rfl⟩ := Prod.mk.inj ran
    obtain ⟨rfl, rfl⟩ := Prod.mk.inj parts
    have free := Disk.free_of_writable writable
    refine ⟨rfl, rfl, ⟨fun copy stored => ?_, by simp⟩, put ▸ reaches.mono (Disk.keepsDirectories_put free)⟩
    obtain rfl := Except.ok.inj stored
    refine ⟨rfl, Nat.not_lt.mp fun long => ?_⟩
    exact absurd (writable.symm.trans (reaches.writable_tooLong isName long)) (by simp)

/-- A script that has not been fetched takes no name and leaves the disk as it is. -/
theorem storeScript_notFetched {key : Text} {url : Url} {error : FetchFailure} {attempt : Attempt} {taken' : NamesTaken}
    (failed : fetch url = .error error)
    (ran : (storeScript (fun url => pure (fetch url)) place.path place.directory taken key url : OnDisk _) disk
      = ((attempt, taken'), disk')) :
    taken' = taken ∧ attempt.isFetched = false ∧ disk' = disk := by
  unfold storeScript at ran
  simp only [OnDisk.bind_apply, OnDisk.pure_apply, failed] at ran
  obtain ⟨parts, rfl⟩ := Prod.mk.inj ran
  obtain ⟨rfl, rfl⟩ := Prod.mk.inj parts
  exact ⟨rfl, rfl, rfl⟩

/-- **Scripts in turn.** The induction is on the scripts, whatever the names are that are taken. -/
theorem storeScripts_handled {scripts : List (Text × Url)} {attempts : List Attempt}
    (reaches : disk.Reaches place.path start) (room : HasRoom place.path)
    (ran : (storeScripts (fun url => pure (fetch url)) place.path place.directory taken scripts : OnDisk _) disk
      = (attempts, disk')) :
    List.Forall₂ (Handled place) (taken.handOutAll ((fetchedUrls fetch scripts).map scriptName))
      (attempts.filter Attempt.isFetched) := by
  induction scripts generalizing taken disk attempts with
  | nil =>
    obtain ⟨rfl, rfl⟩ := Prod.mk.inj ran
    exact .nil
  | cons script scripts ih =>
    obtain ⟨key, url⟩ := script
    unfold storeScripts at ran
    obtain ⟨⟨attempt, taken'⟩, middle, tried, ran⟩ := OnDisk.bind_eq ran
    obtain ⟨others, last, later, ran⟩ := OnDisk.bind_eq ran
    obtain ⟨rfl, rfl⟩ := Prod.mk.inj ran
    cases answer : fetch url with
    | ok content =>
      obtain ⟨rfl, isFetched, handled, reaches'⟩ := storeScript_handled reaches room answer tried
      have urls : fetchedUrls fetch ((key, url) :: scripts) = url :: fetchedUrls fetch scripts := by
        simp [fetchedUrls, answer, Except.toOption]
      rw [urls, List.map_cons, List.filter_cons_of_pos isFetched]
      exact .cons handled (ih reaches' later)
    | error error =>
      obtain ⟨rfl, notFetched, rfl⟩ := storeScript_notFetched answer tried
      have urls : fetchedUrls fetch ((key, url) :: scripts) = fetchedUrls fetch scripts := by
        simp [fetchedUrls, answer, Except.toOption]
      rw [urls, List.filter_cons_of_neg (by simp [notFetched])]
      exact ih reaches later

/-- **All scripts of a document.** -/
theorem localizeScripts_handled [InternationalNames] {base : Option Url} {html : Text} {relocation : Relocation}
    (room : HasRoom place.path)
    (ran : (localizeScripts fetch base place html : OnDisk _) disk = (.ok relocation, disk')) :
    List.Forall₂ (Handled place)
      (NamesTaken.handOutAll {} ((fetchedUrls fetch (pendingScripts base html).entries).map scriptName))
      (relocation.attempts.filter Attempt.isFetched) := by
  unfold localizeScripts localizeScriptsBy at ran
  split at ran
  next empty =>
    obtain ⟨same, rfl⟩ := Prod.mk.inj ran
    obtain rfl := Except.ok.inj same
    have none : (pendingScripts base html).entries = [] := List.isEmpty_iff.mp empty
    rw [none]
    exact .nil
  next =>
    obtain ⟨result, middle, made, ran⟩ := OnDisk.bind_eq ran
    cases result with
    | error error => exact absurd (Prod.mk.inj ran).1 nofun
    | ok _ =>
      obtain ⟨start, reaches⟩ := makeDirectories_reaches made
      obtain ⟨attempts, last, stored, ran⟩ := OnDisk.bind_eq ran
      obtain ⟨same, rfl⟩ := Prod.mk.inj ran
      obtain rfl := Except.ok.inj same
      exact storeScripts_handled reaches room stored

end Run

/-! ### Names in turn -/

/-- How long a name is that is handed out for the script at an address, with a number or without. -/
structure NameLength (url : Url) (k : Nat) (name : Text) : Prop where
  name_eq : name = numberedFile (scriptName url) k
  /-- The name that is asked for fits. -/
  asked : byteLength (scriptName url) ≤ longestName
  /-- A number makes it longer. -/
  length_eq : byteLength name = byteLength (scriptName url) + if k = 0 then 0 else 1 + (Text.decimal k).length
  /-- So a name with a number fits only if there is room for the number. -/
  fits_iff : byteLength name ≤ longestName
    ↔ k = 0 ∨ byteLength (scriptName url) + (1 + (Text.decimal k).length) ≤ longestName

theorem nameLength_numberedFile (url : Url) (k : Nat) : NameLength url k (numberedFile (scriptName url) k) := by
  have asked := byteLength_scriptName url
  have length_eq := byteLength_numberedFile (scriptName url) k
  refine ⟨rfl, asked, length_eq, ?_⟩
  rw [length_eq]
  split
  next zero => simp [zero, asked]
  next number => simp [number]

/-- **The names of scripts fit, their numbers apart.** The name of a script fits, and is handed out with a number that
is not greater than the number of scripts before it. If these are the scripts of a document that have been fetched,
then each of them is stored only if its name fits with the number, and is lost to a name that is too long only if it
does not. -/
theorem scriptNames_lengths [InternationalNames] (urls : List Url) :
    (∀ i url, urls[i]? = some url →
      ∃ k ≤ i, ∃ name, (NamesTaken.handOutAll {} (urls.map scriptName))[i]? = some name ∧ NameLength url k name)
    ∧ ∀ (fetch : Fetch) (base : Option Url) (place : ScriptPlace) (html : Text) (disk disk' : Disk)
        (relocation : Relocation), fetchedUrls fetch (pendingScripts base html).entries = urls → HasRoom place.path →
        (localizeScripts fetch base place html : OnDisk _) disk = (.ok relocation, disk') →
        List.Forall₂ (Handled place) (NamesTaken.handOutAll {} (urls.map scriptName))
          (relocation.attempts.filter Attempt.isFetched) := by
  refine ⟨fun i url asked => ?_, fun _ _ _ _ _ _ _ fetched room ran => fetched ▸ localizeScripts_handled room ran⟩
  have ascii : ∀ name ∈ urls.map scriptName, IsAscii name := by
    intro name member
    obtain ⟨url, _, rfl⟩ := List.mem_map.mp member
    exact isAscii_scriptName url
  have asked' : (urls.map scriptName)[i]? = some (scriptName url) := by rw [List.getElem?_map, asked]; rfl
  obtain ⟨k, name, found, variant⟩ :=
    NamesTaken.firstVariant_handOutAll [] (fun _ absent => absurd absent List.not_mem_nil) ascii asked'
  have steps : k ≤ i := variant.steps.trans (List.length_take_le _ _)
  exact ⟨k, steps, name, found, variant.result_eq ▸ nameLength_numberedFile url k⟩

/-- A name of the greatest length. -/
def longName : Text :=
  List.replicate 252 'a' ++ ".js"

/-- The name when it is handed out for a second time. -/
def longNameAgain : Text :=
  List.replicate 252 'a' ++ "_1.js"

/-- The address of a script with this name, in a directory. -/
def longAddress (directory : Text) : Text :=
  "https://a.org/" ++ directory ++ ['/'] ++ longName

/-- A document with two such scripts. -/
def twoLongNames : Text :=
  "<script src='" ++ longAddress "1" ++ "'></script><script src='" ++ longAddress "2" ++ "'></script>"

/-- What becomes of it where every script is there and nothing is refused. -/
def twoLongNamesRun : Except Failure Relocation × Disk :=
  (localizeScripts (fun _ => .ok [59]) none ⟨"out", "js"⟩ twoLongNames : OnDisk _) {}

theorem twoLongNamesRun_ok :
    ∃ relocation disk, twoLongNamesRun = (.ok relocation, disk)
      ∧ relocation.lost = [(longAddress "2", .notStored longNameAgain .nameTooLong)] := by
  have results : twoLongNamesRun.1.toOption.map Relocation.lost
      = some [(longAddress "2", .notStored longNameAgain .nameTooLong)] := by decide +kernel
  obtain ⟨relocation, ran, lost⟩ := Option.map_eq_some_iff.mp results
  exact ⟨relocation, twoLongNamesRun.2, eq_ok_of_toOption ran ▸ Prod.mk.eta.symm, lost⟩

/-- Both names of this run, and what becomes of the scripts. -/
theorem scriptNames_lengths_twice :
    HasRoom (ScriptPlace.path ⟨"out", "js"⟩)
      ∧ ∃ relocation disk, twoLongNamesRun = (.ok relocation, disk)
        ∧ List.Forall₂ (Handled ⟨"out", "js"⟩) [longName, longNameAgain]
            (relocation.attempts.filter Attempt.isFetched) := by
  have room : HasRoom (ScriptPlace.path ⟨"out", "js"⟩) := by
    unfold HasRoom
    decide
  have names : NamesTaken.handOutAll {}
      ((fetchedUrls (fun _ => .ok [59]) (pendingScripts none twoLongNames).entries).map scriptName)
        = [longName, longNameAgain] := by decide +kernel
  obtain ⟨relocation, disk, ran, _⟩ := twoLongNamesRun_ok
  have handled := (scriptNames_lengths _).2 (fun _ => .ok [59]) none ⟨"out", "js"⟩ twoLongNames {} disk relocation rfl
    room ran
  rw [names] at handled
  exact ⟨room, relocation, disk, ran, handled⟩

/-- **Not all names fit**: the second of these scripts is lost because its name is too long. -/
theorem longName_lost :
    (¬ ∀ urls : List Url, ∀ name ∈ NamesTaken.handOutAll {} (urls.map scriptName), byteLength name ≤ longestName)
      ∧ ∃ relocation disk, twoLongNamesRun = (.ok relocation, disk)
        ∧ relocation.lost = [(longAddress "2", .notStored longNameAgain .nameTooLong)] := by
  refine ⟨fun allFit => ?_, twoLongNamesRun_ok⟩
  have member : longNameAgain
      ∈ NamesTaken.handOutAll {} (([longAddress "1", longAddress "2"].filterMap (resolve? none)).map scriptName) := by
    decide +kernel
  exact absurd (allFit _ _ member) (by decide +kernel)

end Relabel
