/-
**What becomes of each script.**

The scripts of a document are taken one after the other. A request is sent for each of them. If it is answered,
a name is handed out, and if the content can be stored, the disk has it under that name. Nothing else happens.

* `Attempted`: what may become of one script.
* `AttemptedAll`: what may become of scripts in turn.
* `storeScripts_attemptedAll`: nothing else may become of them, whatever is answered and refused.
* `Localized`: what a run leaves behind that makes local copies.
* `localizeScriptsBy_cases`: when it fails, and what it does otherwise.
-/

import Relabel.Command.Tables
import Relabel.Proofs.Files.Paths
import Relabel.Proofs.Script.Surroundings

namespace Relabel

variable {surroundings : Surroundings} {place : ScriptPlace}

/-! ### One script -/

/-- What may become of a script: it is not fetched, or it is fetched and not stored, or it is stored. -/
inductive Attempted (place : ScriptPlace) (taken : NamesTaken) (disk : Disk) (key : Text) (url : Url) :
    Exchange → Attempt → NamesTaken → Disk → Prop
  | notFetched (error : FetchFailure) :
      Attempted place taken disk key url ⟨url, .error error⟩ ⟨key, url, .error (.notFetched error)⟩ taken disk
  | notStored (content : Bytes) (name : Text) (error : FileError) (chosen : name = taken.choose (scriptName url)) :
      Attempted place taken disk key url ⟨url, .ok content⟩ ⟨key, url, .error (.notStored name error)⟩
        (taken.add name) disk
  | stored (content : Bytes) (name : Text) (location : Location) (chosen : name = taken.choose (scriptName url))
      (writable : disk.writable (joinPath place.path name) = .ok location) :
      Attempted place taken disk key url ⟨url, .ok content⟩
        ⟨key, url, .ok ⟨referenceTo place.directory name, content.length⟩⟩ (taken.add name)
        (disk.put location (.file content))

/-- **One script is attempted** by one request. -/
theorem storeScript_attempted {taken taken' : NamesTaken} {key : Text} {url : Url} {world world' : World}
    {attempt : Attempt}
    (ran : (storeScript surroundings.ask place.path place.directory taken key url : Amid surroundings _) world
      = ((attempt, taken'), world')) :
    ∃ exchange, world'.exchanges = world.exchanges ++ [exchange]
      ∧ Attempted place taken world.disk key url exchange attempt taken' world'.disk := by
  unfold storeScript at ran
  simp only [Amid.bind_apply] at ran
  rcases asked : surroundings.ask url world with ⟨answer, middle⟩
  rw [asked] at ran
  obtain ⟨recorded, same⟩ := ask_recorded asked
  cases answer with
  | error error =>
    obtain ⟨parts, rfl⟩ := Prod.mk.inj ran
    obtain ⟨rfl, rfl⟩ := Prod.mk.inj parts
    exact ⟨_, recorded, same ▸ .notFetched error⟩
  | ok content =>
    simp only [NamesTaken.handOut] at ran
    obtain ⟨result, last, replaced, ran⟩ := Amid.bind_eq ran
    obtain ⟨exchanges, ⟨error, rfl, kept⟩ | ⟨_, rfl, location, writable, disk⟩⟩ := replaceFile_settles replaced
    · obtain ⟨parts, rfl⟩ := Prod.mk.inj ran
      obtain ⟨rfl, rfl⟩ := Prod.mk.inj parts
      refine ⟨_, exchanges.trans recorded, ?_⟩
      rw [kept, same]
      exact .notStored content _ error rfl
    · obtain ⟨parts, rfl⟩ := Prod.mk.inj ran
      obtain ⟨rfl, rfl⟩ := Prod.mk.inj parts
      refine ⟨_, exchanges.trans recorded, ?_⟩
      rw [same] at writable disk
      rw [disk]
      exact .stored content _ location rfl writable

/-! ### All scripts -/

/-- What may become of scripts in turn. -/
inductive AttemptedAll (place : ScriptPlace) : NamesTaken → Disk → List (Text × Url) → List Exchange →
    List Attempt → Disk → Prop
  | nil {taken : NamesTaken} {disk : Disk} : AttemptedAll place taken disk [] [] [] disk
  | cons {taken taken' : NamesTaken} {disk disk' disk'' : Disk} {key : Text} {url : Url} {exchange : Exchange}
      {attempt : Attempt} {scripts : List (Text × Url)} {exchanges : List Exchange} {attempts : List Attempt}
      (first : Attempted place taken disk key url exchange attempt taken' disk')
      (others : AttemptedAll place taken' disk' scripts exchanges attempts disk'') :
      AttemptedAll place taken disk ((key, url) :: scripts) (exchange :: exchanges) (attempt :: attempts) disk''

/-- **Scripts are attempted in turn**, each by one request. The induction is on the scripts. -/
theorem storeScripts_attemptedAll {taken : NamesTaken} {scripts : List (Text × Url)} {world world' : World}
    {attempts : List Attempt}
    (ran : (storeScripts surroundings.ask place.path place.directory taken scripts : Amid surroundings _) world
      = (attempts, world')) :
    ∃ exchanges, world'.exchanges = world.exchanges ++ exchanges
      ∧ AttemptedAll place taken world.disk scripts exchanges attempts world'.disk := by
  induction scripts generalizing taken world attempts with
  | nil =>
    obtain ⟨rfl, rfl⟩ := Prod.mk.inj ran
    exact ⟨[], (List.append_nil _).symm, .nil⟩
  | cons script scripts ih =>
    obtain ⟨key, url⟩ := script
    unfold storeScripts at ran
    obtain ⟨⟨attempt, taken'⟩, middle, tried, ran⟩ := Amid.bind_eq ran
    obtain ⟨others, last, later, ran⟩ := Amid.bind_eq ran
    obtain ⟨rfl, rfl⟩ := Prod.mk.inj ran
    obtain ⟨exchange, one, first⟩ := storeScript_attempted tried
    obtain ⟨exchanges, all, behind⟩ := ih later
    exact ⟨exchange :: exchanges, by rw [all, one, List.append_assoc, List.singleton_append], .cons first behind⟩

/-! ### All of it -/

/-- What a run leaves behind that makes local copies of the scripts of a document: nothing if there are none, and
otherwise what becomes of them once their directory is there. -/
inductive Localized [InternationalNames] (base : Option Url) (place : ScriptPlace) (html : Text) (disk : Disk) :
    Relocation → List Exchange → Disk → Prop
  | none (nothing : (pendingScripts base html).entries = []) :
      Localized base place html disk ⟨html, [], skippedReferences base html⟩ [] disk
  | some {middle disk' : Disk} {exchanges : List Exchange} {attempts : List Attempt}
      (something : (pendingScripts base html).entries ≠ [])
      (made : Made (ancestors place.path) disk middle)
      (all : AttemptedAll place {} middle (pendingScripts base html).entries exchanges attempts disk') :
      Localized base place html disk
        ⟨redirectScripts base (storedPaths attempts) html, attempts, skippedReferences base html⟩ exchanges disk'

/-- **A run that makes local copies** fails if there are scripts and their directory cannot be made, and otherwise
does nothing else. -/
theorem localizeScriptsBy_cases [InternationalNames] {base : Option Url} {html : Text} {world world' : World}
    {answer : Except Failure Relocation}
    (ran : (localizeScriptsBy surroundings.ask base place html : Amid surroundings _) world = (answer, world')) :
    ((pendingScripts base html).entries ≠ [] ∧ ∃ error, answer = .error (.makingScripts place.path error)
        ∧ (makeDirectories place.path : Amid surroundings _) world = (.error error, world'))
      ∨ ∃ relocation exchanges, answer = .ok relocation ∧ world'.exchanges = world.exchanges ++ exchanges
          ∧ ((pendingScripts base html).entries ≠ [] →
              ((makeDirectories place.path : Amid surroundings _) world).1 = .ok ())
          ∧ Localized base place html world.disk relocation exchanges world'.disk := by
  unfold localizeScriptsBy at ran
  split at ran
  next empty =>
    obtain ⟨rfl, rfl⟩ := Prod.mk.inj ran
    have nothing := List.isEmpty_iff.mp empty
    exact Or.inr ⟨_, [], rfl, (List.append_nil _).symm, absurd nothing, .none nothing⟩
  next something =>
    have something := mt List.isEmpty_iff.mpr something
    obtain ⟨result, middle, made, ran⟩ := Amid.bind_eq ran
    obtain ⟨silent, prepared⟩ := makeDirectories_made made
    cases result with
    | error error =>
      obtain ⟨rfl, rfl⟩ := Prod.mk.inj ran
      exact Or.inl ⟨something, error, rfl, made⟩
    | ok _ =>
      obtain ⟨attempts, last, stored, ran⟩ := Amid.bind_eq ran
      obtain ⟨rfl, rfl⟩ := Prod.mk.inj ran
      obtain ⟨exchanges, recorded, all⟩ := storeScripts_attemptedAll stored
      exact Or.inr ⟨_, exchanges, rfl, by rw [recorded, silent], fun _ => congrArg Prod.fst made,
        .some something prepared all⟩

/-- What a run leaves behind that has made local copies. -/
theorem localizeScriptsBy_localized [InternationalNames] {base : Option Url} {html : Text} {world world' : World}
    {relocation : Relocation} (ran : (localizeScriptsBy surroundings.ask base place html : Amid surroundings _) world
      = (.ok relocation, world')) :
    ∃ exchanges, world'.exchanges = world.exchanges ++ exchanges
      ∧ Localized base place html world.disk relocation exchanges world'.disk := by
  obtain ⟨_, error, failed, _⟩ | ⟨_, exchanges, same, recorded, _, localized⟩ := localizeScriptsBy_cases ran
  · exact absurd failed nofun
  · obtain rfl := Except.ok.inj same
    exact ⟨exchanges, recorded, localized⟩

/-! ### A run -/

theorem eq_ok_of_toOption {ε α : Type} {result : Except ε α} {a : α} (found : result.toOption = some a) :
    result = .ok a := by
  cases result with
  | error => exact absurd found nofun
  | ok => exact congrArg Except.ok (Option.some.inj found)

/-- Surroundings in which every script is there and nothing is refused. -/
def calmSurroundings : Surroundings where
  answer _ _ := .ok [59]
  refusal _ := none

/-- Surroundings in which scripts named `b.js` are not found, and one operation on files is refused. -/
def faultySurroundings : Surroundings where
  answer _ url := if url.lastSegment? = some "b.js" then .error (.status url.render 404) else .ok [59]
  refusal operation := if operation = 11 then some { error := .numbered 28 } else none

/-- A document with two scripts whose names differ in case only, one that is not found, one whose file cannot be
moved to its place, and one that is inline. -/
def fiveScripts : Text :=
  "<script src=\"https://b.org/A.js\"></script><script src='https://a.org/a.js#x'></script>"
    ++ "<script src='https://a.org/b.js'></script><script src='https://c.org/c.js'></script><script src='data:,1'>"

/-- What becomes of this document. -/
def fiveScriptsRun : Except Failure Relocation × World :=
  (localizeScriptsBy faultySurroundings.ask none ⟨"out", "js"⟩ fiveScripts : Amid faultySurroundings _) { disk := {} }

/-- The copies of its scripts. -/
def fiveScriptsStored : List (Text × StoredScript) :=
  [("https://a.org/a.js", ⟨"js/a.js", 1⟩), ("https://b.org/A.js", ⟨"js/A_1.js", 1⟩)]

theorem fiveScriptsRun_ok :
    ∃ relocation world, fiveScriptsRun = (.ok relocation, world)
      ∧ relocation.stored = fiveScriptsStored
      ∧ relocation.lost.map Prod.fst = ["https://a.org/b.js".toList, "https://c.org/c.js"] := by
  have results : fiveScriptsRun.1.toOption.map (fun relocation => (relocation.stored, relocation.lost.map Prod.fst))
      = some (fiveScriptsStored, ["https://a.org/b.js".toList, "https://c.org/c.js"]) := by decide +kernel
  obtain ⟨relocation, ran, facts⟩ := Option.map_eq_some_iff.mp results
  obtain ⟨stored, lost⟩ := Prod.mk.inj facts
  exact ⟨relocation, fiveScriptsRun.2, eq_ok_of_toOption ran ▸ Prod.mk.eta.symm, stored, lost⟩

end Relabel
