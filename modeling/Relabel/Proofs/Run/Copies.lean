/-
**Local copies as a part of a run.**

Copies are made with the options of a run that has succeeded. So the address of the document can be used, and
only their directory can be a reason to fail, if there is a script at all. Then nothing has happened but that
some of the directories that were to hold it may have been made. In every other case there is a new outcome,
whatever is answered and refused, with another document. The references to scripts that are lost are in it as
they were.

* `relocateBy_cases`: making local copies, as a part of a run.
* `CopiesSettled`: what is known of a run that makes local copies.
* `Segments.Redirected.lostKept`: references to lost scripts stay as they are.
* `processPair_copiesSettled`: it is so for every outcome.
-/

import Relabel.Proofs.Run.Names
import Relabel.Proofs.Script.Redirected

namespace Relabel

variable {surroundings : Surroundings} {options : Options} {output : Text} {outcome : Outcome}

/-- **Making local copies** fails if the address of the document cannot be used, and otherwise as far as the
copies cannot be made. -/
theorem relocateBy_cases [InternationalNames] {world world' : World} {result : Except Failure Outcome}
    (ran : (outcome.relocateBy surroundings.ask options output : Amid surroundings _) world = (result, world')) :
    (∃ failure, options.base = .error failure ∧ result = .error failure ∧ world' = world)
      ∨ ∃ base answer, options.base = .ok base ∧ result = answer.map outcome.relocated
          ∧ (localizeScriptsBy surroundings.ask base ⟨output, options.scriptsDirectory⟩ outcome.pair.html
              : Amid surroundings _) world = (answer, world') := by
  unfold Outcome.relocateBy at ran
  cases based : options.base with
  | error failure =>
    rw [based] at ran
    obtain ⟨rfl, rfl⟩ := Prod.mk.inj ran
    exact Or.inl ⟨failure, rfl, rfl, rfl⟩
  | ok base =>
    rw [based] at ran
    obtain ⟨answer, last, copied, ran⟩ := Amid.bind_eq ran
    refine Or.inr ⟨base, answer, rfl, ?_⟩
    cases answer with
    | error failure =>
      obtain ⟨rfl, rfl⟩ := Prod.mk.inj ran
      exact ⟨rfl, copied⟩
    | ok relocation =>
      obtain ⟨rfl, rfl⟩ := Prod.mk.inj ran
      exact ⟨rfl, copied⟩

/-! ### Lost scripts -/

/-- The references to scripts that are lost are as they were. -/
def Segments.LostKept [InternationalNames] (base : Option Url) (relocation : Relocation) (old new : Segments) : Prop :=
  List.Forall₂ (fun before after => ∀ url, resolve? base before.value = some url →
      scriptAddress url ∈ relocation.lost.map Prod.fst → after.value = before.value)
    old.found new.found

/-- **References to lost scripts** stay as they are, for no script is stored as well. -/
theorem Segments.Redirected.lostKept [InternationalNames] {base : Option Url} {relocation : Relocation}
    {old new : Segments} (redirected : old.Redirected base relocation new)
    (disjoint : ∀ key ∈ relocation.stored.map Prod.fst, key ∉ relocation.lost.map Prod.fst) :
    old.LostKept base relocation new := by
  refine redirected.1.imp ?_
  rintro before _ ⟨value, rfl, redirects⟩ url resolved lost
  refine redirects.kept fun url' stored resolved' member => ?_
  obtain rfl := Option.some.inj (resolved.symm.trans resolved')
  exact disjoint _ (List.mem_map_of_mem member) lost

/-! ### What is known at the end -/

/-- The outcome that is known at the end: the new one, or the old one if there is none. -/
def Outcome.updated (outcome : Outcome) (result : Except Failure Outcome) : Outcome :=
  result.toOption.getD outcome

/-- What is known of a run that makes local copies of the scripts of an outcome. -/
structure CopiesSettled [InternationalNames] (surroundings : Surroundings) (base : Option Url) (place : ScriptPlace)
    (outcome : Outcome) (world : World) (result : Except Failure Outcome) (world' : World) : Prop where
  /-- It fails exactly if there is a script and the directory of scripts cannot be made. -/
  fails : ∀ failure, result = .error failure ↔ (∃ key, IsScriptKey base outcome.pair.html key)
    ∧ ∃ error, ((makeDirectories place.path : Amid surroundings _) world).1 = .error error
      ∧ failure = .makingScripts place.path error
  /-- Then nothing was asked for, and every file and the outcome are as before. -/
  idle : ∀ failure, result = .error failure → failure.kind = .io ∧ world'.exchanges = world.exchanges
    ∧ (∀ location, world.disk.SameFileAt world'.disk location) ∧ outcome.updated result = outcome
  /-- Nothing but the document and what is known of its scripts ever changes. -/
  others : (outcome.updated result).pair.css = outcome.pair.css ∧ (outcome.updated result).found = outcome.found
    ∧ (outcome.updated result).names = outcome.names
  /-- If it does not fail, the references to stored scripts are new, and those to lost ones are not. -/
  copied : ∀ outcome', result = .ok outcome' → ∃ relocation, outcome'.relocation = some relocation
    ∧ outcome'.pair.html = relocation.html
    ∧ (scriptAttributes.cut outcome.pair.html).Redirected base relocation (scriptAttributes.cut relocation.html)
    ∧ (scriptAttributes.cut outcome.pair.html).LostKept base relocation (scriptAttributes.cut relocation.html)

/-- **Where the directory of scripts cannot be made**, nothing else happens. -/
theorem copiesSettled_error [InternationalNames] {base : Option Url} {place : ScriptPlace} {world world' : World}
    {error : FileError} (something : (pendingScripts base outcome.pair.html).entries ≠ [])
    (made : (makeDirectories place.path : Amid surroundings _) world = (.error error, world')) :
    CopiesSettled surroundings base place outcome world (.error (.makingScripts place.path error)) world' where
  fails failure := by
    have exists_key : ∃ key, IsScriptKey base outcome.pair.html key := by
      by_contra none
      exact something (pendingScripts_eq_nil_iff.mpr (not_exists.mp none))
    rw [made]
    constructor
    · rintro failed
      exact ⟨exists_key, error, rfl, (Except.error.inj failed).symm⟩
    · rintro ⟨_, _, same, rfl⟩
      rw [Except.error.inj same]
  idle failure failed := by
    obtain ⟨silent, prepared⟩ := makeDirectories_made made
    exact ⟨Except.error.inj failed ▸ rfl, silent, prepared.sameFileAt, rfl⟩
  others := ⟨rfl, rfl, rfl⟩
  copied _ done := absurd done nofun

/-- **In every other case** there is a new outcome. -/
theorem Localized.copiesSettled [InternationalNames] {base : Option Url} {place : ScriptPlace} {world world' : World}
    {relocation : Relocation} {exchanges : List Exchange} (plain : isPlainDirectory place.directory = true)
    (ready : (pendingScripts base outcome.pair.html).entries ≠ [] →
      ((makeDirectories place.path : Amid surroundings _) world).1 = .ok ())
    (localized : Localized base place outcome.pair.html world.disk relocation exchanges world'.disk) :
    CopiesSettled surroundings base place outcome world (.ok (outcome.relocated relocation)) world' where
  fails failure := by
    refine ⟨fun failed => absurd failed nofun, ?_⟩
    rintro ⟨⟨key, isKey⟩, error, made, _⟩
    have something : (pendingScripts base outcome.pair.html).entries ≠ [] := fun nothing =>
      pendingScripts_eq_nil_iff.mp nothing key isKey
    exact absurd ((ready something).symm.trans made) nofun
  idle _ failed := absurd failed nofun
  others := ⟨rfl, rfl, rfl⟩
  copied outcome' done := by
    obtain rfl := Except.ok.inj done
    have redirected := localized.redirected plain
    exact ⟨relocation, rfl, rfl, redirected, redirected.lostKept localized.accounted.disjoint⟩

/-- **Only the directory of scripts** can be a reason why no local copies are made for the outcome of a run, and
then nothing else has happened. Whatever else is answered and refused, there is a new outcome, with the references
to lost scripts as they were. Only removing an unfinished file is assumed not to be refused. -/
theorem processPair_copiesSettled [InternationalNames] {pair : Pair} {world world' : World}
    {result : Except Failure Outcome} (succeeded : processPair options pair = .ok outcome)
    (ran : (outcome.relocateBy surroundings.ask options output : Amid surroundings _) world = (result, world')) :
    ∃ base, options.base = .ok base
      ∧ CopiesSettled surroundings base ⟨output, options.scriptsDirectory⟩ outcome world result world' := by
  obtain ⟨_, plain, _, base, based⟩ := check_eq_ok_iff.mp (processPair_eq_ok_iff.mp succeeded).1
  refine ⟨base, based, ?_⟩
  obtain ⟨_, notBased, _⟩ | ⟨_, answer, based', rfl, localized⟩ := relocateBy_cases ran
  · exact absurd (based.symm.trans notBased) nofun
  obtain rfl := Except.ok.inj (based.symm.trans based')
  obtain ⟨something, error, rfl, made⟩ | ⟨relocation, _, rfl, _, ready, localized⟩ := localizeScriptsBy_cases localized
  · exact copiesSettled_error something made
  · exact localized.copiesSettled plain ready

/-- A document with a script that is not found and one whose file cannot be moved to its place. -/
def lostScripts : Text :=
  "<script src='https://a.org/b.js'></script><script src='https://a.org/c.js'>"

/-- Surroundings in which it is so. -/
def lossySurroundings : Surroundings :=
  { faultySurroundings with refusal := fun operation => if operation = 5 then some { error := .numbered 28 } else none }

/-- The outcome of a run on this document. -/
def lostScriptsOutcome : Outcome :=
  processed {} ⟨lostScripts, []⟩

/-- Local copies of its scripts on a disk. -/
def lostScriptsCopies (disk : Disk) : Except Failure Outcome × World :=
  (lostScriptsOutcome.relocateBy lossySurroundings.ask {} "out" : Amid lossySurroundings _) { disk }

/-- A disk on which a file has the name of the directory of the output. -/
def occupiedDisk : Disk :=
  ({} : Disk).place "out" (.file [])

/-- It is so where both scripts are lost, and where their directory cannot be made. -/
theorem processPair_copiesSettled_lost :
    processPair {} ⟨lostScripts, []⟩ = .ok lostScriptsOutcome
      ∧ (lostScriptsCopies {}).1.map (fun outcome => (outcome.relocation.map Relocation.lost).map (List.map Prod.fst))
        = .ok (some ["https://a.org/b.js".toList, "https://a.org/c.js"])
      ∧ (lostScriptsCopies occupiedDisk).1.map (fun _ => ()) = .error (.makingScripts "out/js" .notDirectory)
      ∧ ∀ disk ∈ [{}, occupiedDisk], CopiesSettled lossySurroundings none ⟨"out", "js"⟩ lostScriptsOutcome { disk }
        (lostScriptsCopies disk).1 (lostScriptsCopies disk).2 := by
  have ran : processPair {} ⟨lostScripts, []⟩ = .ok lostScriptsOutcome :=
    processPair_eq_ok_iff.mpr ⟨by decide, rfl⟩
  refine ⟨ran, by decide +kernel, by decide +kernel, fun disk _ => ?_⟩
  obtain ⟨base, based, settled⟩ := processPair_copiesSettled ran (Prod.mk.eta (p := lostScriptsCopies disk)).symm
  obtain rfl : none = base := Except.ok.inj based
  exact settled

end Relabel
