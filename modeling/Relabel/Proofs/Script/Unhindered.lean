/-
**Runs that nothing hinders.**

On a disk of its own a run is not refused anything, and an answer depends on its address only. Surroundings of
this kind are one case of all: a run in them does to the disk what it does on the disk alone. So what holds of
runs in any surroundings holds of those on a disk.

* `unhindered`: surroundings that refuse nothing.
* `Agrees`: computations that do the same to a disk, in these surroundings and on the disk alone.
* `localizeScripts_unhindered`: making local copies does the same.
-/

import Relabel.Proofs.Script.Surroundings

namespace Relabel

/-- Surroundings that refuse nothing, where it is settled what is at each address. -/
def unhindered (fetch : Fetch) : Surroundings where
  answer _ url := fetch url
  refusal _ := none

/-- Two computations have the same result and do the same to a disk. -/
def Agrees (fetch : Fetch) {α : Type} (amid : Amid (unhindered fetch) α) (onDisk : OnDisk α) : Prop :=
  ∀ world, onDisk.run world.disk = ((amid world).1, (amid world).2.disk)

namespace Agrees

variable {fetch : Fetch} {α β : Type}

theorem pure (a : α) : Agrees fetch (Pure.pure a) (Pure.pure a) :=
  fun _ => rfl

theorem bind {amid : Amid (unhindered fetch) α} {onDisk : OnDisk α} {next : α → Amid (unhindered fetch) β}
    {next' : α → OnDisk β} (first : Agrees fetch amid onDisk) (behind : ∀ a, Agrees fetch (next a) (next' a)) :
    Agrees fetch (amid >>= next) (onDisk >>= next') := by
  intro world
  rw [StateT.run_bind, first world]
  exact behind (amid world).1 (amid world).2

/-! ### Operations -/

theorem isDirectory (path : Text) : Agrees fetch (Relabel.isDirectory path) (Relabel.isDirectory path) :=
  fun _ => rfl

theorem writeFile (path : Text) (content : Bytes) :
    Agrees fetch (Relabel.writeFile path content) (Relabel.writeFile path content) :=
  fun _ => rfl

theorem createFile (path : Text) : Agrees fetch (Relabel.createFile path) (Relabel.createFile path) :=
  fun _ => rfl

theorem moveFile (source target : Text) :
    Agrees fetch (Relabel.moveFile source target) (Relabel.moveFile source target) :=
  fun _ => rfl

theorem removeFile (path : Text) : Agrees fetch (Relabel.removeFile path) (Relabel.removeFile path) :=
  fun _ => rfl

theorem makeDirectory (path : Text) : Agrees fetch (Relabel.makeDirectory path) (Relabel.makeDirectory path) :=
  fun _ => rfl

/-- A request is answered by what is at the address. -/
theorem ask (url : Url) : Agrees fetch ((unhindered fetch).ask url) (Pure.pure (fetch url)) :=
  fun _ => rfl

/-! ### Directories -/

theorem settle (path : Text) (known : Except FileError Unit) :
    Agrees fetch (Relabel.settle path known) (Relabel.settle path known) := by
  unfold Relabel.settle
  cases known with
  | ok _ => exact pure _
  | error error =>
    refine bind (isDirectory path) fun there => ?_
    cases there <;> exact pure _

theorem makeDirectoriesFrom (paths : List Text) :
    Agrees fetch (Relabel.makeDirectoriesFrom paths) (Relabel.makeDirectoriesFrom paths) := by
  induction paths with
  | nil => exact pure _
  | cons path above ih =>
    unfold Relabel.makeDirectoriesFrom
    refine bind (makeDirectory path) fun made => ?_
    cases made with
    | ok _ => exact pure _
    | error error =>
      by_cases missing : error = .notFound
      · simp only [if_pos missing]
        refine bind ih fun held => ?_
        cases held with
        | ok _ => exact bind (makeDirectory path) (settle path)
        | error error => exact pure _
      · simp only [if_neg missing]
        exact settle path _

/-! ### Files -/

theorem createUnfinished (directory : Text) (k tries : Nat) :
    Agrees fetch (Relabel.createUnfinished directory k tries) (Relabel.createUnfinished directory k tries) := by
  induction tries generalizing k with
  | zero => exact pure _
  | succ tries ih =>
    unfold Relabel.createUnfinished
    refine bind (createFile _) fun created => ?_
    cases created with
    | ok _ => exact pure _
    | error error =>
      by_cases again : error = .alreadyThere
      · simp only [if_pos again]
        exact ih (k + 1)
      · simp only [if_neg again]
        exact pure _

theorem finishFile (unfinished path : Text) (content : Bytes) :
    Agrees fetch (Relabel.finishFile unfinished path content) (Relabel.finishFile unfinished path content) := by
  unfold Relabel.finishFile
  refine bind (writeFile unfinished content) fun written => ?_
  cases written with
  | ok _ => exact moveFile unfinished path
  | error error => exact pure _

theorem replaceFile (directory name : Text) (content : Bytes) :
    Agrees fetch (Relabel.replaceFile directory name content) (Relabel.replaceFile directory name content) := by
  unfold Relabel.replaceFile
  refine bind (createUnfinished directory 0 unfinishedTries) fun created => ?_
  cases created with
  | error error => exact pure _
  | ok unfinished =>
    refine bind (finishFile unfinished _ content) fun finished => ?_
    cases finished with
    | ok _ => exact pure _
    | error error => exact bind (removeFile unfinished) fun _ => pure _

/-! ### Scripts -/

theorem storeScript (directory shown : Text) (taken : NamesTaken) (key : Text) (url : Url) :
    Agrees fetch (Relabel.storeScript (unhindered fetch).ask directory shown taken key url)
      (Relabel.storeScript (fun url => Pure.pure (fetch url)) directory shown taken key url) := by
  unfold Relabel.storeScript
  refine bind (ask url) fun answer => ?_
  cases answer with
  | error error => exact pure _
  | ok content =>
    refine bind (replaceFile directory _ content) fun replaced => ?_
    cases replaced <;> exact pure _

theorem storeScripts (directory shown : Text) (taken : NamesTaken) (scripts : List (Text × Url)) :
    Agrees fetch (Relabel.storeScripts (unhindered fetch).ask directory shown taken scripts)
      (Relabel.storeScripts (fun url => Pure.pure (fetch url)) directory shown taken scripts) := by
  induction scripts generalizing taken with
  | nil => exact pure _
  | cons script scripts ih =>
    unfold Relabel.storeScripts
    exact bind (storeScript directory shown taken _ _) fun step => bind (ih step.2) fun _ => pure _

end Agrees

/-- **Making local copies** does on a disk what it does in surroundings that refuse nothing. -/
theorem localizeScripts_unhindered [InternationalNames] (fetch : Fetch) (base : Option Url) (place : ScriptPlace)
    (html : Text) :
    Agrees fetch (localizeScriptsBy (unhindered fetch).ask base place html) (localizeScripts fetch base place html) := by
  unfold localizeScripts localizeScriptsBy
  by_cases none : (pendingScripts base html).isEmpty = true
  · simp only [if_pos none]
    exact .pure _
  · simp only [if_neg none]
    refine .bind (Agrees.makeDirectoriesFrom _) fun made => ?_
    cases made with
    | error error => exact .pure _
    | ok _ => exact .bind (Agrees.storeScripts _ _ _ _) fun _ => .pure _

end Relabel
