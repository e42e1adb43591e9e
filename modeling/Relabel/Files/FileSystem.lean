/-
**Operations on files.**

A run is written for any monad with these operations: for a disk as a state, where its effects can
be stated, and for the files of the system.

* `FileSystem`: the operations.
* `makeDirectories`: makes a directory with those that must hold it.
* `replaceFile`: writes a file that is complete as soon as it is there.
* `OnDisk`: the operations on a disk.
-/

import Relabel.Files.Disk

namespace Relabel

/-- The operations on files that a run uses. -/
class FileSystem (m : Type → Type) extends Monad m where
  /-- Whether a path leads to a file. -/
  isFile : (path : Text) → m Bool
  /-- Whether a path leads to a directory. -/
  isDirectory : (path : Text) → m Bool
  /-- The content of a file. -/
  readFile : (path : Text) → m (Except FileError Bytes)
  /-- Writes a file, in place of an earlier one. -/
  writeFile : (path : Text) → Bytes → m (Except FileError Unit)
  /-- Makes an empty file where nothing is. -/
  createFile : (path : Text) → m (Except FileError Unit)
  /-- Moves a file, in place of an earlier one. -/
  moveFile : (source target : Text) → m (Except FileError Unit)
  /-- Removes a file, if that is possible. -/
  removeFile : (path : Text) → m Unit
  /-- Makes a directory in one that is there. -/
  makeDirectory : (path : Text) → m (Except FileError Unit)

export FileSystem
  (isFile isDirectory readFile writeFile createFile moveFile removeFile makeDirectory)

/-! ### Directories with their ancestors -/

section Directories

variable {m : Type → Type} [FileSystem m]

/-- The result of making a directory. One that is there already is as good as a new one. -/
def settle (path : Text) (result : Except FileError Unit) : m (Except FileError Unit) :=
  match result with
  | .ok () => pure (.ok ())
  | .error error => do
    if ← isDirectory path then pure (.ok ()) else pure (.error error)

/-- Makes the first of some directories, where each one is held by the next. The others are made
only if the first one cannot be found a place. -/
def makeDirectoriesFrom : (paths : List Text) → m (Except FileError Unit)
  | [] => pure (.ok ())
  | path :: above => do
    match ← makeDirectory path with
    | .ok () => pure (.ok ())
    | .error error =>
      if error = .notFound then
        match ← makeDirectoriesFrom above with
        | .error error => pure (.error error)
        | .ok () => settle path (← makeDirectory path)
      else settle path (.error error)

/-- Makes a directory and those that must hold it, as far as they are not there. -/
def makeDirectories (path : Text) : m (Except FileError Unit) :=
  makeDirectoriesFrom (ancestors path)

end Directories

/-! ### Files that are complete as soon as they are there -/

/-- The names for files that are not complete yet. -/
def unfinishedName (k : Nat) : Text :=
  ".tmp" ++ (Text.decimal (1000000 + k)).drop 1

/-- How many names are tried for such a file. -/
def unfinishedTries : Nat := 65536

section Files

variable {m : Type → Type} [FileSystem m]

/-- Makes an empty file in a directory under the first name from the `k`-th on that is not in use,
and tells its path. -/
def createUnfinished (directory : Text) (k : Nat) : (tries : Nat) → m (Except FileError Text)
  | 0 => pure (.error .alreadyThere)
  | tries + 1 => do
    let path := joinPath directory (unfinishedName k)
    match ← createFile path with
    | .ok () => pure (.ok path)
    | .error error =>
      if error = .alreadyThere then createUnfinished directory (k + 1) tries else pure (.error error)

/-- Writes an unfinished file and moves it to its place. -/
def finishFile (unfinished path : Text) (content : Bytes) : m (Except FileError Unit) := do
  match ← writeFile unfinished content with
  | .error error => pure (.error error)
  | .ok () => moveFile unfinished path

/-- Writes a file in a directory, in place of an earlier one. It is written beside its place, and
what has been written is removed if it cannot be moved there. -/
def replaceFile (directory name : Text) (content : Bytes) : m (Except FileError Unit) := do
  match ← createUnfinished directory 0 unfinishedTries with
  | .error error => pure (.error error)
  | .ok unfinished =>
    match ← finishFile unfinished (joinPath directory name) content with
    | .ok () => pure (.ok ())
    | .error error => do
      removeFile unfinished
      pure (.error error)

end Files

/-! ### Disks as states -/

/-- Computations that change a disk. -/
abbrev OnDisk := StateM Disk

/-- The operations on a disk. -/
instance : FileSystem OnDisk where
  isFile path := do return (← get).find path matches .ok (.file _)
  isDirectory path := do return (← get).find path matches .ok .directory
  readFile path := do return (← get).read path
  writeFile path content := modifyGet (·.write path content)
  createFile path := modifyGet (·.create path)
  moveFile source target := modifyGet (·.move source target)
  removeFile path := modify (·.remove path)
  makeDirectory path := modifyGet (·.makeDirectory path)

end Relabel
