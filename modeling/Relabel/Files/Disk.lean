/-
**Disks.**

A disk holds files and directories. Paths begin at a working directory, which is always there, as
are the directories above it, or at the root of the system. How far below the root the working
directory is does not matter.

* `Disk.at?`: what is at a place.
* `Disk.locate`: the place that a path leads to.
* `Disk.read`, `Disk.write`, `Disk.create`, `Disk.move`, `Disk.remove`, `Disk.makeDirectory`: the
  operations, and the errors they end in.
* `Disk.changes`: what has been written between two states.
-/

import Relabel.Encoding.Utf8
import Relabel.Files.Error
import Relabel.Files.Path
import Relabel.Text.Slice

namespace Relabel

/-- What a place on a disk holds. -/
inductive Entry where
  | file (content : Bytes)
  | directory
  deriving DecidableEq, Repr

/-- The names that lead to a place from the working directory, last one first. Names that lead
upwards, or that of the root, come before all others. -/
abbrev Location := List Text

/-- Two dots lead to the directory above. -/
def upward : Text := ".."

/-- A dot leads to the same directory. -/
def sameward : Text := "."

/-- The name of the root, which no other place has. -/
def rootName : Text := "/"

/-- The directory above a place. The root is above itself. -/
def Location.above : Location → Location
  | [] => [upward]
  | name :: place =>
    if name = upward then upward :: name :: place
    else if name = rootName then name :: place
    else place

/-- The path of a place. -/
def Location.path (place : Location) : Text :=
  Text.join "/" place.reverse

/-- The files and directories below the working directory, and those that have been written
elsewhere. -/
structure Disk where
  entries : List (Location × Entry) := []
  deriving DecidableEq, Repr

namespace Disk

/-! ### Places -/

/-- What is at a place. -/
def at? (disk : Disk) (place : Location) : Option Entry :=
  if place.all (· = upward) || place = [rootName] then some .directory
  else disk.entries.lookup place

/-- The disk with an entry at a place. -/
def put (disk : Disk) (place : Location) (entry : Entry) : Disk :=
  ⟨(place, entry) :: disk.entries.filter (·.1 ≠ place)⟩

/-- The disk without what is at a place. -/
def erase (disk : Disk) (place : Location) : Disk :=
  ⟨disk.entries.filter (·.1 ≠ place)⟩

/-- The place that names lead to from a directory. Every name must lead to a directory. -/
def follow (disk : Disk) (place : Location) : List Text → Except FileError Location
  | [] => .ok place
  | name :: names =>
    if name = [] || name = sameward then follow disk place names
    else if name = upward then follow disk place.above names
    else if longestName < Text.byteLength name then .error .nameTooLong
    else
      match disk.at? (name :: place) with
      | some .directory => follow disk (name :: place) names
      | some (.file _) => .error .notDirectory
      | none => .error .notFound

/-- Where the last name of a path is looked up. -/
structure Target where
  directory : Location
  name : Text
  /-- Whether a slash follows, so that only a directory can be meant. -/
  slashed : Bool
  deriving DecidableEq, Repr

/-- Whether the last name leads to a directory by itself. -/
def Target.isDots (target : Target) : Bool :=
  target.name = sameward || target.name = upward

/-- The place that the last name leads to. -/
def Target.place (target : Target) : Location :=
  if target.name = sameward then target.directory
  else if target.name = upward then target.directory.above
  else target.name :: target.directory

/-- Where a path begins. -/
def beginning (path : Text) : Location :=
  if isAbsolute path then [rootName] else []

/-- Follows a path up to its last name. -/
def locate (disk : Disk) (path : Text) : Except FileError Target :=
  if path.contains '\x00' then .error .zeroInPath
  else if path = [] then .error .notFound
  else if longestPath < Text.byteLength path then .error .nameTooLong
  else if path.all (· = '/') then .ok ⟨[rootName], sameward, true⟩
  else
    let names := Text.splitOn '/' (Text.trimEnd (· == '/') path)
    (disk.follow (beginning path) names.dropLast).map fun directory =>
      ⟨directory, names.getLastD [], path.getLast? = some '/'⟩

/-! ### Operations -/

/-- Whether the name of a target is longer than names can be. -/
def Target.isTooLong (target : Target) : Bool :=
  longestName < Text.byteLength target.name

/-- What a path leads to. -/
def find (disk : Disk) (path : Text) : Except FileError Entry := do
  let target ← disk.locate path
  if target.isTooLong then .error .nameTooLong
  else
    match disk.at? target.place with
    | none => .error .notFound
    | some (.file content) => if target.slashed then .error .notDirectory else .ok (.file content)
    | some .directory => .ok .directory

/-- The content of the file that a path leads to. -/
def read (disk : Disk) (path : Text) : Except FileError Bytes :=
  match disk.find path with
  | .error error => .error error
  | .ok .directory => .error .isDirectory
  | .ok (.file content) => .ok content

/-- The place of the file that is written under a path: one that is there, or a new one in a
directory that is there. -/
def writable (disk : Disk) (path : Text) : Except FileError Location := do
  let target ← disk.locate path
  if target.isDots || target.slashed then .error .isDirectory
  else if target.isTooLong then .error .nameTooLong
  else if disk.at? target.place = some .directory then .error .isDirectory
  else .ok target.place

/-- Writes a file in place of an earlier one. -/
def write (disk : Disk) (path : Text) (content : Bytes) : Except FileError Unit × Disk :=
  match disk.writable path with
  | .error error => (.error error, disk)
  | .ok place => (.ok (), disk.put place (.file content))

/-- The place of what is made under a path where nothing is. -/
def vacant (disk : Disk) (path : Text) : Except FileError Location := do
  let target ← disk.locate path
  if target.isDots then .error .alreadyThere
  else if target.isTooLong then .error .nameTooLong
  else if (disk.at? target.place).isSome then .error .alreadyThere
  else .ok target.place

/-- The place of the file that is made under a path where nothing is. -/
def creatable (disk : Disk) (path : Text) : Except FileError Location := do
  let _ ← disk.vacant path
  disk.writable path

/-- Makes an empty file where nothing is. -/
def create (disk : Disk) (path : Text) : Except FileError Unit × Disk :=
  match disk.creatable path with
  | .error error => (.error error, disk)
  | .ok place => (.ok (), disk.put place (.file []))

/-- The disk with a file moved, in place of an earlier one. -/
def moved (disk : Disk) (source target : Text) : Except FileError Disk := do
  let content ← disk.read source
  let origin ← disk.locate source
  let place ← disk.writable target
  .ok ((disk.erase origin.place).put place (.file content))

/-- Moves a file, in place of an earlier one. -/
def move (disk : Disk) (source target : Text) : Except FileError Unit × Disk :=
  match disk.moved source target with
  | .error error => (.error error, disk)
  | .ok disk => (.ok (), disk)

/-- Removes a file, if there is one. -/
def remove (disk : Disk) (path : Text) : Disk :=
  match disk.read path, disk.locate path with
  | .ok _, .ok target => disk.erase target.place
  | _, _ => disk

/-- Makes a directory in one that is there. -/
def makeDirectory (disk : Disk) (path : Text) : Except FileError Unit × Disk :=
  match disk.vacant path with
  | .error error => (.error error, disk)
  | .ok place => (.ok (), disk.put place .directory)

/-! ### States -/

/-- The disk with the directories above a place. -/
def withAbove (disk : Disk) : Location → Disk
  | [] => disk
  | _ :: place =>
    if (disk.at? place).isSome then disk else (disk.withAbove place).put place .directory

/-- The disk with an entry and the directories that hold it. -/
def place (disk : Disk) (path : Text) (entry : Entry) : Disk :=
  let names := (pathNames path).reverse
  (disk.withAbove names).put names entry

/-- Whether a place is in the given one, directly or not, but not the same. -/
def isBelow (directory place : Location) : Bool :=
  place ≠ directory && directory.isSuffixOf place

/-- Whether nothing is in a directory. -/
def isVacantDirectory (disk : Disk) (directory : Location) : Bool :=
  disk.entries.all fun entry => !isBelow directory entry.1

/-- What is in the working directory and was not there before with the same content, by path. An
empty directory has a slash behind its path; one that is not empty is not named. -/
def changes (before after : Disk) : List (Text × Option Bytes) :=
  let found := after.entries.filterMap fun (place, entry) =>
    if place.contains upward || place.contains rootName || before.at? place = some entry then none
    else
      match entry with
      | .file content => some (place.path, some content)
      | .directory =>
        if after.isVacantDirectory place then some (place.path ++ ['/'], none) else none
  found.mergeSort fun a b => !decide (b.1 < a.1)

end Disk

end Relabel
