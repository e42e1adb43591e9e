/-
**Writing the output.**

The output of a run is a directory with the two documents and the file of their renamings.

* `nameClash?`: a name that two of the files would have.
* `writeOutput`: makes the directory and writes the files.
-/

import Relabel.Document.Json
import Relabel.Run.Process

namespace Relabel

/-- The name of the file of the renamings. -/
def mappingName : Text := "mapping.json"

/-- The names of the documents in the output. -/
structure OutputNames where
  html : Text
  css : Text
  deriving DecidableEq, Repr

/-- Whether two names differ at most in the case of their ASCII letters. -/
def isSameName (a b : Text) : Bool :=
  a.map Char.toLower = b.map Char.toLower

/-- A name that two of the files would have. -/
def nameClash? (names : OutputNames) : Option Text :=
  if isSameName names.html names.css then some names.html
  else [names.html, names.css].find? (isSameName mappingName)

/-- The paths of the files of the output. -/
structure OutputPaths where
  html : Text
  css : Text
  mapping : Text
  deriving DecidableEq, Repr

/-- The paths of the files in a directory. -/
def outputPaths (directory : Text) (names : OutputNames) : OutputPaths :=
  ⟨joinPath directory names.html, joinPath directory names.css, joinPath directory mappingName⟩

/-- The files of the output, in the order in which they are written. -/
def outputFiles (paths : OutputPaths) (outcome : Outcome) : List (Text × Text) :=
  [(paths.html, outcome.pair.html), (paths.css, outcome.pair.css),
    (paths.mapping, renamingsDocument outcome.names)]

/-- How far the writing of some files came. -/
structure Written where
  /-- The paths of the files that have been written. -/
  paths : List Text
  /-- Why the next one could not be written. -/
  failure : Option Failure

section Effects

variable {m : Type → Type} [FileSystem m]

/-- Writes files in turn, up to the first that cannot be written. -/
def writeAll : (files : List (Text × Text)) → m Written
  | [] => pure ⟨[], none⟩
  | (path, text) :: files => do
    match ← writeFile path (Utf8.encode text) with
    | .error error => pure ⟨[], some (.unwritable path error)⟩
    | .ok () =>
      let written ← writeAll files
      pure ⟨path :: written.paths, written.failure⟩

/-- Makes the directory of the output and writes the files. Nothing is touched if two files would
have the same name. -/
def writeOutput (directory : Text) (names : OutputNames) (outcome : Outcome) : m Written := do
  match nameClash? names with
  | some name => pure ⟨[], some (.nameClash name)⟩
  | none =>
    match ← makeDirectories directory with
    | .error error => pure ⟨[], some (.makingOutput directory error)⟩
    | .ok () => writeAll (outputFiles (outputPaths directory names) outcome)

end Effects

/-- The log lines about the files that have been written. -/
def Written.lines (written : Written) : List LogLine :=
  written.paths.map fun path => ⟨.info, "Wrote " ++ path⟩

end Relabel
