/-
**Local copies of scripts.**

Every script that a document refers to is fetched once and stored under the output directory, and
the references to it are replaced by references to the copy. A script that cannot be fetched or
stored keeps its references, and the others are not affected.

* `pendingScripts`: the scripts of a document, by their addresses without fragments.
* `storeScript`, `storeScripts`: fetches and stores scripts in turn.
* `localizeScriptsBy`: the document with references to the copies.
-/

import Relabel.Files.FileSystem
import Relabel.OrderedMap
import Relabel.Run.Failure
import Relabel.Run.Log
import Relabel.Scan.Element
import Relabel.Script.FileName
import Relabel.Text.Quoted
import Relabel.Url.Reference

namespace Relabel

/-! ### What is to be done -/

/-- What is at each address. -/
abbrev Fetch := Url → Except FetchFailure Bytes

/-- How the content at an address is asked for. -/
abbrev Fetcher (m : Type → Type) := Url → m (Except FetchFailure Bytes)

/-- What every request ends in where no server can be reached. The reason does not show the user of
the address. -/
def noServer {m : Type → Type} [Monad m] (_ : Session) : Fetcher m := fun url =>
  pure (.error (.request url.render
    ("error sending request for url (" ++ url.withoutUser.render ++ ")")))

/-- What references to the same script have in common. -/
def scriptAddress (url : Url) : Text :=
  url.withoutFragment.render

/-- The references to scripts in a document. -/
def scriptReferences (html : Text) : List Text :=
  (scriptAttributes.cut html).values

/-- The scripts of a document in order of their keys, each with the address that is found first. -/
def pendingScripts [InternationalNames] (base : Option Url) (html : Text) : OrderedMap Url :=
  ((scriptReferences html).filterMap (resolve? base)).foldl
    (fun pending url => pending.insertNew (scriptAddress url) url) OrderedMap.empty

/-- The references that lead to no script that can be fetched. -/
def skippedReferences [InternationalNames] (base : Option Url) (html : Text) : List Text :=
  (scriptReferences html).filter fun reference => (resolve? base reference).isNone

/-! ### What is done -/

/-- A script that has a local copy. -/
structure StoredScript where
  /-- The reference to the copy. -/
  path : Text
  /-- The number of its bytes. -/
  size : Nat
  deriving DecidableEq, Repr

/-- Why a script has no local copy. -/
inductive ScriptLoss where
  | notFetched (error : FetchFailure)
  | notStored (name : Text) (error : FileError)
  deriving DecidableEq, Repr

/-- What is said of a loss. -/
def ScriptLoss.message : ScriptLoss → Text
  | .notFetched error => error.message
  | .notStored _ error => error.message

/-- What became of a script. -/
structure Attempt where
  key : Text
  url : Url
  result : Except ScriptLoss StoredScript

/-- The script with its copy, if it has one. -/
def Attempt.stored? (attempt : Attempt) : Option (Text × StoredScript) :=
  match attempt.result with
  | .ok stored => some (attempt.key, stored)
  | .error _ => none

/-- The script with the reason why it has no copy, if it has none. -/
def Attempt.lost? (attempt : Attempt) : Option (Text × ScriptLoss) :=
  match attempt.result with
  | .ok _ => none
  | .error loss => some (attempt.key, loss)

/-- What became of the scripts of a document. -/
structure Relocation where
  /-- The document with the references to the copies. -/
  html : Text
  attempts : List Attempt
  /-- The references that are left alone. -/
  skipped : List Text

namespace Relocation

/-- The scripts that have a copy. -/
def stored (relocation : Relocation) : List (Text × StoredScript) :=
  relocation.attempts.filterMap Attempt.stored?

/-- The scripts that have none. -/
def lost (relocation : Relocation) : List (Text × ScriptLoss) :=
  relocation.attempts.filterMap Attempt.lost?

/-- Whether every script has a copy. -/
def isComplete (relocation : Relocation) : Bool :=
  relocation.lost.isEmpty

end Relocation

/-! ### Doing it -/

section Effects

variable {m : Type → Type} [FileSystem m] [InternationalNames]

/-- Fetches a script and stores it in a directory, under a name that is not taken. `shown` is the
directory as references name it. The name stays taken if the script cannot be stored. -/
def storeScript (ask : Fetcher m) (directory shown : Text) (taken : NamesTaken) (key : Text)
    (url : Url) : m (Attempt × NamesTaken) := do
  match ← ask url with
  | .error error => pure (⟨key, url, .error (.notFetched error)⟩, taken)
  | .ok content =>
    let (name, taken) := taken.handOut (scriptName url)
    match ← replaceFile directory name content with
    | .error error => pure (⟨key, url, .error (.notStored name error)⟩, taken)
    | .ok () => pure (⟨key, url, .ok ⟨referenceTo shown name, content.length⟩⟩, taken)

/-- Fetches scripts in turn and stores them in a directory. -/
def storeScripts (ask : Fetcher m) (directory shown : Text) (taken : NamesTaken) :
    (scripts : List (Text × Url)) → m (List Attempt)
  | [] => pure []
  | (key, url) :: scripts => do
    let (attempt, taken) ← storeScript ask directory shown taken key url
    let attempts ← storeScripts ask directory shown taken scripts
    pure (attempt :: attempts)

/-- The document with the references to stored scripts replaced. -/
def redirectScripts (base : Option Url) (paths : OrderedMap Text) (html : Text) : Text :=
  (scriptAttributes.cut html).substitute fun found => do
    let url ← resolve? base found.value
    paths.get? (scriptAddress url)

/-- Where the copies of scripts are kept, and what references to them begin with. -/
structure ScriptPlace where
  /-- The directory of all output. -/
  output : Text
  /-- The directory of scripts below it. -/
  directory : Text
  deriving DecidableEq, Repr

/-- The path of the directory of scripts. -/
def ScriptPlace.path (place : ScriptPlace) : Text :=
  joinPath place.output (bareDirectory place.directory)

/-- The paths of the scripts that have been stored, by their keys. -/
def storedPaths (attempts : List Attempt) : OrderedMap Text :=
  OrderedMap.ofList
    ((attempts.filterMap Attempt.stored?).map fun (key, stored) => (key, stored.path))

/-- Makes local copies of the scripts of a document. It fails only if there are scripts but the
directory for them cannot be made. -/
def localizeScriptsBy (ask : Fetcher m) (base : Option Url) (place : ScriptPlace) (html : Text) :
    m (Except Failure Relocation) :=
  let pending := pendingScripts base html
  let skipped := skippedReferences base html
  if pending.isEmpty then pure (.ok ⟨html, [], skipped⟩)
  else do
    match ← makeDirectories place.path with
    | .error error => pure (.error (.makingScripts place.path error))
    | .ok () =>
      let attempts ← storeScripts ask place.path place.directory {} pending.entries
      pure (.ok ⟨redirectScripts base (storedPaths attempts) html, attempts, skipped⟩)

/-- Makes local copies where it is settled what is at each address. -/
def localizeScripts (fetch : Fetch) (base : Option Url) (place : ScriptPlace) (html : Text) :
    m (Except Failure Relocation) :=
  localizeScriptsBy (fun url => pure (fetch url)) base place html

end Effects

/-! ### Log -/

/-- The log line about what became of a script. -/
def Attempt.line (attempt : Attempt) : LogLine :=
  match attempt.result with
  | .ok stored => ⟨.info, "Relocated " ++ attempt.key ++ " to " ++ stored.path⟩
  | .error (.notFetched error) =>
    ⟨.warn, "Keeping remote script " ++ attempt.key ++ ": " ++ error.message⟩
  | .error (.notStored name error) =>
    ⟨.warn, "Unable to store script " ++ attempt.key ++ " as " ++ name ++ ": " ++ error.message⟩

/-- The log lines about a script: its request, and what became of it. -/
def Attempt.lines (attempt : Attempt) : List LogLine :=
  connectionLines attempt.url ++ [attempt.line]

/-- The log lines about the references that are left alone. -/
def skippedLines (references : List Text) : List LogLine :=
  references.map fun reference =>
    ⟨.debug, "Leaving script reference " ++ Text.quoted reference ++ " as it is"⟩

/-- The log lines about a relocation. -/
def Relocation.lines (relocation : Relocation) : List LogLine :=
  skippedLines relocation.skipped ++ relocation.attempts.flatMap Attempt.lines
    ++ [⟨.info, "Relocated " ++ Text.decimal relocation.stored.length ++ " scripts, "
      ++ Text.decimal relocation.lost.length ++ " failed, "
      ++ Text.decimal relocation.skipped.length ++ " skipped"⟩]

end Relabel
