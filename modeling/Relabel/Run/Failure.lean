/-
**Why a run fails.**

* `Failure`: the causes.
* `Failure.kind`, `Failure.message`: what a user is told.
-/

import Relabel.Files.Error
import Relabel.Script.Session
import Relabel.Token.Kind

namespace Relabel

/-- Why a run fails. -/
inductive Failure where
  /-- The beginning of generated names cannot begin a name. -/
  | nameStart (kind : Kind) (text : Text)
  | scriptsDirectory (text : Text)
  | encodingOption (label : Text)
  | baseUrl (text : Text)
  /-- Two files of the output would have the same name. -/
  | nameClash (name : Text)
  /-- A document was not named. -/
  | noDocument (role : Text)
  /-- There is no file at the path of a document. -/
  | noFile (path : Text)
  | unreadable (path : Text) (error : FileError)
  /-- A document is to be read in an encoding that is not known. -/
  | unknownEncoding (label : Text)
  /-- The content of a file is not text in an encoding. -/
  | undecodable (path encoding : Text)
  | makingScripts (path : Text) (error : FileError)
  | makingOutput (path : Text) (error : FileError)
  | unwritable (path : Text) (error : FileError)
  /-- Any other operation on files. -/
  | file (error : FileError)
  | fetch (error : FetchFailure)
  deriving DecidableEq, Repr

/-- Who has to mend what made a run fail. -/
inductive FailureKind where
  | malformedInput
  | invalidOption
  | io
  | network
  deriving DecidableEq, Repr

/-- What messages about a kind of failure begin with. -/
def FailureKind.label : FailureKind → Text
  | .malformedInput => "malformed input"
  | .invalidOption => "invalid option"
  | .io => "I/O error"
  | .network => "network error"

namespace Failure

/-- The kind of a failure. -/
def kind : Failure → FailureKind
  | .nameStart .. | .scriptsDirectory _ | .encodingOption _ | .baseUrl _ | .nameClash _
  | .noDocument _ => .invalidOption
  | .noFile _ | .unreadable .. | .unknownEncoding _ | .undecodable .. => .malformedInput
  | .makingScripts .. | .makingOutput .. | .unwritable .. | .file _ => .io
  | .fetch _ => .network

/-- A text in quotation marks, as it is. -/
def marked (text : Text) : Text :=
  ['"'] ++ text ++ ['"']

/-- What is said of the cause. -/
def detail : Failure → Text
  | .nameStart kind text =>
    kind.word ++ " prefix " ++ marked text ++ " is not a valid CSS identifier start"
  | .scriptsDirectory text => "scripts directory " ++ marked text ++ " must be a relative path"
  | .encodingOption label => "unknown encoding " ++ marked label
  | .baseUrl text => "base URL " ++ marked text ++ " must be an absolute http(s) URL"
  | .nameClash name => "output file name " ++ marked name ++ " is used more than once"
  | .noDocument role => "missing " ++ role ++ " input document"
  | .noFile path => "input file does not exist: " ++ marked path
  | .unreadable path error => "unable to read " ++ path ++ ": " ++ error.message
  | .unknownEncoding label => "unknown encoding " ++ marked label
  | .undecodable path encoding => path ++ " is not valid " ++ encoding
  | .makingScripts path error =>
    "unable to create scripts directory " ++ path ++ ": " ++ error.message
  | .makingOutput path error =>
    "unable to create output directory " ++ path ++ ": " ++ error.message
  | .unwritable path error => "unable to write " ++ path ++ ": " ++ error.message
  | .file error => error.message
  | .fetch error => error.message

/-- What a user is told. -/
def message (failure : Failure) : Text :=
  failure.kind.label ++ ": " ++ failure.detail

end Failure

end Relabel
