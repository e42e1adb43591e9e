/-
**File names of scripts.**

A script keeps the last segment of its address as its name if that is a plain file name with an
extension. Otherwise its name is made from the digest of the address. Names that differ in case only
are taken to be the same; a name that is taken gets a number in front of its extension.

* `scriptName`: the name of the script at an address.
* `numberedFile`: a name with a number in front of its extension.
* `NamesTaken.handOut`: hands out a name that is not taken.
* `isPlainDirectory`: whether a directory may hold scripts.
-/

import Relabel.Digest.Sha256
import Relabel.Files.Path
import Relabel.Naming.Unused
import Relabel.Text.LowerCase
import Relabel.Text.Slice
import Relabel.Url.Basic

namespace Relabel

/-! ### One script -/

/-- Whether a character may occur in the name of a script. -/
def isFileChar (c : Char) : Bool :=
  c.isAlphanum || c == '.' || c == '_' || c == '-'

/-- Whether a text is a plain file name with an extension. -/
def isPlainFile (name : Text) : Bool :=
  match Text.cutLast '.' name with
  | none => false
  | some (stem, extension) =>
    Text.byteLength name ≤ longestName && name.head? ≠ some '.' && name.all isFileChar
      && stem ≠ [] && extension ≠ [] && extension.all Char.isAlphanum

/-- The name made from the digest of an address. -/
def digestName (url : Url) : Text :=
  "script_" ++ (Sha256.hexDigest (Utf8.encode url.render)).take 12 ++ ".js"

/-- The name of the script at an address. -/
def scriptName (url : Url) : Text :=
  match url.lastSegment?.bind fun segment => Utf8.decode? (Url.unescape segment) with
  | some name => if isPlainFile name then name else digestName url
  | none => digestName url

/-! ### All scripts of a run -/

/-- A name with a number in front of its extension; the name itself for the number zero. -/
def numberedFile (name : Text) (k : Nat) : Text :=
  if k = 0 then name
  else
    match Text.cutLast '.' name with
    | some (stem, extension) => stem ++ ['_'] ++ Text.decimal k ++ ['.'] ++ extension
    | none => name ++ ['_'] ++ Text.decimal k

/-- The names that have been handed out, in small letters. -/
structure NamesTaken where
  lowered : List Text := []
  deriving DecidableEq, Repr

namespace NamesTaken

/-- Whether a name is taken. -/
def has (taken : NamesTaken) (name : Text) : Bool :=
  taken.lowered.contains (Text.lowerCase name)

/-- The first variant of a name that is not taken. -/
def choose (taken : NamesTaken) (name : Text) : Text :=
  firstUnused taken.has (numberedFile name) 0 taken.lowered.length

/-- The names taken when one more has been handed out. -/
def add (taken : NamesTaken) (name : Text) : NamesTaken :=
  ⟨Text.lowerCase name :: taken.lowered⟩

/-- Hands out the first variant of a name that is not taken. -/
def handOut (taken : NamesTaken) (name : Text) : Text × NamesTaken :=
  let chosen := taken.choose name
  (chosen, taken.add chosen)

/-- Hands out a variant of each name in turn. -/
def handOutAll (taken : NamesTaken) : List Text → List Text
  | [] => []
  | name :: names =>
    let (chosen, taken) := taken.handOut name
    chosen :: handOutAll taken names

end NamesTaken

/-! ### Directories -/

/-- Whether a text names a directory below another one, in characters that need no quoting. -/
def isPlainDirectory (directory : Text) : Bool :=
  directory ≠ [] && directory.head? ≠ some '/'
    && directory.all (fun c => isFileChar c || c == '/')
    && !(Text.splitOn '/' directory).contains ".."

/-- A directory without slashes at its ends. -/
def bareDirectory (directory : Text) : Text :=
  Text.trim (· == '/') directory

/-- The reference to a file in a directory. -/
def referenceTo (directory name : Text) : Text :=
  match bareDirectory directory with
  | [] => name
  | directory => directory ++ ['/'] ++ name

end Relabel
