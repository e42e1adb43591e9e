/-
**Kinds of tokens and modes of renaming.**
-/

import Relabel.Text.Blank
import Relabel.Text.LowerCase

namespace Relabel

/-- What a token names: a class of elements, or a single element. -/
inductive Kind where
  | cls
  | id
  deriving DecidableEq, Repr

/-- The kind as it appears in option messages. -/
def Kind.word : Kind → Text
  | .cls => "class"
  | .id => "id"

/-- The kind as it appears in log lines. -/
def Kind.label : Kind → Text
  | .cls => "Class"
  | .id => "Id"

/-- Which tokens are renamed. -/
inductive Mode where
  /-- Only tokens that consist of a GUID or of 32 hexadecimal digits. -/
  | strict
  /-- Every token that looks like a hash. -/
  | lenient
  deriving DecidableEq, Repr

/-- The name of a mode. -/
def Mode.word : Mode → Text
  | .strict => "strict"
  | .lenient => "default"

/-- The mode with a given name, up to case and white space around it. -/
def Mode.ofText? (text : Text) : Option Mode :=
  let name := Text.lowerCase (Text.strip text)
  if name = "strict".toList || name = "guid".toList then some .strict
  else if name = "default".toList || name = "opaque".toList then some .lenient
  else none

/-- What is said of a text that names no mode. -/
def Mode.refusal (text : Text) : Text :=
  "Invalid rename mode '" ++ text ++ "'. Use: strict, default"

end Relabel
