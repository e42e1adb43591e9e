/-
**Renamings as JSON.**

Texts are quoted as JSON demands and no further: quotes, backslashes and the control characters
before the space are escaped. Members come in order of their names.

* `Json.quoted`: a text as a JSON string.
* `Json.object`: a renaming as an object, on one line or with a line for each member.
* `renamingsDocument`: the two renamings of a run.
-/

import Relabel.Substitution.Stylesheet

namespace Relabel

namespace Json

/-! ### Strings -/

/-- The form of a character in a string. -/
def escapeChar (c : Char) : Text :=
  if c = '"' then ['\\', '"']
  else if c = '\\' then ['\\', '\\']
  else if c = '\n' then ['\\', 'n']
  else if c = '\r' then ['\\', 'r']
  else if c = '\t' then ['\\', 't']
  else if c = '\x08' then ['\\', 'b']
  else if c = '\x0c' then ['\\', 'f']
  else if c.toNat < 0x20 then ['\\', 'u'] ++ Text.padZeros 4 (Text.hex c.toNat)
  else [c]

/-- A text as a string. -/
def quoted (text : Text) : Text :=
  ['"'] ++ text.flatMap escapeChar ++ ['"']

/-! ### Objects -/

/-- An object on one line, with the given texts of the values. -/
def compact (members : List (Text × Text)) : Text :=
  ['\x7b'] ++ Text.join "," (members.map fun (name, value) => quoted name ++ [':'] ++ value)
    ++ ['\x7d']

/-- An object with a line for each member, with the given texts of the values. `margin` stands in
front of the closing brace. -/
def indented (margin : Text) (members : List (Text × Text)) : Text :=
  let line (member : Text × Text) := margin ++ "  " ++ quoted member.1 ++ ": " ++ member.2
  match members with
  | [] => ['\x7b', '\x7d']
  | members =>
    ['\x7b', '\n'] ++ Text.join ",\n" (members.map line) ++ ['\n'] ++ margin ++ ['\x7d']

/-- The members of a renaming. -/
def members (names : Renaming) : List (Text × Text) :=
  names.entries.map fun (token, name) => (token, quoted name)

end Json

/-- The renamings of a run as the text of a file. -/
def renamingsDocument (names : Renamings) : Text :=
  Json.indented [] [("classes", Json.indented "  " (Json.members names.classes)),
    ("ids", Json.indented "  " (Json.members names.ids))] ++ ['\n']

end Relabel
