/-
**Reading documents.**

* `textOf`: the text of the content of a file.
* `loadDocument`: the text of a file.
-/

import Relabel.Encoding.Label
import Relabel.Files.FileSystem
import Relabel.Run.Failure

namespace Relabel

/-- The text of the content of the file at `path`. The label names the encoding, which is UTF-8 if
there is none. Bytes that are not text in it make the document useless; they are never replaced. -/
def textOf [LegacyEncodings] (path : Text) (label : Option Text) (content : Bytes) : Except Failure Text :=
  match label.elim (some Encoding.utf8) Encoding.ofLabel?, label with
  | none, label => .error (.unknownEncoding (label.getD []))
  | some encoding, _ =>
    match decodeMarked encoding content with
    | (_, some text) => .ok text
    | (used, none) => .error (.undecodable path used.name)

/-- The text of the file that a path leads to. -/
def loadDocument [LegacyEncodings] {m : Type → Type} [FileSystem m] (path : Text) (label : Option Text) :
    m (Except Failure Text) := do
  match ← readFile path with
  | .error error => pure (.error (.unreadable path error))
  | .ok content => pure (textOf path label content)

end Relabel
