/-
**Byte offsets.**

Places in a text are counted in the bytes of its UTF-8 form. An offset is usable only where a
character begins or the text ends; the functions here answer `none` everywhere else.

* `Text.byteLength`: the length in bytes.
* `Text.cutAt?`: the two parts on either side of an offset.
* `Text.slice?`: the part between two offsets.
-/

import Relabel.Text.Basic

namespace Relabel.Text

/-- The number of bytes of the UTF-8 form. -/
def byteLength (text : Text) : Nat :=
  text.foldr (fun c size => c.utf8Size + size) 0

/-- Walks `offset` bytes into the text, keeping what it passed, last character first. -/
def cutAtFrom? (passed : Text) : (offset : Nat) → Text → Option (Text × Text)
  | 0, text => some (passed.reverse, text)
  | _ + 1, [] => none
  | offset + 1, c :: rest =>
    if c.utf8Size ≤ offset + 1 then cutAtFrom? (c :: passed) (offset + 1 - c.utf8Size) rest
    else none

/-- The parts before and after a byte offset, unless it is inside a character or beyond the
end. -/
def cutAt? (offset : Nat) (text : Text) : Option (Text × Text) :=
  cutAtFrom? [] offset text

/-- The part between two byte offsets. -/
def slice? (text : Text) (start stop : Nat) : Option Text := do
  if stop < start then none
  else
    let (_, rest) ← cutAt? start text
    let (part, _) ← cutAt? (stop - start) rest
    some part

end Relabel.Text
