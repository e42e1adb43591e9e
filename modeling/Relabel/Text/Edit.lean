/-
**Edits of a text.**

An edit replaces the bytes from `start` to `stop`. `applyEdits` applies a list of edits at once: it
goes through them in order of their starts (edits with the same start keep their order), skips each
one that starts before the end of the last applied edit or stops beyond the end of the text, and
keeps everything between the applied edits. The result is `none` if an edit that is not skipped cuts
a character or starts beyond the end.
-/

import Relabel.Text.Slice

namespace Relabel.Text

/-- The replacement of one byte range. -/
structure Edit where
  start : Nat
  stop : Nat
  text : Text
  deriving DecidableEq, Repr

/-- Applies edits that are in order of their starts to a text of `size` bytes. `cursor` is the end
of the last applied edit, `rest` what follows it. An edit with `stop < start` moves the cursor
backwards, and what lies between is then repeated. -/
def applyFrom (whole : Text) (size cursor : Nat) (rest : Text) : List Edit → Option Text
  | [] => some rest
  | edit :: edits =>
    if edit.start < cursor || size < edit.stop then applyFrom whole size cursor rest edits
    else do
      let (kept, behind) ← cutAt? (edit.start - cursor) rest
      let (_, rest) ←
        if edit.start ≤ edit.stop then cutAt? (edit.stop - edit.start) behind
        else cutAt? edit.stop whole
      let tail ← applyFrom whole size edit.stop rest edits
      some (kept ++ edit.text ++ tail)

/-- The text with all edits applied. -/
def applyEdits (text : Text) (edits : List Edit) : Option Text :=
  applyFrom text (byteLength text) 0 text (edits.mergeSort fun a b => a.start ≤ b.start)

end Relabel.Text
