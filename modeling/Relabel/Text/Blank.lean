/-
**White space and words.**

`isBlank` is the White_Space property of Unicode. Words are the maximal runs of other characters.

* `Text.words`: the words of a text, in order.
* `Text.locatedWords`: the same words with the byte ranges they occupy.
* `Text.strip`: without white space at both ends.
-/

import Relabel.Text.Slice

namespace Relabel

/-- The white space characters: 25 code points, the ideographic space among them, but neither the
zero width space nor the byte order mark. -/
def isBlank (c : Char) : Bool :=
  let n := c.toNat
  (0x09 ≤ n && n ≤ 0x0D) || n == 0x20 || n == 0x85 || n == 0xA0 || n == 0x1680
    || (0x2000 ≤ n && n ≤ 0x200A) || n == 0x2028 || n == 0x2029 || n == 0x202F || n == 0x205F
    || n == 0x3000

namespace Text

/-- The words of a text: what lies between white space, empty pieces left out. -/
def words (text : Text) : List Text :=
  (splitWhen isBlank text).filter (· ≠ [])

/-- Without white space at either end. -/
def strip (text : Text) : Text :=
  trim isBlank text

/-- A word and the byte offset of its first character. -/
structure Word where
  start : Nat
  text : Text
  deriving DecidableEq, Repr

/-- The byte offset just behind the word. -/
def Word.stop (word : Word) : Nat :=
  word.start + byteLength word.text

/-- The words of a text that begins at byte `offset`. `begun` holds the word that is being read:
its offset and its characters, last one first. -/
def wordsFrom (begun : Option (Nat × Text)) (offset : Nat) : Text → List Word
  | [] =>
    match begun with
    | some (start, reversed) => [⟨start, reversed.reverse⟩]
    | none => []
  | c :: rest =>
    match isBlank c, begun with
    | true, some (start, reversed) =>
      ⟨start, reversed.reverse⟩ :: wordsFrom none (offset + c.utf8Size) rest
    | true, none => wordsFrom none (offset + c.utf8Size) rest
    | false, some (start, reversed) =>
      wordsFrom (some (start, c :: reversed)) (offset + c.utf8Size) rest
    | false, none => wordsFrom (some (offset, [c])) (offset + c.utf8Size) rest

/-- The words of a text with their places. -/
def locatedWords (text : Text) : List Word :=
  wordsFrom none 0 text

end Text

end Relabel
