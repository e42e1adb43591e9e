/-
**Directions of writing in names of hosts.**

A name in which letters of scripts that run from right to left meet other letters could be shown in
an order in which it reads as another name. Therefore every label of a name with such letters begins
and ends with a letter (or ends with a digit) and holds no letters of the other direction.

* `Direction.ofChar`: the direction of a character.
* `isSteady`: whether a label keeps its direction.
* `keepsDirections`: whether the labels of a name may stand together.
-/

import Relabel.Text.Quoted

namespace Relabel

/-- The direction in which a character is written. -/
inductive Direction where
  | left
  | right
  /-- A digit in either direction. -/
  | digit
  /-- A digit of scripts that run from right to left. -/
  | arabicDigit
  /-- A sign that takes the direction of its neighbours. -/
  | neutral
  /-- A mark on the character before it. -/
  | mark
  deriving DecidableEq, Repr

/-- The letters and signs of scripts that run from right to left. -/
def rightRanges : Ranges :=
  [(0x5BE, 0x5BE), (0x5C0, 0x5C0), (0x5C3, 0x5C3), (0x5C6, 0x5C6), (0x5C8, 0x5FF), (0x608, 0x608),
   (0x60B, 0x60B), (0x60D, 0x60D), (0x61B, 0x64A), (0x66D, 0x66F), (0x671, 0x6D5), (0x6E5, 0x6E6),
   (0x6EE, 0x6EF), (0x6FA, 0x710), (0x712, 0x72F), (0x74B, 0x7A5), (0x7B1, 0x7EA), (0x7F4, 0x7F5),
   (0x7FA, 0x7FC), (0x7FE, 0x815), (0x81A, 0x81A), (0x824, 0x824), (0x828, 0x828), (0x82E, 0x858),
   (0x85C, 0x88F), (0x892, 0x896), (0x8A0, 0x8C9), (0xFB1D, 0xFB1D), (0xFB1F, 0xFB28),
   (0xFB2A, 0xFD3D), (0xFD50, 0xFDCE), (0xFDF0, 0xFDFC), (0xFE70, 0xFEFE), (0x10800, 0x1091E),
   (0x10920, 0x10A00), (0x10A04, 0x10A04), (0x10A07, 0x10A0B), (0x10A10, 0x10A37),
   (0x10A3B, 0x10A3E), (0x10A40, 0x10AE4), (0x10AE7, 0x10B38), (0x10B40, 0x10D23),
   (0x10D28, 0x10D2F), (0x10D3A, 0x10D68), (0x10D6F, 0x10E5F), (0x10E7F, 0x10EAA),
   (0x10EAD, 0x10EF7), (0x10F00, 0x10F45), (0x10F51, 0x10F81), (0x10F86, 0x10FFF),
   (0x1E800, 0x1E8CF), (0x1E8D7, 0x1E943), (0x1E94B, 0x1EEEF), (0x1EEF2, 0x1EFFF)]

/-- The digits of scripts that run from right to left. -/
def arabicDigitRanges : Ranges :=
  [(0x600, 0x605), (0x660, 0x669), (0x66B, 0x66C), (0x6DD, 0x6DD), (0x890, 0x891), (0x8E2, 0x8E2),
   (0x10D30, 0x10D39), (0x10E60, 0x10E7E)]

/-- The direction of a character. -/
def Direction.ofChar (c : Char) : Direction :=
  if c.toNat < 0x80 then
    if c.isAlpha then .left else if c.isDigit then .digit else .neutral
  else if arabicDigitRanges.has c then .arabicDigit
  else if rightRanges.has c then .right
  else if shapelessRanges.has c then .mark
  else .left

/-- Whether characters with given directions begin and end as a label must, and hold nothing of the
other direction. -/
def isSteady (directions : List Direction) : Bool :=
  let final := directions.reverse.find? (· != .mark)
  match directions.head? with
  | none => true
  | some .left =>
    directions.all (fun direction => direction != .right && direction != .arabicDigit)
      && (final == some .left || final == some .digit)
  | some .right =>
    directions.all (· != .left)
      && !(directions.contains .digit && directions.contains .arabicDigit)
      && (final == some .right || final == some .digit || final == some .arabicDigit)
  | some _ => false

/-- Whether the labels of a name may stand together: nothing in them runs from right to left, or
each of them is steady. -/
def keepsDirections (labels : List Text) : Bool :=
  let directions := labels.map (·.map Direction.ofChar)
  directions.all (fun label => label.all fun direction =>
    direction != .right && direction != .arabicDigit)
    || directions.all isSteady

end Relabel
