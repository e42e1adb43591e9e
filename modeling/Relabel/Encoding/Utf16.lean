/-
**UTF-16.**

Characters beyond the first 65536 are written as two units, a high surrogate and then a low one. A
surrogate that stands alone, or an odd byte at the end, is not well formed.

* `Utf16.units`: the units of a text.
* `Utf16.encode`, `Utf16.decode?`: to and from bytes in either byte order.
-/

import Relabel.Encoding.Utf8

namespace Relabel.Utf16

/-- Which byte of a unit comes first. -/
inductive ByteOrder where
  | littleEndian
  | bigEndian
  deriving DecidableEq, Repr

/-- The units of one character. -/
def charUnits (c : Char) : List Nat :=
  if c.toNat < 0x10000 then [c.toNat]
  else [0xD800 + (c.toNat - 0x10000) / 0x400, 0xDC00 + (c.toNat - 0x10000) % 0x400]

/-- The units of a text. -/
def units (text : Text) : List Nat :=
  text.flatMap charUnits

/-- The two bytes of a unit. -/
def unitBytes (order : ByteOrder) (unit : Nat) : Bytes :=
  let high := (unit / 0x100).toUInt8
  let low := (unit % 0x100).toUInt8
  match order with
  | .littleEndian => [low, high]
  | .bigEndian => [high, low]

/-- The bytes of a text. -/
def encode (order : ByteOrder) (text : Text) : Bytes :=
  (units text).flatMap (unitBytes order)

/-- The unit that two bytes write. -/
def unitOf (order : ByteOrder) (first second : UInt8) : Nat :=
  match order with
  | .littleEndian => second.toNat * 0x100 + first.toNat
  | .bigEndian => first.toNat * 0x100 + second.toNat

/-- The character that a unit writes alone. -/
def single? (unit : Nat) : Option Char :=
  scalar? unit

/-- The character that a high and a low surrogate write together. -/
def pair? (high low : Nat) : Option Char :=
  if 0xD800 ≤ high && high < 0xDC00 && 0xDC00 ≤ low && low < 0xE000 then
    scalar? (0x10000 + (high - 0xD800) * 0x400 + (low - 0xDC00))
  else none

/-- Decodes the bytes that follow those of `read` (last character first). -/
def decodeFrom? (order : ByteOrder) (read : Text) : Bytes → Option Text
  | [] => some read.reverse
  | [_] => none
  | a :: b :: rest =>
    match single? (unitOf order a b) with
    | some c => decodeFrom? order (c :: read) rest
    | none =>
      match rest with
      | a' :: b' :: rest =>
        match pair? (unitOf order a b) (unitOf order a' b') with
        | some c => decodeFrom? order (c :: read) rest
        | none => none
      | _ => none

/-- The text of well-formed bytes. -/
def decode? (order : ByteOrder) (bytes : Bytes) : Option Text :=
  decodeFrom? order [] bytes

end Relabel.Utf16
