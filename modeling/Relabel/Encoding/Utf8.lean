/-
**UTF-8.**

* `Utf8.encode`: the bytes of a text.
* `Utf8.decode?`: the text of well-formed bytes. Every character must have its shortest form, and
  surrogates and numbers beyond the last code point are refused.
-/

import Relabel.Text.Basic

namespace Relabel

/-- The content of a file, or the body of a response. -/
abbrev Bytes := List UInt8

/-- The character with a given code point, unless it is a surrogate or out of range. -/
def scalar? (n : Nat) : Option Char :=
  if n.isValidChar then some (Char.ofNat n) else none

namespace Utf8

/-- The bytes of one character. -/
def encodeChar (c : Char) : Bytes :=
  let n := c.toNat
  if n < 0x80 then [n.toUInt8]
  else if n < 0x800 then [(0xC0 + n / 0x40).toUInt8, (0x80 + n % 0x40).toUInt8]
  else if n < 0x10000 then
    [(0xE0 + n / 0x1000).toUInt8, (0x80 + n / 0x40 % 0x40).toUInt8, (0x80 + n % 0x40).toUInt8]
  else
    [(0xF0 + n / 0x40000).toUInt8, (0x80 + n / 0x1000 % 0x40).toUInt8,
      (0x80 + n / 0x40 % 0x40).toUInt8, (0x80 + n % 0x40).toUInt8]

/-- The bytes of a text. -/
def encode (text : Text) : Bytes :=
  text.flatMap encodeChar

/-- The six bits that a continuation byte carries. -/
def continuation? (b : UInt8) : Option Nat :=
  if 0x80 ≤ b.toNat && b.toNat < 0xC0 then some (b.toNat - 0x80) else none

/-- The character with code point `n`, if its encoding may be as long as that of `lowest`. -/
def longForm? (lowest n : Nat) : Option Char :=
  if lowest ≤ n then scalar? n else none

/-- A character whose first bytes have been read: how many bytes it still owes, the least code point
that needs so many bytes, and the bits read so far. -/
structure Begun where
  owed : Nat
  lowest : Nat
  bits : Nat
  deriving DecidableEq, Repr

/-- What the first byte of a longer form begins. -/
def begin? (b : UInt8) : Option Begun :=
  let n := b.toNat
  if n < 0xC0 then none
  else if n < 0xE0 then some ⟨1, 0x80, n - 0xC0⟩
  else if n < 0xF0 then some ⟨2, 0x800, n - 0xE0⟩
  else if n < 0xF8 then some ⟨3, 0x10000, n - 0xF0⟩
  else none

/-- Decodes the bytes that follow those of `read` (last character first) and of `begun`. -/
def decodeFrom? (read : Text) (begun : Option Begun) : Bytes → Option Text
  | [] => if begun.isNone then some read.reverse else none
  | b :: rest =>
    match begun with
    | none =>
      if b.toNat < 0x80 then decodeFrom? (Char.ofNat b.toNat :: read) none rest
      else
        match begin? b with
        | some begun => decodeFrom? read (some begun) rest
        | none => none
    | some ⟨owed, lowest, bits⟩ =>
      match continuation? b with
      | none => none
      | some more =>
        if 1 < owed then decodeFrom? read (some ⟨owed - 1, lowest, bits * 0x40 + more⟩) rest
        else
          match longForm? lowest (bits * 0x40 + more) with
          | some c => decodeFrom? (c :: read) none rest
          | none => none

/-- The text of well-formed bytes. -/
def decode? (bytes : Bytes) : Option Text :=
  decodeFrom? [] none bytes

end Utf8

end Relabel
