/-
**Percent escapes.**

`Url.escape` replaces characters that must not stand in a part of a URL by the bytes of their UTF-8
form, each as a percent sign and two capital hexadecimal digits. Characters beyond ASCII are always
replaced; which ASCII characters are is a matter of the part.

* `Url.mustEscape`: the characters that each part of a URL cannot hold.
* `Url.escape`: the form of a text in a part.
* `Url.unescape`: the bytes that an escaped text stands for.
-/

import Relabel.Encoding.Utf8

namespace Relabel.Url

/-- The parts of a URL with rules of their own for the characters they hold. -/
inductive Part where
  | userInfo
  /-- The name of a host whose scheme says nothing about hosts. -/
  | foreignHost
  | path
  /-- A path without segments. -/
  | flatPath
  | query
  /-- The query of a scheme that is used on the web. -/
  | webQuery
  | fragment
  deriving DecidableEq, Repr

/-- Whether a character is a control character or beyond ASCII. -/
def isControl (c : Char) : Bool :=
  c.toNat < 0x20 || 0x7F ≤ c.toNat

/-- The printable ASCII characters that a part cannot hold. -/
def Part.excluded : Part → List Char
  | .foreignHost | .flatPath => []
  | .fragment => [' ', '"', '<', '>', '\x60']
  | .query => [' ', '"', '#', '<', '>']
  | .webQuery => [' ', '"', '#', '<', '>', '\'']
  | .path => [' ', '"', '<', '>', '\x60', '#', '?', '\x7b', '\x7d']
  | .userInfo =>
    [' ', '"', '<', '>', '\x60', '#', '?', '\x7b', '\x7d', '/', ':', ';', '=', '@', '[', '\\', ']',
      '^', '|']

/-- Whether a character cannot stand in a part as it is. -/
def mustEscape (part : Part) (c : Char) : Bool :=
  isControl c || part.excluded.contains c

/-- A capital hexadecimal digit. -/
def capitalDigit (n : Nat) : Char :=
  (Nat.digitChar n).toUpper

/-- A percent sign and the digits of a byte. -/
def escapeByte (b : UInt8) : Text :=
  ['%', capitalDigit (b.toNat / 16), capitalDigit (b.toNat % 16)]

/-- The form of a character in a part. -/
def escapeChar (part : Part) (c : Char) : Text :=
  if mustEscape part c then (Utf8.encodeChar c).flatMap escapeByte else [c]

/-- The form of a text in a part. -/
def escape (part : Part) (text : Text) : Text :=
  text.flatMap (escapeChar part)

/-- The bytes of a text in which escapes stand for their bytes. A percent sign without two digits
stands for itself. -/
def unescape : Text → Bytes
  | '%' :: a :: b :: rest =>
    match Text.hexValue? a, Text.hexValue? b with
    | some high, some low => (high * 16 + low).toUInt8 :: unescape rest
    | _, _ => Utf8.encodeChar '%' ++ unescape (a :: b :: rest)
  | c :: rest => Utf8.encodeChar c ++ unescape rest
  | [] => []

end Relabel.Url
