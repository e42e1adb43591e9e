/-
**Hosts.**

A host is a name, an address of four bytes or an address of eight 16-bit pieces. Schemes that are
used on the web know all three forms and fold names to their ASCII form; other schemes know only
bracketed addresses and take any other host as it is written.

* `InternationalNames`: the ASCII forms of names beyond ASCII, a parameter of all that reads hosts.
* `Host.parse?`, `Host.parseForeign?`: the host that a text writes.
* `Host.render`: its text.
-/

import Relabel.Url.Escape

namespace Relabel

/-- What is known of names that are not written in plain ASCII. How their letters are mapped and put
into normal form, and which labels they may have, is told by the tables of Unicode. -/
class InternationalNames where
  /-- The ASCII form of a name, if it has one. -/
  asciiForm? : Text → Option Text
  /-- The ASCII form is ASCII. -/
  isAscii : ∀ {name ascii : Text}, asciiForm? name = some ascii → ∀ c ∈ ascii, c.toNat < 0x80

/-- The host of a URL. -/
inductive Host where
  | name (text : Text)
  /-- An address of four bytes, as a number below 2³². -/
  | ipv4 (address : Nat)
  /-- An address of eight 16-bit pieces. -/
  | ipv6 (pieces : List Nat)
  deriving DecidableEq, Repr

namespace Host

/-! ### Addresses of four bytes -/

/-- A part of an address: decimal, or octal behind a zero, or hexadecimal behind `0x`. -/
def number? (part : Text) : Option Nat :=
  let read (base : Nat) (isDigit : Char → Bool) (digits : Text) : Option Nat :=
    if digits.all isDigit then some (Text.ofDigits base digits) else none
  match part with
  | [] => none
  | '0' :: 'x' :: digits => read 16 Text.isHexDigit digits
  | '0' :: 'X' :: digits => read 16 Text.isHexDigit digits
  | '0' :: c :: digits => read 8 (fun d => '0' ≤ d && d ≤ '7') (c :: digits)
  | _ => read 10 Char.isDigit part

/-- The parts of a name, an empty last one left out. -/
def partsOf (name : Text) : List Text :=
  let parts := Text.splitOn '.' name
  if parts.getLast? = some [] then parts.dropLast else parts

/-- Whether a name is to be read as an address: its last part is a number. -/
def endsInNumber (name : Text) : Bool :=
  match (partsOf name).getLast? with
  | none => false
  | some part => (part ≠ [] && part.all Char.isDigit) || (number? part).isSome

/-- The address with the given parts. Each part but the last is a byte, and the last one fills the
bytes that remain. -/
def ipv4? (name : Text) : Option Nat := do
  let numbers ← (partsOf name).mapM number?
  let last ← numbers.getLast?
  let front := numbers.dropLast
  let remaining := 8 * (4 - front.length)
  if 3 < front.length || front.any (255 < ·) || 1 <<< remaining ≤ last then none
  else some (front.foldl (fun address byte => address * 256 + byte) 0 <<< remaining + last)

/-- The four bytes of an address in decimal. -/
def renderIpv4 (address : Nat) : Text :=
  Text.join "." ([24, 16, 8, 0].map fun bits => Text.decimal ((address >>> bits) % 256))

/-! ### Addresses of eight pieces -/

/-- The two pieces that an address of four decimal bytes writes at the end of an address. -/
def trailingIpv4? (text : Text) : Option (List Nat) := do
  let bytes ← (Text.splitOn '.' text).mapM fun part =>
    if part = [] || !part.all Char.isDigit || (1 < part.length && part.head? = some '0')
        || 255 < Text.ofDigits 10 part || 3 < part.length then none
    else some (Text.ofDigits 10 part)
  match bytes with
  | [a, b, c, d] => some [a * 256 + b, c * 256 + d]
  | _ => none

/-- The pieces of one side of an address. The last one may be an address of four bytes, if
`mayTrail` holds. -/
def pieces? (mayTrail : Bool) : List Text → Option (List Nat)
  | [] => some []
  | part :: parts =>
    if parts = [] && mayTrail && part.contains '.' then trailingIpv4? part
    else if part = [] || 4 < part.length || !part.all Text.isHexDigit then none
    else (pieces? mayTrail parts).map (Text.ofDigits 16 part :: ·)

/-- Where a double colon stands first, the text before and after it. -/
def cutDoubleColon (passed : Text) : Text → Option (Text × Text)
  | ':' :: ':' :: rest => some (passed.reverse, rest)
  | c :: rest => cutDoubleColon (c :: passed) rest
  | [] => none

/-- The parts of one side of an address; none for the empty side. -/
def sideParts (side : Text) : List Text :=
  if side = [] then [] else Text.splitOn ':' side

/-- The pieces of an address. A double colon stands for one or more zero pieces. -/
def ipv6? (text : Text) : Option (List Nat) :=
  match cutDoubleColon [] text with
  | none => (pieces? true (sideParts text)).bind fun pieces =>
      if pieces.length = 8 then some pieces else none
  | some (left, right) => do
    let front ← pieces? false (sideParts left)
    let back ← pieces? true (sideParts right)
    let count := front.length + back.length
    if 7 < count then none else some (front ++ List.replicate (8 - count) 0 ++ back)

/-- The length of the run of zeros that begins at each piece. -/
def zeroRuns : List Nat → List Nat
  | [] => []
  | piece :: pieces =>
    let runs := zeroRuns pieces
    (if piece = 0 then 1 + runs.headD 0 else 0) :: runs

/-- The pieces in hexadecimal. The first of the longest runs of two or more zeros is left out
between two colons. -/
def renderIpv6 (pieces : List Nat) : Text :=
  let runs := zeroRuns pieces
  let longest := runs.foldl max 0
  let list (pieces : List Nat) := Text.join ":" (pieces.map Text.hex)
  if longest < 2 then list pieces
  else
    let start := runs.idxOf longest
    list (pieces.take start) ++ "::" ++ list (pieces.drop (start + longest))

/-! ### Names -/

/-- Whether a character of ASCII cannot be part of a name. -/
def isForbidden (c : Char) : Bool :=
  c.toNat ≤ 0x20 || c.toNat == 0x7F || "%#/:<>?@[\\]^|".toList.contains c

/-- Whether a name is written in ASCII and no label of it is the ASCII form of another. -/
def isPlain (name : Text) : Bool :=
  name.all (·.toNat < 0x80)
    && (Text.splitOn '.' name).all fun label => !Text.startsWith (label.map Char.toLower) "xn--"

/-- The ASCII form of a name: small letters, or what is known of the names that are not plain. -/
def asciiName? [InternationalNames] (name : Text) : Option Text :=
  let form := if isPlain name then some (name.map Char.toLower) else InternationalNames.asciiForm? name
  form.filter fun ascii => !ascii.any isForbidden

/-! ### Hosts -/

/-- The host in brackets. -/
def bracketed? (text : Text) : Option Host :=
  match text.getLast? with
  | some ']' => (ipv6? text.dropLast).map .ipv6
  | _ => none

/-- The host that a text writes in a URL of the web. -/
def parse? [InternationalNames] (text : Text) : Option Host :=
  match text with
  | '[' :: rest => bracketed? rest
  | _ => do
    let name ← Utf8.decode? (Url.unescape text)
    let name ← asciiName? name
    if name = [] then none
    else if endsInNumber name then (ipv4? name).map .ipv4
    else some (.name name)

/-- Whether a character cannot be part of a host of another scheme. -/
def isForbiddenForeign (c : Char) : Bool :=
  "\x00\t\n\r #/:<>?@[\\]^|".toList.contains c

/-- The host that a text writes in a URL of another scheme. It may be empty. -/
def parseForeign? (text : Text) : Option Host :=
  match text with
  | '[' :: rest => bracketed? rest
  | _ => if text.any isForbiddenForeign then none else some (.name (Url.escape .foreignHost text))

/-- The text of a host. -/
def render : Host → Text
  | .name text => text
  | .ipv4 address => renderIpv4 address
  | .ipv6 pieces => ['['] ++ renderIpv6 pieces ++ [']']

end Host

end Relabel
