/-
**Text as a list of characters.**

Documents, tokens, names, paths and messages are all `Text`, so every definition about them is a
definition on lists. A string literal may be written where a `Text` is expected.

* `Text.splitWhen`, `Text.splitOn`: the pieces between separators, always at least one.
* `Text.cutFirst`, `Text.cutLast`: the two sides of the first or last separator.
* `Text.after?`: what follows a given beginning.
* `Text.trim`: without the characters of a class at both ends.
* `Text.decimal`, `Text.integer`, `Text.hex`: numerals.
-/

namespace Relabel

/-- A document, a token, a name, a path or a message. -/
abbrev Text := List Char

/-- A string literal stands for the list of its characters. -/
scoped instance : Coe String Text := ⟨String.toList⟩

namespace Text

/-! ### Cutting -/

/-- The pieces between the characters that satisfy `isSeparator`; `[[]]` for the empty text. -/
def splitWhen (isSeparator : Char → Bool) : Text → List Text
  | [] => [[]]
  | c :: rest =>
    if isSeparator c then [] :: splitWhen isSeparator rest
    else
      match splitWhen isSeparator rest with
      | [] => [[c]]
      | piece :: pieces => (c :: piece) :: pieces

/-- The pieces between the occurrences of one character. -/
def splitOn (separator : Char) (text : Text) : List Text :=
  splitWhen (· == separator) text

/-- The text with `separator` between the pieces. -/
def join (separator : Text) (pieces : List Text) : Text :=
  separator.intercalate pieces

/-- What precedes and what follows the first `separator`, if there is one. -/
def cutFirst (separator : Char) (text : Text) : Option (Text × Text) :=
  match text.span (· != separator) with
  | (_, []) => none
  | (before, _ :: rest) => some (before, rest)

/-- What precedes and what follows the last `separator`, if there is one. -/
def cutLast (separator : Char) : Text → Option (Text × Text)
  | [] => none
  | c :: rest =>
    match cutLast separator rest with
    | some (before, after) => some (c :: before, after)
    | none => if c = separator then some ([], rest) else none

/-- What follows `start`, if the text begins with it. -/
def after? : (start text : Text) → Option Text
  | [], text => some text
  | _ :: _, [] => none
  | s :: start, c :: text => if s = c then after? start text else none

/-- Whether the text begins with `start`. -/
def startsWith (text start : Text) : Bool :=
  (after? start text).isSome

/-! ### Trimming -/

/-- Without the leading characters that satisfy `drop`. -/
def trimStart (drop : Char → Bool) (text : Text) : Text :=
  text.dropWhile drop

/-- Without the trailing characters that satisfy `drop`. -/
def trimEnd (drop : Char → Bool) (text : Text) : Text :=
  (text.reverse.dropWhile drop).reverse

/-- Without the characters that satisfy `drop` at either end. -/
def trim (drop : Char → Bool) (text : Text) : Text :=
  trimEnd drop (trimStart drop text)

/-! ### Numerals -/

/-- The decimal numeral of a number. -/
def decimal (n : Nat) : Text :=
  Nat.toDigits 10 n

/-- The decimal numeral of an integer, behind a minus sign if it is negative. -/
def integer (n : Int) : Text :=
  if n < 0 then '-' :: decimal n.natAbs else decimal n.natAbs

/-- The lower case hexadecimal numeral of a number. -/
def hex (n : Nat) : Text :=
  Nat.toDigits 16 n

/-- The text with zeros in front, up to `width` characters. -/
def padZeros (width : Nat) (text : Text) : Text :=
  List.replicate (width - text.length) '0' ++ text

/-- Whether a character is a hexadecimal digit of either case. -/
def isHexDigit (c : Char) : Bool :=
  c.isDigit || ('a' ≤ c && c ≤ 'f') || ('A' ≤ c && c ≤ 'F')

/-- The value of a hexadecimal digit. -/
def hexValue? (c : Char) : Option Nat :=
  if c.isDigit then some (c.toNat - '0'.toNat)
  else if 'a' ≤ c && c ≤ 'f' then some (c.toNat - 'a'.toNat + 10)
  else if 'A' ≤ c && c ≤ 'F' then some (c.toNat - 'A'.toNat + 10)
  else none

/-- The number that digits of the given base write, most significant first. -/
def ofDigits (base : Nat) (digits : Text) : Nat :=
  digits.foldl (fun value c => value * base + (hexValue? c).getD 0) 0

end Text

end Relabel
