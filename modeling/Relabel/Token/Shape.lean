/-
**Shapes of tokens.**

Whether a class or id looks generated is decided by its shape alone.

* `isGuid`, `isHexDigest`, `isLayoutNode`: shapes that generators give their names.
* `isHashLike`: ten or more characters that could be a hash.
* `isMeaningful`: a short name that a person would choose.
* `isIdentifierStart`: texts that may begin a generated name.
-/

import Relabel.Text.Basic

namespace Relabel

open Text (isHexDigit splitOn)

/-- Whether a character may stand in an identifier of ASCII characters. -/
def isIdentifierChar (c : Char) : Bool :=
  c.isAlphanum || c == '_' || c == '-'

/-- Whether all characters are hexadecimal digits. -/
def isHex (text : Text) : Bool :=
  text.all isHexDigit

/-- A GUID: 36 characters, groups of 8, 4, 4, 4 and 12 hexadecimal digits joined by hyphens. -/
def isGuid (token : Text) : Bool :=
  let groups := splitOn '-' token
  groups.map List.length == [8, 4, 4, 4, 12] && groups.all isHex

/-- 32 hexadecimal digits. -/
def isHexDigest (token : Text) : Bool :=
  token.length == 32 && isHex token

/-- The id of a layout node without its usual beginning: an optional underscore, a GUID, a hyphen
and one or more hexadecimal digits. -/
def isLayoutNode (token : Text) : Bool :=
  let bare := match token with
    | '_' :: rest => rest
    | _ => token
  isGuid (bare.take 36) &&
    match bare.drop 36 with
    | '-' :: digits => digits != [] && isHex digits
    | _ => false

/-- Ten or more letters, digits, underscores and hyphens. -/
def isHashLike (token : Text) : Bool :=
  10 ≤ token.length && token.all isIdentifierChar

/-- A small letter and up to 24 small letters, digits and hyphens. -/
def isMeaningful (token : Text) : Bool :=
  match token with
  | [] => false
  | c :: rest =>
    c.isLower && rest.length ≤ 24 && rest.all fun c => c.isLower || c.isDigit || c == '-'

/-- A letter or underscore, and then letters, digits, underscores and hyphens. -/
def isIdentifierStart (text : Text) : Bool :=
  match text with
  | [] => false
  | c :: rest => (c.isAlpha || c == '_') && rest.all isIdentifierChar

end Relabel
