/-
**Segments of paths.**

A path is read segment by segment. One dot stands for the place reached so far, two dots lead back
over the last segment. A drive letter is a root of its own, which no dots lead out of.

* `Url.divide`: the pieces of a text between slashes.
* `Url.Trail.follow`: the segments that the pieces of a path lead to.
-/

import Relabel.Url.Escape

namespace Relabel.Url

/-- Whether a character separates segments. A backslash does so in the schemes of the web. -/
def isSlash (special : Bool) (c : Char) : Bool :=
  c == '/' || (special && c == '\\')

/-- The pieces of a text between slashes. -/
def divide (special : Bool) (text : Text) : List Text :=
  Text.splitWhen (isSlash special) text

/-- The segment with its escaped dots, if it consists of dots. -/
def plainDots (segment : Text) : Text :=
  match segment with
  | '%' :: '2' :: c :: rest => if c = 'e' || c = 'E' then '.' :: plainDots rest else segment
  | '.' :: rest => '.' :: plainDots rest
  | _ => segment

/-- Whether a segment stands for the place reached so far. -/
def isHere (segment : Text) : Bool :=
  plainDots segment = ".".toList

/-- Whether a segment leads back over the last one. -/
def isBack (segment : Text) : Bool :=
  plainDots segment = "..".toList

/-! ### Drive letters -/

/-- Whether a character is a letter in front of a mark that makes it the letter of a drive. -/
def isDriveMark (letter mark : Char) : Bool :=
  letter.isAlpha && (mark == ':' || mark == '|')

/-- Whether a segment is a drive letter, by itself or in front of a backslash. -/
def isDriveLetter : Text → Bool
  | [letter, mark] => isDriveMark letter mark
  | letter :: mark :: '\\' :: _ => isDriveMark letter mark
  | _ => false

/-- The segments (last one first) without the last one. -/
def dropSegment : List Text → List Text
  | [] => []
  | segment :: segments => if isDriveLetter segment then segment :: segments else segments

/-! ### Walking along a path -/

/-- How far a path has been followed. -/
structure Trail where
  /-- The segments that have been reached, last one first. -/
  segments : List Text := []
  /-- Whether the path of a file has begun with a drive letter, which leaves no host. -/
  leavesHost : Bool := false
  deriving DecidableEq, Repr

namespace Trail

/-- One segment farther. -/
def enter (trail : Trail) (segment : Text) : Trail :=
  { trail with segments := segment :: trail.segments }

/-- One segment back. -/
def back (trail : Trail) : Trail :=
  { trail with segments := dropSegment trail.segments }

/-- Where the piece of a path leads that does not consist of dots. -/
def put (trail : Trail) (piece : Text) : Trail :=
  trail.enter (escape .path piece)

/-- Where the piece of the path of a file leads. At the beginning a drive letter takes its usual
form, with a colon, and what is written behind the colon is a segment of its own. -/
def putInFile (trail : Trail) (piece : Text) : Trail :=
  match trail.segments, piece with
  | [], [letter, mark] =>
    if isDriveMark letter mark then ⟨[[letter, ':']], true⟩ else trail.put piece
  | [], letter :: ':' :: rest =>
    if letter.isAlpha then (trail.enter [letter, ':']).put rest else trail.put piece
  | _, _ => trail.put piece

/-- Follows the pieces of a path, each of which `put` enters unless it consists of dots. A path that
ends in dots ends in a slash. -/
def follow (put : Trail → Text → Trail) (trail : Trail) : List Text → Trail
  | [] => trail
  | piece :: pieces =>
    if isBack piece || isHere piece then
      let reached := if isBack piece then trail.back else trail
      if pieces.isEmpty then reached.enter [] else reached.follow put pieces
    else (put trail piece).follow put pieces

end Trail

/-- The segments that a path leads to from the segments `origin`. -/
def segmentsFrom (special : Bool) (origin : List Text) (path : Text) : List Text :=
  (Trail.follow Trail.put ⟨origin.reverse, false⟩ (divide special path)).segments.reverse

end Relabel.Url
