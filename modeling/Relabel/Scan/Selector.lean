/-
**Class and id selectors of a stylesheet.**

A selector is a sigil, a full stop for a class and a number sign for an id, and a name. A sigil
right behind an identifier character is part of something else, such as a number or a file name,
unless it continues a selector. A name that starts with a digit, hyphens aside, counts only if it
has one of the generated shapes, so that numbers and colours are left alone.

* `selectors`: the matcher.
* `locatedSelectors`: the selectors of a stylesheet with their kinds.
-/

import Relabel.Scan.Basic
import Relabel.Token.Kind
import Relabel.Token.Shape

namespace Relabel

/-- The kind of selector that a sigil begins. -/
def kindOfSigil? (c : Char) : Option Kind :=
  if c = '.' then some .cls else if c = '#' then some .id else none

/-- Whether a character may begin a name, an optional hyphen aside. -/
def isNameStart (c : Char) : Bool :=
  c.isAlphanum || c == '_' || 0x80 ≤ c.toNat

/-- Whether a character may be part of a name. -/
def isNameChar (c : Char) : Bool :=
  isIdentifierChar c || 0x80 ≤ c.toNat

/-- Whether a text begins with a name. -/
def beginsName : Text → Bool
  | '-' :: c :: _ => isNameStart c
  | c :: _ => isNameStart c
  | [] => false

/-- Whether a name may be that of a selector: its first character behind hyphens is not a digit, or
the name is one that a generator makes. -/
def isSelectorName (name : Text) : Bool :=
  match name.dropWhile (· == '-') with
  | c :: _ => !c.isDigit || isGuid name || isHexDigest name || isLayoutNode name
  | [] => true

/-- Whether a selector may begin at a place. -/
def Place.opensSelector : Place → Bool
  | .start => true
  | .after c => !isNameChar c
  | .joined => true

/-- A match of a selector at the front of a text. -/
def readSelector (place : Place) : Text → Option Hit
  | [] => none
  | sigil :: text =>
    let name := text.takeWhile isNameChar
    if (kindOfSigil? sigil).isSome && place.opensSelector && beginsName text && isSelectorName name
    then some { lead := [sigil], value := name, tail := [], rest := text.dropWhile isNameChar }
    else none

theorem readSelector_eq {place : Place} {text : Text} {hit : Hit}
    (found : readSelector place text = some hit) : text = hit.text ∧ hit.lead ≠ [] := by
  cases text with
  | nil => simp [readSelector] at found
  | cons sigil text =>
    simp only [readSelector] at found
    split at found
    · obtain rfl := Option.some.inj found
      simp [Hit.text, List.takeWhile_append_dropWhile]
    · simp at found

/-- The matcher of selector names. -/
def selectors : Matcher where
  run := readSelector
  covers _ _ _ found := (readSelector_eq found).1
  advances _ _ _ found := (readSelector_eq found).2

/-- The kind of selector that a segment captures: its sigil is the last character before the
name. -/
def Segment.kind (segment : Segment) : Kind :=
  (segment.gap.getLast?.bind kindOfSigil?).getD .id

/-- The selectors of a stylesheet, with their kinds and the byte ranges of their names. -/
def locatedSelectors (css : Text) : List (Kind × Finding) :=
  let segments := selectors.cut css
  (segments.found.map (·.kind)).zip segments.findings

/-- The names of the selectors of one kind. -/
def selectorsOf (kind : Kind) (css : Text) : List Finding :=
  ((locatedSelectors css).filter fun found => found.1 = kind).map (·.2)

end Relabel
