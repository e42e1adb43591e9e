/-
**Reading addresses.**

An address begins with its scheme. A text without a scheme is a reference: what it leaves out is
taken from the address of the document that contains it.

* `Url.parse`: the address that a text writes, or why there is none.
-/

import Relabel.Url.Authority
import Relabel.Url.Segments

namespace Relabel

/-- Why a text does not write an address. -/
inductive UrlError where
  /-- It is a reference, and there is no address to start from. -/
  | needsBase
  | malformed
  deriving DecidableEq, Repr

namespace Url

variable [InternationalNames]

/-! ### Pieces -/

/-- The text without what is not part of an address: control characters and spaces at both ends,
tabs and line ends anywhere. -/
def clean (text : Text) : Text :=
  (Text.trim (·.toNat ≤ 0x20) text).filter fun c => c != '\t' && c != '\n' && c != '\r'

/-- Whether a character may follow the first one of a scheme. -/
def isSchemeChar (c : Char) : Bool :=
  c.isAlphanum || c == '+' || c == '-' || c == '.'

/-- The scheme in small letters and what follows its colon. -/
def cutScheme? (text : Text) : Option (Text × Text) :=
  match text.span isSchemeChar with
  | (c :: scheme, ':' :: rest) =>
    if c.isAlpha then some ((c :: scheme).map Char.toLower, rest) else none
  | _ => none

/-- A text cut at its query and its fragment. -/
structure Tailed where
  body : Text
  query : Option Text
  fragment : Option Text

/-- Cuts a text at the first number sign and, in front of it, at the first question mark. -/
def cutTail (text : Text) : Tailed :=
  let (text, fragment) := match Text.cutFirst '#' text with
    | some (before, fragment) => (before, some fragment)
    | none => (text, none)
  match Text.cutFirst '?' text with
  | some (body, query) => ⟨body, some query, fragment⟩
  | none => ⟨text, none, fragment⟩

/-- The address with the given parts and the query and fragment of a text. -/
def withTail (scheme : Text) (authority : Authority) (path : Path) (tail : Tailed) : Url where
  scheme := scheme
  authority := authority
  path := path
  query := tail.query.map (escape (if isSpecialScheme scheme then .webQuery else .query))
  fragment := tail.fragment.map (escape .fragment)

/-! ### With a scheme -/

/-- The segments of the path behind an authority. Only schemes that are not used on the web have an
empty path. -/
def absoluteSegments (special : Bool) (path : Text) : List Text :=
  match path with
  | [] => if special then [[]] else []
  | c :: rest => segmentsFrom special [] (if isSlash special c then rest else path)

/-- The address that the text behind two slashes writes. -/
def ofAuthority? (scheme : Text) (text : Text) : Option Url := do
  let (authority, rest) ← readAuthority? scheme text
  let tail := cutTail rest
  some (withTail scheme authority (.divided (absoluteSegments (isSpecialScheme scheme) tail.body))
    tail)

/-- The address of a scheme that is not used on the web. -/
def ofForeign? (scheme : Text) (text : Text) : Option Url :=
  match Text.after? "//" text with
  | some rest => ofAuthority? scheme rest
  | none =>
    let tail := cutTail text
    match tail.body with
    | '/' :: path => some (withTail scheme {} (.divided (segmentsFrom false [] path)) tail)
    | path => some (withTail scheme {} (.flat (escape .flatPath path)) tail)

/-! ### Files -/

/-- The address of a file. Its path does not begin with an empty segment, and a drive letter at the
beginning leaves no host. -/
def fileUrl (host : Host) (tail : Tailed) (path : Text) : Url :=
  let trail := Trail.follow Trail.putInFile {} (divide true path)
  let segments := match trail.segments.reverse.dropWhile (· = []) with
    | [] => [[]]
    | segments => segments
  let host := if trail.leavesHost then .name [] else host
  withTail "file" { host := some host } (.divided segments) tail

/-- The address of a file that the text behind two slashes writes. -/
def ofFileHost? (text : Text) : Option Url := do
  let (name, rest) := text.span fun c => !endsAuthority true c
  if isDriveLetter name then
    let tail := cutTail text
    some (fileUrl (.name []) tail tail.body)
  else
    let tail := cutTail rest
    if name = [] then some (fileUrl (.name []) tail tail.body)
    else
      let host ← Host.parse? name
      if host = .name "localhost" then some (fileUrl (.name []) tail tail.body)
      else some (fileUrl host tail (tail.body.drop 1))

/-! ### References -/

/-- The address that a reference leads to from `base`. -/
def ofReference? (base : Url) (reference : Text) : Option Url :=
  let special := isSpecialScheme base.scheme
  let tail := cutTail reference
  match base.path with
  | .flat _ =>
    if tail.body = [] && tail.query.isNone && tail.fragment.isSome then
      some { base with fragment := tail.fragment.map (escape .fragment) }
    else none
  | .divided origin =>
    let moved (segments : List Text) :=
      some (withTail base.scheme base.authority (.divided segments) tail)
    match tail.body with
    | [] =>
      let url := withTail base.scheme base.authority base.path tail
      some (if tail.query.isNone then { url with query := base.query } else url)
    | c :: path =>
      if !isSlash special c then
        moved (segmentsFrom special origin.dropLast tail.body)
      else if path.head?.any (isSlash special) then
        if base.scheme = "file".toList then ofFileHost? (reference.drop 2)
        else
          ofAuthority? base.scheme
            ((Text.after? "//" reference).getD (reference.dropWhile (isSlash special)))
      else moved (segmentsFrom special [] path)

/-- The address of a file that the text behind the scheme writes. -/
def ofFile? (base : Option Url) (text : Text) : Option Url :=
  match text.span (isSlash true), base.filter (·.scheme = "file".toList) with
  | (_ :: _ :: _, _), _ => ofFileHost? (text.drop 2)
  | ([], _), some base => ofReference? base text
  | (_, path), _ =>
    let tail := cutTail path
    some (fileUrl (.name []) tail tail.body)

/-! ### All -/

/-- The address that the text behind a scheme writes. Behind a scheme of the web the slashes may be
missing, unless it is that of the base: then a reference follows. -/
def ofScheme? (base : Option Url) (scheme : Text) (rest : Text) : Option Url :=
  if scheme = "file".toList then ofFile? base rest
  else if isSpecialScheme scheme then
    let (slashes, authority) := rest.span (isSlash true)
    match base with
    | some base =>
      if base.scheme = scheme && slashes.length < 2 then ofReference? base rest
      else ofAuthority? scheme authority
    | none => ofAuthority? scheme authority
  else ofForeign? scheme rest

/-- The address that a text writes, taken as a reference from `base` if it has no scheme. -/
def parse (base : Option Url) (text : Text) : Except UrlError Url :=
  let text := clean text
  match cutScheme? text, base with
  | some (scheme, rest), _ => (ofScheme? base scheme rest).elim (.error .malformed) .ok
  | none, some base => (ofReference? base text).elim (.error .malformed) .ok
  | none, none => .error .needsBase

end Url

end Relabel
