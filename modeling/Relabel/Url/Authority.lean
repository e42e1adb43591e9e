/-
**Reading authorities.**

Behind two slashes stand, as far as the next slash, a user name and a password in front of the last
`@`, a host, and a port behind a colon.

* `Url.readAuthority?`: the authority at the beginning of a text, and the rest.
-/

import Relabel.Url.Basic

namespace Relabel.Url

variable [InternationalNames]

/-- Whether a character ends an authority. -/
def endsAuthority (special : Bool) (c : Char) : Bool :=
  c == '/' || c == '?' || c == '#' || (special && c == '\\')

/-- The user name and the password that a text writes. -/
def readUser (text : Text) : Text × Text :=
  match Text.cutFirst ':' text with
  | some (username, password) => (escape .userInfo username, escape .userInfo password)
  | none => (escape .userInfo text, [])

/-- Splits a text at the first colon outside brackets. What follows the colon is none if there is no
colon. -/
def cutPort (inBrackets : Bool) : Text → Text × Option Text
  | [] => ([], none)
  | c :: rest =>
    if c = ':' && !inBrackets then ([], some rest)
    else
      let (host, port) := cutPort (c = '[' || (inBrackets && c ≠ ']')) rest
      (c :: host, port)

/-- Reads a port. The default one of the scheme, and an empty one, is the same as none. Behind it
may stand only a path. -/
def readPort? (scheme : Text) (text : Text) : Option (Option Nat × Text) :=
  let (digits, rest) := text.span Char.isDigit
  let port := Text.ofDigits 10 digits
  if 65535 < port || (rest ≠ [] && rest.head? ≠ some '\\') then none
  else if digits = [] || some port = defaultPort? scheme then some (none, rest)
  else some (some port, rest)

/-- Reads a host and a port. Only schemes that are not used on the web have empty hosts, and then no
port. -/
def readHost? (scheme : Text) (text : Text) : Option (Host × Option Nat × Text) := do
  let (name, port) := cutPort false text
  let host ← if isSpecialScheme scheme then Host.parse? name else Host.parseForeign? name
  if name = [] && port.isSome then none
  else
    let (port, rest) ← port.elim (some (none, [])) (readPort? scheme)
    some (host, port, rest)

/-- The authority at the beginning of a text, and the rest. A user needs a host, and so does an `@`
alone unless it is all there is. -/
def readAuthority? (scheme : Text) (text : Text) : Option (Authority × Text) := do
  let (text, rest) := text.span fun c => !endsAuthority (isSpecialScheme scheme) c
  if text = ['@'] && rest ≠ [] then none
  else
    let (info, text) := (Text.cutLast '@' text).getD ([], text)
    let (username, password) := readUser info
    let (host, port, behind) ← readHost? scheme text
    if text = [] && (username ≠ [] || password ≠ []) then none
    else some (⟨username, password, some host, port⟩, behind ++ rest)

end Relabel.Url
