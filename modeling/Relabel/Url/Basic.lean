/-
**Addresses of resources.**

* `Url`: scheme, authority, path, query and fragment of an address.
* `Url.render`: its text.
* `Url.withoutFragment`, `Url.withoutUser`, `Url.asReferer`: what is left of an address when it is
  sent to a server.
* `Url.lastSegment?`: the last piece of a path that is divided into pieces.
-/

import Relabel.Url.Host

namespace Relabel

/-! ### Schemes -/

/-- Whether a scheme is one of those that are used on the web and have rules of their own. -/
def isSpecialScheme (scheme : Text) : Bool :=
  ["http".toList, "https".toList, "ws".toList, "wss".toList, "ftp".toList, "file".toList].contains
    scheme

/-- Whether resources are fetched by requests and answers. -/
def isHttpScheme (scheme : Text) : Bool :=
  scheme = "http".toList || scheme = "https".toList

/-- The port that a scheme uses if none is given. -/
def defaultPort? (scheme : Text) : Option Nat :=
  if scheme = "http".toList || scheme = "ws".toList then some 80
  else if scheme = "https".toList || scheme = "wss".toList then some 443
  else if scheme = "ftp".toList then some 21
  else none

/-! ### Parts -/

/-- Who is asked for a resource. Without a host there is nothing else. An empty user name or
password is the same as none. -/
structure Authority where
  username : Text := []
  password : Text := []
  host : Option Host := none
  port : Option Nat := none
  deriving DecidableEq, Repr

/-- The path of an address. -/
inductive Path where
  /-- Text that is not divided into segments. -/
  | flat (text : Text)
  /-- Segments, each behind a slash. -/
  | divided (segments : List Text)
  deriving DecidableEq, Repr

/-- The address of a resource. Its parts are kept in escaped form. -/
structure Url where
  scheme : Text
  authority : Authority := {}
  path : Path
  query : Option Text := none
  fragment : Option Text := none
  deriving DecidableEq, Repr

namespace Url

/-! ### Text -/

/-- User name and password in front of a host. -/
def renderUser (authority : Authority) : Text :=
  if authority.username = [] && authority.password = [] then []
  else
    authority.username
      ++ (if authority.password = [] then [] else ':' :: authority.password) ++ ['@']

/-- The authority behind two slashes. A path that begins with an empty segment must not be taken for
one, so without a host it is set off by a dot. -/
def renderAuthority (authority : Authority) (path : Path) : Text :=
  match authority.host, path with
  | some host, _ =>
    "//" ++ renderUser authority ++ host.render
      ++ (authority.port.elim [] fun port => ':' :: Text.decimal port)
  | none, .divided ([] :: _ :: _) => "/."
  | none, _ => []

/-- The text of a path. -/
def renderPath : Path → Text
  | .flat text => text
  | .divided segments => segments.flatMap ('/' :: ·)

/-- The text of an address. -/
def render (url : Url) : Text :=
  url.scheme ++ [':'] ++ renderAuthority url.authority url.path ++ renderPath url.path
    ++ (url.query.elim [] ('?' :: ·)) ++ (url.fragment.elim [] ('#' :: ·))

/-! ### Uses -/

/-- Whether the address is one of a resource that can be fetched. -/
def isHttp (url : Url) : Bool :=
  isHttpScheme url.scheme

/-- A path that ends the text of an address does not end in spaces. -/
def trimPath (query : Option Text) : Path → Path
  | .flat text => .flat (if query.isNone then Text.trimEnd (· == ' ') text else text)
  | path => path

/-- The address without its fragment, which concerns only the reader. -/
def withoutFragment (url : Url) : Url :=
  { url with path := trimPath url.query url.path, fragment := none }

/-- Whether an address can have a user. It needs a host, which must not be empty, and the address of
a file has none. -/
def takesUser (url : Url) : Bool :=
  url.authority.host.any (· ≠ .name []) && url.scheme ≠ "file".toList

/-- The address without user name and password. One that cannot have them is left as it is. -/
def withoutUser (url : Url) : Url :=
  if url.takesUser then
    { url with authority := { url.authority with username := [], password := [] } }
  else url

/-- The address as a server may learn it from a reader who comes from there: without user name,
password and fragment. -/
def asReferer (url : Url) : Url :=
  url.withoutFragment.withoutUser

/-- The last segment of a divided path. -/
def lastSegment? (url : Url) : Option Text :=
  match url.path with
  | .flat _ => none
  | .divided segments => segments.getLast?

end Url

end Relabel
