/-
**Requests for scripts.**

* `FetchFailure`: why a resource could not be fetched.
* `Session`: what all requests of a run have in common.
* `connectionLines`: the log lines about the connection for a request.
-/

import Relabel.Run.Log
import Relabel.Url.Basic

namespace Relabel

/-- Why a resource could not be fetched. -/
inductive FetchFailure where
  | client (reason : Text)
  | request (url reason : Text)
  | status (url : Text) (code : Nat)
  | body (url reason : Text)
  deriving DecidableEq, Repr

/-- What is said of an error. -/
def FetchFailure.message : FetchFailure → Text
  | .client reason => "unable to build HTTP client: " ++ reason
  | .request url reason => "request to " ++ url ++ " failed: " ++ reason
  | .status url code => url ++ " responded with status " ++ Text.decimal code
  | .body url reason => "unable to read body of " ++ url ++ ": " ++ reason

/-- What all requests have in common. -/
structure Session where
  /-- The limit for a request in seconds; zero means none. -/
  timeout : Nat
  userAgent : Text
  /-- The address of the document whose scripts are requested. -/
  referer : Option Text := none
  deriving DecidableEq, Repr

namespace Session

/-- The seconds that a request may take if nothing else is asked for. -/
def standardTimeout : Nat := 60

/-- The name of the requesting program if no other is given. -/
def standardUserAgent : Text :=
  "Mozilla/5.0 (Windows NT 10.0; Win64; x64; rv:135.0) Gecko/20100101 Firefox/135.0"

/-- Whether a character can be part of a line of a request. -/
def isLineChar (c : Char) : Bool :=
  c == '\t' || (0x20 ≤ c.toNat && c.toNat ≠ 0x7F)

/-- A session, unless the name of the program cannot be sent. -/
def start (timeout : Nat) (userAgent : Option Text) : Except FetchFailure Session :=
  let userAgent := userAgent.getD standardUserAgent
  if userAgent.all isLineChar then .ok ⟨timeout, userAgent, none⟩
  else .error (.client "failed to parse header value")

/-- A text as a line of a request, if it can be sent. -/
def line? (text : Text) : Option Text :=
  if text.all isLineChar then some text else none

/-- The session for the scripts of a document. The server learns neither the user of the document
nor a place in it, and nothing at all of an address that cannot be sent. -/
def referredBy (session : Session) (document : Option Url) : Session :=
  { session with referer := document.bind fun url => line? url.asReferer.render }

end Session

/-! ### Connections -/

/-- Where the server of an address listens, if the address tells it by numbers. -/
def serverPlace? (url : Url) : Option Text :=
  match url.authority.host, url.authority.port.orElse fun _ => defaultPort? url.scheme with
  | some (.name _), _ | none, _ | _, none => none
  | some host, some port => some (host.render ++ [':'] ++ Text.decimal port)

/-- The log lines about the connection for a request. The server is named without user, path and
query; where it listens is known only if it need not be looked up. -/
def connectionLines (url : Url) : List LogLine :=
  let server : Url :=
    { url.withoutUser with path := .divided [[]], query := none, fragment := none }
  ⟨.debug, "starting new connection: " ++ server.render⟩
    :: (serverPlace? url).toList.map fun place => ⟨.debug, "connecting to " ++ place⟩

end Relabel
