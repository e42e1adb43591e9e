/-
**References to resources that can be fetched.**

* `isInline`: whether a reference holds its content instead of leading to it.
* `resolve?`: the address that a reference leads to.
* `baseUrl?`: the address that a caller gives for a document.
-/

import Relabel.Text.Blank
import Relabel.Url.Parse

namespace Relabel

/-- Whether a text begins with `start`, in capital or small letters. -/
def startsWithLetters (start text : Text) : Bool :=
  (text.take start.length).map Char.toLower = start

/-- Whether a reference holds its content instead of leading to it. -/
def isInline (reference : Text) : Bool :=
  let reference := Text.trimStart isBlank reference
  startsWithLetters "data:" reference || startsWithLetters "blob:" reference

/-- The address, if it is one of a resource that can be fetched. -/
def fetchable? (url : Except UrlError Url) : Option Url :=
  match url with
  | .ok url => if url.isHttp then some url else none
  | .error _ => none

/-- The address that a reference leads to. It is read as an address of its own if it is one, and
otherwise from the address of its document. -/
def resolve? [InternationalNames] (base : Option Url) (reference : Text) : Option Url :=
  let reference := Text.strip reference
  if reference = [] || isInline reference then none
  else
    match Url.parse none reference, base with
    | .error .needsBase, some base => fetchable? (Url.parse (some base) reference)
    | url, _ => fetchable? url

/-- The address that a caller gives for a document. -/
def baseUrl? [InternationalNames] (text : Text) : Option Url :=
  fetchable? (Url.parse none (Text.strip text))

end Relabel
