/-
**Renaming in documents.**

Each function here replaces the tokens in one kind of place and leaves all other text alone.

* `relabelClassAttributes`, `relabelIdAttributes`: the tokens themselves.
* `relabelFragments`, `relabelReferences`: links and references to ids.
* `relabelStyles`: the selectors of style elements.
* `relabelDocument`: all of them, one after the other.
-/

import Relabel.Scan.Element
import Relabel.Scan.Url
import Relabel.Substitution.Stylesheet

namespace Relabel

/-! ### Tokens -/

/-- The value of a class attribute with its tokens replaced and joined by single spaces; none if no
token of it is renamed. -/
def relabelClassValue (classes : Renaming) (value : Text) : Option Text :=
  let tokens := Text.words value
  if tokens.any classes.contains then some (Text.join " " (tokens.map classes.apply)) else none

/-- The document with the tokens of class attributes replaced. -/
def relabelClassAttributes (classes : Renaming) (html : Text) : Text :=
  (classAttributes.cut html).substitute fun found => relabelClassValue classes found.value

/-- The document with the values of id attributes replaced. -/
def relabelIdAttributes (ids : Renaming) (html : Text) : Text :=
  (idAttributes.cut html).substitute fun found => ids.get? found.value

/-! ### References -/

/-- Whether a fragment cannot be an id: it is empty, a path of an application, or holds white
space. -/
def isForeignFragment (fragment : Text) : Bool :=
  fragment = [] || fragment.head? = some '!' || fragment.any isBlank

/-- The new value of a link to a place in the same document. -/
def relabelFragment (ids : Renaming) (value : Text) : Option Text := do
  let fragment ← Text.after? "#" value
  if isForeignFragment fragment then none else (ids.get? fragment).map ('#' :: ·)

/-- The document with links to its places replaced. -/
def relabelFragments (ids : Renaming) (html : Text) : Text :=
  (fragmentAttributes.cut html).substitute fun found => relabelFragment ids found.value

/-- The edits that replace the renamed ones among the words of a captured value. -/
def wordEdits (ids : Renaming) (finding : Finding) : List Text.Edit :=
  (Text.locatedWords finding.value).filterMap fun word =>
    (ids.get? word.text).map fun name =>
      ⟨finding.start + word.start, finding.start + word.stop, name⟩

/-- The edit that replaces a captured value, if it is renamed. -/
def findingEdit? (ids : Renaming) (finding : Finding) : Option Text.Edit :=
  (ids.get? finding.value).map fun name => ⟨finding.start, finding.stop, name⟩

/-- The edits that replace references to ids: in attributes that hold lists of them, and of the form
`url(#name)` anywhere. -/
def referenceEdits (ids : Renaming) (html : Text) : List Text.Edit :=
  (referenceAttributes.cut html).findings.flatMap (wordEdits ids)
    ++ (urlReferences.cut html).findings.filterMap (findingEdit? ids)

/-- The document with references to ids replaced. -/
def relabelReferences (ids : Renaming) (html : Text) : Text :=
  (Text.applyEdits html (referenceEdits ids html)).getD html

/-! ### Whole documents -/

/-- The document with the selectors of its style elements replaced. -/
def relabelStyles (names : Renamings) (html : Text) : Text :=
  (styleBodies.cut html).substitute fun found => some (relabelStylesheet names found.value)

/-- The document with all tokens and references replaced. -/
def relabelDocument (names : Renamings) (html : Text) : Text :=
  relabelStyles names
    (relabelReferences names.ids
      (relabelFragments names.ids
        (relabelIdAttributes names.ids
          (relabelClassAttributes names.classes html))))

end Relabel
