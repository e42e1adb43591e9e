/-
**The tokens of a pair of documents.**

Classes come from class attributes and class selectors, ids from id attributes and id selectors.
The selectors are those of the stylesheet and of the style elements of the document.

* `Inventory.addDocument`, `Inventory.addStylesheet`: adds the tokens of one document.
* `Inventory.ofTexts`: the tokens of both.
-/

import Relabel.OrderedMap
import Relabel.Scan.Element
import Relabel.Scan.Selector
import Relabel.Token.Verdict

namespace Relabel

/-- The distinct tokens of each kind. -/
structure Inventory where
  classes : TextSet
  ids : TextSet

namespace Inventory

/-- No tokens. -/
def empty : Inventory :=
  ⟨OrderedMap.empty, OrderedMap.empty⟩

/-- Whether there are no tokens. -/
def isEmpty (inventory : Inventory) : Bool :=
  inventory.classes.isEmpty && inventory.ids.isEmpty

/-- The tokens of one kind. -/
def ofKind (inventory : Inventory) : Kind → TextSet
  | .cls => inventory.classes
  | .id => inventory.ids

/-- The inventory with one more token. -/
def add (inventory : Inventory) (kind : Kind) (token : Text) : Inventory :=
  match kind with
  | .cls => { inventory with classes := inventory.classes.add token }
  | .id => { inventory with ids := inventory.ids.add token }

/-- The inventory with the selectors of a stylesheet added. -/
def addStylesheet (inventory : Inventory) (css : Text) : Inventory :=
  (locatedSelectors css).foldl
    (fun inventory (kind, finding) => inventory.add kind finding.value) inventory

/-- The inventory with the tokens of a document added: its attributes and its style elements. An id
attribute of white space alone holds no token. -/
def addDocument (inventory : Inventory) (html : Text) : Inventory :=
  let classes := (classAttributes.cut html).values.flatMap Text.words
  let ids := (idAttributes.cut html).values.filter fun value => !isBlankToken value
  let named := ⟨inventory.classes.addAll classes, inventory.ids.addAll ids⟩
  (styleBodies.cut html).values.foldl addStylesheet named

/-- The tokens of a document and its stylesheet. -/
def ofTexts (html css : Text) : Inventory :=
  (empty.addDocument html).addStylesheet css

end Inventory

end Relabel
