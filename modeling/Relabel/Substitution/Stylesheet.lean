/-
**Renaming in stylesheets.**
-/

import Relabel.Naming.Renaming
import Relabel.Scan.Selector

namespace Relabel

/-- A renaming for each kind of token. -/
structure Renamings where
  classes : Renaming
  ids : Renaming

namespace Renamings

/-- The renaming of one kind of token. -/
def ofKind (names : Renamings) : Kind → Renaming
  | .cls => names.classes
  | .id => names.ids

/-- Whether no token is renamed. -/
def isEmpty (names : Renamings) : Bool :=
  names.classes.isEmpty && names.ids.isEmpty

end Renamings

/-- The stylesheet with the names of class and id selectors replaced. Nothing else changes. -/
def relabelStylesheet (names : Renamings) (css : Text) : Text :=
  (selectors.cut css).substitute fun selector => (names.ofKind selector.kind).get? selector.value

end Relabel
