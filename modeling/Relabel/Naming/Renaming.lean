/-
**Renamings.**

A renaming gives new names to some tokens and leaves the others as they are.

* `Renaming.apply`: the name of a token under a renaming.
* `Renaming.isInjective`: whether different tokens have different new names.
-/

import Relabel.OrderedMap

namespace Relabel

/-- The new names of tokens, in order of the tokens. -/
abbrev Renaming := OrderedMap Text

namespace Renaming

/-- The new name of a token, or the token itself if it keeps its name. -/
def apply (names : Renaming) (token : Text) : Text :=
  (names.get? token).getD token

/-- Whether no new name is given twice. -/
def isInjective (names : Renaming) : Bool :=
  (TextSet.ofTexts names.values).size == names.size

end Renaming

end Relabel
