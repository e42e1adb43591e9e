/-
**The first unused name.**

Names are tried in turn: the wanted one, then its numbered variants. As the variants differ from one
another, one more try than there are used names always finds a name that is free.
-/

import Relabel.Text.Basic

namespace Relabel

/-- The first of `name 0`, `name 1`, … from `name k` on that is not used, within a number of further
tries. -/
def firstUnused (isUsed : Text → Bool) (name : Nat → Text) (k : Nat) : (tries : Nat) → Text
  | 0 => name k
  | tries + 1 => if isUsed (name k) then firstUnused isUsed name (k + 1) tries else name k

end Relabel
