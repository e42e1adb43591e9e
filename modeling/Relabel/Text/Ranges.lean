/-
**Sets of characters as ranges of code points.**
-/

import Relabel.Text.Basic

namespace Relabel

/-- A set of characters: the first and last code points of its runs, in increasing order. -/
abbrev Ranges := List (Nat × Nat)

/-- Whether a character lies in one of the ranges. -/
def Ranges.has (ranges : Ranges) (c : Char) : Bool :=
  ranges.any fun range => range.1 ≤ c.toNat && c.toNat ≤ range.2

end Relabel
