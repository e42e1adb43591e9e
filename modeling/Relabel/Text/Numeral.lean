/-
**Reading numerals.**

* `Text.readNumber`: the number that a text writes, up to a limit.
-/

import Relabel.Text.Basic

namespace Relabel

/-- Why a text is not a number. -/
inductive NumeralError where
  | empty
  | badDigit
  | tooLarge
  deriving DecidableEq, Repr

/-- What is said of an error. -/
def NumeralError.message : NumeralError → Text
  | .empty => "cannot parse integer from empty string"
  | .badDigit => "invalid digit found in string"
  | .tooLarge => "number too large to fit in target type"

namespace Text

/-- The number that digits write behind those of `value`. The first digit that is none, or that
leads beyond the limit, decides. -/
def readDigits (limit value : Nat) : Text → Except NumeralError Nat
  | [] => .ok value
  | c :: digits =>
    if !c.isDigit then .error .badDigit
    else
      let value := value * 10 + (c.toNat - '0'.toNat)
      if limit < value then .error .tooLarge else readDigits limit value digits

/-- The number that a text writes in decimal, if it is at most `limit`. A plus sign may stand in
front. -/
def readNumber (limit : Nat) (text : Text) : Except NumeralError Nat :=
  match text with
  | [] => .error .empty
  | ['+'] => .error .badDigit
  | '+' :: digits => readDigits limit 0 digits
  | digits => readDigits limit 0 digits

end Text

/-- The greatest number of 64 bits. -/
def greatestWord : Nat := UInt64.size - 1

end Relabel
