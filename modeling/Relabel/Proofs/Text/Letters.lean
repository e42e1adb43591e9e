/-
**Letters and digits by their codes.**

The classes of characters, read as ranges of codes, so that arithmetic settles which classes exclude
each other.

* `isDigit_iff`, `isUpper_iff`, `isLower_iff`, `isAlpha_iff`: the decimal digits and the letters.
* `Text.isHexDigit_iff`: the hexadecimal digits.
* `isIdentifierChar_iff`, `isIdentifierChar_of_isHexDigit`: the characters of identifiers.
* `toLower_of_isDigit`, `Text.isHexDigit_toLower`: small letters of digits.
* `IsAscii`: ASCII texts; `Text.lowerCase_of_ascii`, `IsAscii.byteLength_eq`: their small letters and bytes.
-/

import Mathlib.Tactic
import Relabel.Text.Blank
import Relabel.Text.LowerCase
import Relabel.Token.Shape

namespace Relabel

variable {c : Char}

theorem isDigit_iff : c.isDigit = true ↔ 48 ≤ c.toNat ∧ c.toNat ≤ 57 :=
  Char.isDigit_iff_toNat

theorem isUpper_iff : c.isUpper = true ↔ 65 ≤ c.toNat ∧ c.toNat ≤ 90 :=
  decide_eq_true_iff

theorem isLower_iff : c.isLower = true ↔ 97 ≤ c.toNat ∧ c.toNat ≤ 122 :=
  Bool.and_eq_true_iff.trans (and_congr decide_eq_true_iff decide_eq_true_iff)

theorem isAlpha_iff :
    c.isAlpha = true ↔ (65 ≤ c.toNat ∧ c.toNat ≤ 90) ∨ (97 ≤ c.toNat ∧ c.toNat ≤ 122) :=
  Bool.or_eq_true_iff.trans (or_congr isUpper_iff isLower_iff)

theorem Text.isHexDigit_iff :
    Text.isHexDigit c = true
      ↔ (c.isDigit = true ∨ (97 ≤ c.toNat ∧ c.toNat ≤ 102)) ∨ (65 ≤ c.toNat ∧ c.toNat ≤ 70) := by
  simp only [Text.isHexDigit, Bool.or_eq_true, Bool.and_eq_true, decide_eq_true_eq]
  rfl

theorem isHexDigit_of_isDigit (digit : c.isDigit = true) : Text.isHexDigit c = true :=
  Text.isHexDigit_iff.mpr (Or.inl (Or.inl digit))

/-- Identifiers have letters, digits, underscores and hyphens. -/
theorem isIdentifierChar_iff :
    isIdentifierChar c = true ↔ ((c.isAlpha = true ∨ c.isDigit = true) ∨ c = '_') ∨ c = '-' := by
  simp only [isIdentifierChar, Char.isAlphanum, Bool.or_eq_true, beq_iff_eq]

theorem isIdentifierChar_of_isHexDigit (hex : Text.isHexDigit c = true) :
    isIdentifierChar c = true := by
  rw [isIdentifierChar_iff, isAlpha_iff]
  rcases Text.isHexDigit_iff.mp hex with (digit | small) | capital
  · exact Or.inl (Or.inl (Or.inr digit))
  · exact Or.inl (Or.inl (Or.inl (Or.inr ⟨small.1, by omega⟩)))
  · exact Or.inl (Or.inl (Or.inl (Or.inl ⟨capital.1, by omega⟩)))

theorem toNat_of_isIdentifierChar (plain : isIdentifierChar c = true) : 45 ≤ c.toNat ∧ c.toNat ≤ 122 := by
  rcases isIdentifierChar_iff.mp plain with ((letter | digit) | rfl) | rfl
  · have range := isAlpha_iff.mp letter
    omega
  · have range := isDigit_iff.mp digit
    omega
  · decide
  · decide

theorem not_isBlank_of_isIdentifierChar (plain : isIdentifierChar c = true) : isBlank c = false := by
  have range := toNat_of_isIdentifierChar plain
  simp only [isBlank, Bool.or_eq_false_iff, Bool.and_eq_false_iff, decide_eq_false_iff_not,
    beq_eq_false_iff_ne]
  omega

/-! ### Small letters -/

/-- A digit is its own small letter. -/
theorem toLower_of_isDigit (digit : c.isDigit = true) : c.toLower = c := by
  have range := isDigit_iff.mp digit
  unfold Char.toLower
  split
  next upper =>
    have letter : c.isUpper = true := decide_eq_true upper
    have range' := isUpper_iff.mp letter
    omega
  next => rfl

/-- The small letters of hexadecimal digits are hexadecimal digits. -/
theorem Text.isHexDigit_toLower (hex : Text.isHexDigit c = true) : Text.isHexDigit c.toLower = true := by
  have listed : ∀ n < 123, Text.isHexDigit (Char.ofNat n) = true →
      Text.isHexDigit (Char.ofNat n).toLower = true := by decide
  have bound := (toNat_of_isIdentifierChar (isIdentifierChar_of_isHexDigit hex)).2
  simpa using listed c.toNat (by omega) (by simpa using hex)

/-! ### ASCII texts -/

/-- What holds of the characters of a list is decided on these characters, not on all there are. -/
instance decidableForallMem (holds : Char → Prop) [DecidablePred holds] (chars : List Char) :
    Decidable (∀ c ∈ chars, holds c) :=
  List.decidableBAll holds chars

/-- A text of ASCII characters. -/
def IsAscii (text : Text) : Prop :=
  ∀ c ∈ text, c.toNat < 128

instance (text : Text) : Decidable (IsAscii text) :=
  inferInstanceAs (Decidable (∀ c ∈ text, c.toNat < 128))

/-- The small letters of ASCII text are those of its characters. -/
theorem Text.lowerCase_of_ascii {text : Text} (ascii : IsAscii text) :
    Text.lowerCase text = text.map Char.toLower := by
  have behind : ∀ before, lowerCaseFrom before text = text.map Char.toLower := by
    induction text with
    | nil => exact fun _ => rfl
    | cons c text ih =>
      intro before
      have small := ascii c List.mem_cons_self
      have notSigma : c ≠ '\u03A3' := by
        rintro rfl
        exact absurd small (by decide)
      have notDotted : c ≠ '\u0130' := by
        rintro rfl
        exact absurd small (by decide)
      rw [lowerCaseFrom, ih (fun d member => ascii d (List.mem_cons_of_mem _ member))]
      simp only [notSigma, notDotted, if_false, lowerLetter, small, if_true]
      rfl
  exact behind []

/-- An ASCII character is one byte. -/
theorem IsAscii.byteLength_eq {text : Text} (ascii : IsAscii text) : Text.byteLength text = text.length := by
  induction text with
  | nil => rfl
  | cons c text ih =>
    have one : c.utf8Size = 1 := Char.utf8Size_eq_one_iff.mpr (UInt32.le_iff_toNat_le.mpr (by
      have small : c.toNat < 128 := ascii c List.mem_cons_self
      exact Nat.le_of_lt_succ small))
    have behind : Text.byteLength text = text.length := ih fun d member => ascii d (List.mem_cons_of_mem c member)
    calc Text.byteLength (c :: text) = c.utf8Size + Text.byteLength text := rfl
      _ = (c :: text).length := by rw [one, behind, List.length_cons, Nat.add_comm]

end Relabel
