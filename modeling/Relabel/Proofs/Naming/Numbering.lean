/-
**Generated names tell ranks and numbers apart.**

A generated name is a given beginning, a rank with zeros in front, an underscore, six hexadecimal
digits and perhaps an underscore and a number. The beginning may itself end in digits and
underscores, yet the same beginning stands in front of all names, and behind it a numeral ends at the
first underscore.

* `Text.decimal_injective`, `Text.padZeros_decimal_injective`: numerals tell numbers apart.
* `numberedName_injective`: the variants of one name differ.
* `numberedName_baseName_ne`: no variants of names of different ranks are alike.
* `isIdentifierStart_numberedName`: every variant may begin an identifier if the beginning may.
-/

import Mathlib.Tactic
import Relabel.Naming.Generate
import Relabel.Proofs.Text.Letters

namespace Relabel

/-! ### Numerals -/

namespace Text

/-- Decimal numerals tell numbers apart. -/
theorem decimal_injective : Function.Injective decimal := by
  intro m n same
  have values := congrArg (fun digits => Nat.ofDigitChars 10 digits 0) same
  simpa [decimal, Nat.ofDigitChars_ten_toDigits] using values

/-- Zeros in front of decimal numerals change nothing about that. -/
theorem padZeros_decimal_injective (width : Nat) :
    Function.Injective fun n => padZeros width (decimal n) := by
  intro m n same
  have values := congrArg (fun digits => Nat.ofDigitChars 10 digits 0) same
  simpa [padZeros, decimal, Nat.ofDigitChars_append, Nat.ofDigitChars_replicate_zero,
    Nat.ofDigitChars_ten_toDigits] using values

theorem isDigit_of_mem_decimal {n : Nat} {c : Char} (member : c ∈ decimal n) : c.isDigit = true :=
  Nat.isDigit_of_mem_toDigits (by decide) (by decide) member

theorem isDigit_of_mem_padZeros {width n : Nat} {c : Char}
    (member : c ∈ padZeros width (decimal n)) : c.isDigit = true := by
  rcases List.mem_append.mp member with zero | digit
  · rw [List.eq_of_mem_replicate zero]
    decide
  · exact isDigit_of_mem_decimal digit

theorem isHexDigit_digitChar {n : Nat} (small : n < 16) : isHexDigit (Nat.digitChar n) = true := by
  have digits : ∀ n < 16, isHexDigit (Nat.digitChar n) = true := by decide
  exact digits n small

/-- The digits of hexadecimal numerals are hexadecimal. The induction is on the number. -/
theorem isHexDigit_of_mem_hex {n : Nat} {c : Char} (member : c ∈ hex n) : isHexDigit c = true := by
  induction n using Nat.strongRecOn with
  | ind n ih =>
    unfold hex at member ih
    rw [Nat.toDigits_eq_if (by decide)] at member
    split at member
    next small =>
      rw [List.mem_singleton.mp member]
      exact isHexDigit_digitChar small
    next =>
      rcases List.mem_append.mp member with front | last
      · exact ih (n / 16) (by omega) front
      · rw [List.mem_singleton.mp last]
        exact isHexDigit_digitChar (by omega)

end Text

/-- What stands before the first character that is no digit is decided by the whole text. -/
theorem eq_of_append_underscore {first second behind behind' : Text}
    (firstDigits : ∀ c ∈ first, c.isDigit = true) (secondDigits : ∀ c ∈ second, c.isDigit = true)
    (same : first ++ '_' :: behind = second ++ '_' :: behind') : first = second := by
  have cutAt : ∀ digits rest : Text, (∀ c ∈ digits, c.isDigit = true) →
      (digits ++ '_' :: rest).takeWhile Char.isDigit = digits := by
    intro digits rest allDigits
    rw [List.takeWhile_append_of_pos allDigits]
    simp [show Char.isDigit '_' = false by decide]
  have prefixes := congrArg (List.takeWhile Char.isDigit) same
  rwa [cutAt first _ firstDigits, cutAt second _ secondDigits] at prefixes

/-! ### Characters -/

/-- A byte is written with digits of values below 16. -/
theorem Sha256.exists_of_mem_hexByte {b : UInt8} {c : Char} (member : c ∈ hexByte b) :
    ∃ n < 16, c = Nat.digitChar n := by
  have small : b.toNat < 256 := b.toNat_lt
  rcases List.mem_cons.mp member with first | inRest
  · exact ⟨_, by omega, first⟩
  · exact ⟨_, by omega, List.mem_singleton.mp inRest⟩

/-- The digits of a digest are hexadecimal. -/
theorem isHexDigit_of_mem_shortDigest {token : Text} {c : Char} (member : c ∈ shortDigest token) :
    Text.isHexDigit c = true := by
  obtain ⟨byte, _, inByte⟩ := List.mem_flatMap.mp (List.mem_of_mem_take member)
  obtain ⟨n, small, rfl⟩ := Sha256.exists_of_mem_hexByte inByte
  exact Text.isHexDigit_digitChar small

/-! ### Variants -/

/-- The variants of one name differ. -/
theorem numberedName_injective (name : Text) : Function.Injective (numberedName name) := by
  intro j k same
  unfold numberedName at same
  by_cases jZero : j = 0 <;> by_cases kZero : k = 0
  · rw [jZero, kZero]
  · simp [jZero, kZero] at same
  · simp [jZero, kZero] at same
  · simp only [jZero, kZero, if_false, List.append_cancel_left_eq] at same
    exact Text.decimal_injective same

/-- A variant of a base name, taken apart behind the rank. -/
theorem numberedName_baseName_eq (start : Text) (rank : Nat) (token : Text) (k : Nat) :
    ∃ behind, numberedName (baseName start rank token) k
        = start ++ (Text.padZeros 3 (Text.decimal rank) ++ '_' :: behind)
      ∧ ∀ c ∈ behind, Text.isHexDigit c = true ∨ c = '_' := by
  have inDigest : ∀ c ∈ shortDigest token, Text.isHexDigit c = true :=
    fun c => isHexDigit_of_mem_shortDigest
  unfold numberedName baseName
  split
  · refine ⟨shortDigest token, by simp, fun c member => Or.inl (inDigest c member)⟩
  · refine ⟨shortDigest token ++ '_' :: Text.decimal k, by simp, fun c member => ?_⟩
    rcases List.mem_append.mp member with digest | numbered
    · exact Or.inl (inDigest c digest)
    · rcases List.mem_cons.mp numbered with underscore | digit
      · exact Or.inr underscore
      · exact Or.inl (isHexDigit_of_isDigit (Text.isDigit_of_mem_decimal digit))

/-- No variants of names of different ranks are alike. -/
theorem numberedName_baseName_ne {start first second : Text} {rank rank' : Nat}
    (different : rank ≠ rank') (j k : Nat) :
    numberedName (baseName start rank first) j ≠ numberedName (baseName start rank' second) k := by
  obtain ⟨behind, left, _⟩ := numberedName_baseName_eq start rank first j
  obtain ⟨behind', right, _⟩ := numberedName_baseName_eq start rank' second k
  rw [left, right]
  intro same
  have numerals := eq_of_append_underscore (fun _ => Text.isDigit_of_mem_padZeros)
    (fun _ => Text.isDigit_of_mem_padZeros) (List.append_cancel_left same)
  exact different (Text.padZeros_decimal_injective 3 numerals)

/-! ### Identifiers -/

theorem isIdentifierStart_append {start behind : Text} (valid : isIdentifierStart start = true)
    (plain : ∀ c ∈ behind, isIdentifierChar c = true) :
    isIdentifierStart (start ++ behind) = true := by
  cases start with
  | nil => simp [isIdentifierStart] at valid
  | cons c rest =>
    simp only [isIdentifierStart, Bool.and_eq_true, List.cons_append, List.all_append] at valid ⊢
    exact ⟨valid.1, valid.2, List.all_eq_true.mpr plain⟩

/-- Every variant of a base name may begin an identifier if the beginning may. -/
theorem isIdentifierStart_numberedName {start : Text} (valid : isIdentifierStart start = true)
    (rank : Nat) (token : Text) (k : Nat) :
    isIdentifierStart (numberedName (baseName start rank token) k) = true := by
  obtain ⟨behind, parts, plain⟩ := numberedName_baseName_eq start rank token k
  rw [parts]
  refine isIdentifierStart_append valid fun c member => ?_
  rcases List.mem_append.mp member with inRank | inRest
  · exact isIdentifierChar_of_isHexDigit
      (isHexDigit_of_isDigit (Text.isDigit_of_mem_padZeros inRank))
  · rcases List.mem_cons.mp inRest with rfl | inBehind
    · decide
    · rcases plain c inBehind with hex | rfl
      · exact isIdentifierChar_of_isHexDigit hex
      · decide

/-- The last character of a variant is a hexadecimal digit or an underscore. -/
theorem getLast?_numberedName (start : Text) (rank : Nat) (token : Text) (k : Nat) :
    ∃ c, (numberedName (baseName start rank token) k).getLast? = some c
      ∧ (Text.isHexDigit c = true ∨ c = '_') := by
  obtain ⟨behind, parts, plain⟩ := numberedName_baseName_eq start rank token k
  refine ⟨('_' :: behind).getLast (by simp), ?_, ?_⟩
  · rw [parts, ← List.append_assoc, List.getLast?_append_of_ne_nil _ (by simp),
      List.getLast?_eq_getLast_of_ne_nil]
  · rcases List.mem_cons.mp (List.getLast_mem (l := '_' :: behind) (by simp)) with same | inBehind
    · exact Or.inr same
    · exact plain _ inBehind

end Relabel
