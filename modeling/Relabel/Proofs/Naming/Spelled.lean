/-
**How names are spelled.**

A generated name is told here by its characters, apart from the functions that write it: what names begin with, a
numeral that is wide enough, an underscore and six digits of a digest. The numeral and the digits are told by what a
reader makes of them.

* `PaddedNumeral`, `LeadingDigits`: the parts of a name, and `Wanted`: the whole of it.
* `wanted_baseName`: the names that are wanted are spelled this way.
* `IsIdentifier`: what names are made of.
-/

import Relabel.Proofs.Naming.Numbering

namespace Relabel

/-! ### Numerals -/

/-- A number in decimal digits, with as many zeros in front as the width asks for. -/
structure PaddedNumeral (width n : Nat) (numeral : Text) : Prop where
  digits : ∀ c ∈ numeral, c.isDigit = true
  value : Nat.ofDigitChars 10 numeral 0 = n
  wide : width ≤ numeral.length
  /-- It is wider only if the number takes all of its digits. -/
  tight : width < numeral.length → 10 ^ (numeral.length - 1) ≤ n

theorem paddedNumeral_padZeros {width : Nat} (positive : 0 < width) (n : Nat) :
    PaddedNumeral width n (Text.padZeros width (Text.decimal n)) where
  digits _ := Text.isDigit_of_mem_padZeros
  value := by
    simp [Text.padZeros, Text.decimal, Nat.ofDigitChars_append, Nat.ofDigitChars_replicate_zero,
      Nat.ofDigitChars_ten_toDigits]
  wide := by
    simp only [Text.padZeros, List.length_append, List.length_replicate]
    omega
  tight wider := by
    simp only [Text.padZeros, List.length_append, List.length_replicate, Text.decimal] at wider ⊢
    have noZeros : width - (Nat.toDigits 10 n).length = 0 := by omega
    rw [noZeros, Nat.zero_add]
    -- One digit less than there are does not suffice.
    have needed : ¬ (Nat.toDigits 10 n).length ≤ (Nat.toDigits 10 n).length - 1 := by omega
    rw [Nat.length_toDigits_le_iff (by decide) (by omega)] at needed
    exact Nat.le_of_not_lt needed

/-! ### Digests -/

/-- The first six digits of a digest, in small hexadecimal: they write its first three bytes. -/
structure LeadingDigits (digest : Bytes) (digits : Text) : Prop where
  length_eq : digits.length = 6
  isHex : ∀ c ∈ digits, c ∈ "0123456789abcdef".toList
  value : ∃ first second third rest, digest = first :: second :: third :: rest
    ∧ Text.ofDigits 16 digits = (first.toNat * 256 + second.toNat) * 256 + third.toNat

/-- A digest has more than three bytes. -/
theorem Sha256.exists_digest_eq (message : Bytes) :
    ∃ first second third rest, Sha256.digest message = first :: second :: third :: rest :=
  ⟨_, _, _, _, rfl⟩

theorem hexValue_digitChar {n : Nat} (small : n < 16) : Text.hexValue? (Nat.digitChar n) = some n := by
  have values : ∀ n < 16, Text.hexValue? (Nat.digitChar n) = some n := by decide
  exact values n small

/-- Two digits write a byte. -/
theorem foldl_hexByte (b : UInt8) (value : Nat) :
    (Sha256.hexByte b).foldl (fun value c => value * 16 + (Text.hexValue? c).getD 0) value
      = value * 256 + b.toNat := by
  have small : b.toNat < 256 := b.toNat_lt
  simp only [Sha256.hexByte, List.foldl_cons, List.foldl_nil, hexValue_digitChar (n := b.toNat / 16) (by omega),
    hexValue_digitChar (n := b.toNat % 16) (by omega), Option.getD_some]
  omega

theorem leadingDigits_shortDigest (token : Text) :
    LeadingDigits (Sha256.digest (Utf8.encode token)) (shortDigest token) := by
  obtain ⟨first, second, third, rest, bytes⟩ := Sha256.exists_digest_eq (Utf8.encode token)
  have digits : shortDigest token = Sha256.hexByte first ++ (Sha256.hexByte second ++ Sha256.hexByte third) := by
    simp [shortDigest, Sha256.hexDigest, bytes, Sha256.hexByte]
  have inByte : ∀ b, ∀ c ∈ Sha256.hexByte b, c ∈ "0123456789abcdef".toList := by
    have listed : ∀ n < 16, Nat.digitChar n ∈ "0123456789abcdef".toList := by decide
    intro b c member
    obtain ⟨n, small, rfl⟩ := Sha256.exists_of_mem_hexByte member
    exact listed n small
  refine ⟨by rw [digits]; rfl, ?_, first, second, third, rest, bytes, ?_⟩
  · rw [digits]
    exact List.forall_mem_append.mpr ⟨inByte first, List.forall_mem_append.mpr ⟨inByte second, inByte third⟩⟩
  · rw [digits, Text.ofDigits]
    simp only [List.foldl_append, foldl_hexByte]
    omega

/-! ### Names -/

/-- The name that is wanted for the token of a given rank: what names begin with, the rank in three digits or more,
an underscore and the first six digits of the digest of the token. -/
def Wanted (start : Text) (rank : Nat) (token wanted : Text) : Prop :=
  ∃ numeral digits, wanted = start ++ numeral ++ "_" ++ digits
    ∧ PaddedNumeral 3 rank numeral ∧ LeadingDigits (Sha256.digest (Utf8.encode token)) digits

theorem wanted_baseName (start : Text) (rank : Nat) (token : Text) :
    Wanted start rank token (baseName start rank token) :=
  ⟨_, _, rfl, paddedNumeral_padZeros (by decide) rank, leadingDigits_shortDigest token⟩

/-- A letter of ASCII or an underscore, and then such letters, digits, underscores and hyphens. -/
def IsIdentifier (name : Text) : Prop :=
  ∃ c rest, name = c :: rest ∧ (c.isAlpha = true ∨ c = '_')
    ∧ ∀ d ∈ rest, d.isAlphanum = true ∨ d = '_' ∨ d = '-'

theorem isIdentifierStart_iff {name : Text} : isIdentifierStart name = true ↔ IsIdentifier name := by
  constructor
  · intro valid
    cases name with
    | nil => simp [isIdentifierStart] at valid
    | cons c rest =>
      simp only [isIdentifierStart, isIdentifierChar, Bool.and_eq_true, Bool.or_eq_true, beq_iff_eq, List.all_eq_true,
        or_assoc] at valid
      exact ⟨c, rest, rfl, valid⟩
  · rintro ⟨c, rest, rfl, first, others⟩
    simp only [isIdentifierStart, isIdentifierChar, Bool.and_eq_true, Bool.or_eq_true, beq_iff_eq, List.all_eq_true,
      or_assoc]
    exact ⟨first, others⟩

end Relabel
