/-
**The order of texts is the order of their bytes.**

Texts are compared by code points, and files that hold them by bytes. UTF-8 is made so that the two
orders agree: a greater character has a greater form, whatever follows either form.

* `Utf8.encodeChar_append_lt`: one character decides the order of bytes.
* `Utf8.encode_lt_encode_iff`: the order of two texts is that of their UTF-8 forms.
-/

import Mathlib.Tactic
import Relabel.Encoding.Utf8
import Relabel.Proofs.Container.Lookup

namespace Relabel.Utf8

/-! ### Bytes of numbers -/

theorem toUInt8_lt_iff {m n : Nat} (mByte : m < 256) (nByte : n < 256) :
    m.toUInt8 < n.toUInt8 ↔ m < n := by
  rw [UInt8.lt_iff_toNat_lt]
  simp [Nat.mod_eq_of_lt, mByte, nByte]

theorem toUInt8_eq_iff {m n : Nat} (mByte : m < 256) (nByte : n < 256) :
    m.toUInt8 = n.toUInt8 ↔ m = n := by
  rw [← UInt8.toNat_inj]
  simp [Nat.mod_eq_of_lt, mByte, nByte]

/-- The first bytes that differ decide. -/
theorem byte_cons_lt_iff {m n : Nat} (mByte : m < 256) (nByte : n < 256) (s t : Bytes) :
    m.toUInt8 :: s < n.toUInt8 :: t ↔ m < n ∨ m = n ∧ s < t := by
  rw [List.cons_lt_cons_iff, toUInt8_lt_iff mByte nByte, toUInt8_eq_iff mByte nByte]

/-! ### Characters -/

theorem toNat_lt (c : Char) : c.toNat < 0x110000 := by
  rcases c.valid with low | high
  · exact Nat.lt_trans low (by decide)
  · exact high.2

/-- One character decides the order of bytes. -/
theorem encodeChar_append_lt {c d : Char} (less : c < d) (s t : Bytes) :
    encodeChar c ++ s < encodeChar d ++ t := by
  have less : c.toNat < d.toNat := less
  have bound := toNat_lt d
  simp only [encodeChar]
  -- A longer form begins with a greater byte; two forms of one length differ in some byte.
  split_ifs <;> simp (disch := omega) only [List.cons_append, List.nil_append, byte_cons_lt_iff] <;>
    omega

theorem encodeChar_ne_nil (c : Char) : encodeChar c ≠ [] := by
  simp only [encodeChar]
  split_ifs <;> simp

/-! ### Texts -/

@[simp]
theorem encode_cons (c : Char) (text : Text) : encode (c :: text) = encodeChar c ++ encode text :=
  rfl

theorem encode_lt_encode {a b : Text} (less : a < b) : encode a < encode b := by
  induction a generalizing b with
  | nil =>
    cases b with
    | nil => exact absurd less (List.lt_irrefl _)
    | cons d b =>
      rw [encode_cons]
      cases form : encodeChar d with
      | nil => exact absurd form (encodeChar_ne_nil d)
      | cons byte bytes => exact List.nil_lt_cons _ _
  | cons c a ih =>
    cases b with
    | nil => exact absurd less (List.not_lt_nil _)
    | cons d b =>
      rcases List.cons_lt_cons_iff.mp less with first | ⟨rfl, behind⟩
      · exact encodeChar_append_lt first _ _
      · exact List.append_left_lt (ih behind)

/-- **The order of two texts is that of their UTF-8 forms.** -/
theorem encode_lt_encode_iff {a b : Text} : encode a < encode b ↔ a < b := by
  refine ⟨fun less => ?_, encode_lt_encode⟩
  by_contra notLess
  by_cases same : a = b
  · exact List.lt_irrefl _ (same ▸ less)
  · have reverse := encode_lt_encode (OrderedMap.lt_of_not_lt notLess same)
    exact List.lt_irrefl _ (List.lt_trans less reverse)

end Relabel.Utf8
