/-
**Texts in forms of bytes.**

An encoding gives each character a form in bytes, and a text is written as the forms of its characters. Which bytes
are forms can be said without characters, by their ranges. A decoder that passes one form after the other gives back
exactly the text that was written, and has none where something else stands.

* `FormsOf`: bytes that are forms, one after the other.
* `formsOf_iff`: these are the texts that are written.
* `Decodes.eq_some_iff`: what a decoder of forms gives back.
-/

import Mathlib.Tactic
import Relabel.Encoding.Utf8

namespace Relabel

/-! ### Scalar values -/

/-- Every number that is not a surrogate and not out of range is the code point of a character. -/
theorem scalar?_eq_some_iff {n : Nat} {c : Char} : scalar? n = some c ↔ c.toNat = n := by
  unfold scalar?
  constructor
  · intro found
    split at found
    next valid =>
      obtain rfl := Option.some.inj found
      rw [Char.ofNat, dif_pos valid]
      rfl
    next => exact absurd found nofun
  · rintro rfl
    rw [if_pos (show c.toNat.isValidChar from c.valid), Char.ofNat_toNat]

/-! ### Forms -/

variable {write : Char → Bytes} {isForm : Bytes → Prop} {bytes : Bytes} {text : Text}

/-- Bytes that are forms, one after the other. -/
inductive FormsOf (isForm : Bytes → Prop) : Bytes → Prop
  | nil : FormsOf isForm []
  | cons {form rest : Bytes} (first : isForm form) (others : FormsOf isForm rest) : FormsOf isForm (form ++ rest)

/-- **Bytes that are forms** are those that write a text, if the forms are those of characters. -/
theorem formsOf_iff (forms : ∀ form, isForm form ↔ ∃ c, write c = form) :
    FormsOf isForm bytes ↔ ∃ text : Text, text.flatMap write = bytes := by
  constructor
  · intro all
    induction all with
    | nil => exact ⟨[], rfl⟩
    | cons first others ih =>
      obtain ⟨c, rfl⟩ := (forms _).mp first
      obtain ⟨text, rfl⟩ := ih
      exact ⟨c :: text, rfl⟩
  · rintro ⟨text, rfl⟩
    induction text with
    | nil => exact .nil
    | cons c text ih => exact .cons ((forms _).mpr ⟨c, rfl⟩) ih

/-- A decoder that passes one form after the other. The characters it has read come first, last one first. -/
structure Decodes (write : Char → Bytes) (decodeFrom : Text → Bytes → Option Text) : Prop where
  nonempty : ∀ c, write c ≠ []
  done : ∀ read, decodeFrom read [] = some read.reverse
  next : ∀ read c rest, decodeFrom read (write c ++ rest) = decodeFrom (c :: read) rest
  begins : ∀ {read bytes text}, decodeFrom read bytes = some text → bytes ≠ [] → ∃ c rest, bytes = write c ++ rest

namespace Decodes

variable {decodeFrom : Text → Bytes → Option Text} (decodes : Decodes write decodeFrom)

include decodes

/-- A text that is written is read. -/
theorem decode_write (read text : Text) : decodeFrom read (text.flatMap write) = some (read.reverse ++ text) := by
  induction text generalizing read with
  | nil => exact (decodes.done read).trans (by simp)
  | cons c text ih => rw [List.flatMap_cons, decodes.next, ih]; simp

/-- What is read has been written. The induction is on the number of bytes, of which each form takes some. -/
theorem exists_write (size : Nat) : ∀ {read bytes text}, bytes.length ≤ size → decodeFrom read bytes = some text →
    ∃ behind, text = read.reverse ++ behind ∧ behind.flatMap write = bytes := by
  induction size with
  | zero =>
    intro read bytes text small decoded
    obtain rfl := List.length_eq_zero_iff.mp (Nat.le_zero.mp small)
    exact ⟨[], by simpa using (Option.some.inj (decoded.symm.trans (decodes.done read))), rfl⟩
  | succ size ih =>
    intro read bytes text small decoded
    by_cases empty : bytes = []
    · subst empty
      exact ⟨[], by simpa using (Option.some.inj (decoded.symm.trans (decodes.done read))), rfl⟩
    · obtain ⟨c, rest, rfl⟩ := decodes.begins decoded empty
      have positive := List.length_pos_of_ne_nil (decodes.nonempty c)
      rw [List.length_append] at small
      rw [decodes.next] at decoded
      obtain ⟨behind, rfl, rfl⟩ := ih (by omega) decoded
      exact ⟨c :: behind, by simp, rfl⟩

/-- **A decoder gives back what has been written**, and nothing else. -/
theorem eq_some_iff : decodeFrom [] bytes = some text ↔ text.flatMap write = bytes := by
  constructor
  · intro decoded
    obtain ⟨behind, rfl, written⟩ := decodes.exists_write bytes.length le_rfl decoded
    exact written
  · rintro rfl
    exact decodes.decode_write [] text

end Decodes

end Relabel
