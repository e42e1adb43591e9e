/-
**UTF-8 loses nothing.**

The forms of characters are given by the ranges of their bytes. The second byte is the one to look at: behind some
first bytes it must not be so small that fewer bytes would do, or so great that a surrogate or a number beyond the
last code point would be written. Every character has such a form, and the decoder passes it as a whole.

* `Utf8.IsForm`: the forms, by their bytes.
* `Utf8.isForm_iff`: they are the forms of the characters.
* `Utf8.decodes`: the decoder passes one form after the other.
* `Utf8.decode?_eq_some_iff`: it gives back the text that has been written.
-/

import Relabel.Proofs.Encoding.Forms
import Relabel.Proofs.Text.ByteOrder

namespace Relabel.Utf8

/-! ### Bytes -/

theorem toNat_toUInt8 {n : Nat} (small : n < 256) : n.toUInt8.toNat = n := by
  simp [Nat.mod_eq_of_lt small]

theorem toUInt8_eq {n : Nat} {b : UInt8} (same : n = b.toNat) : n.toUInt8 = b := by
  rw [same, Nat.toUInt8_eq, UInt8.ofNat_toNat]

/-- The characters have all code points but those of surrogates. -/
theorem exists_char {n : Nat} (valid : n.isValidChar) : ∃ c : Char, c.toNat = n :=
  ⟨Char.ofNat n, scalar?_eq_some_iff.mp (if_pos valid)⟩

/-! ### Forms by their bytes -/

/-- A byte behind the first one of a form. -/
def IsTail (b : UInt8) : Prop :=
  0x80 ≤ b.toNat ∧ b.toNat < 0xC0

/-- The forms of characters. -/
inductive IsForm : Bytes → Prop
  | one {a : UInt8} (lead : a.toNat < 0x80) : IsForm [a]
  | two {a b : UInt8} (lead : 0xC2 ≤ a.toNat ∧ a.toNat < 0xE0) (second : IsTail b) : IsForm [a, b]
  | three {a b c : UInt8} (lead : 0xE0 ≤ a.toNat ∧ a.toNat < 0xF0) (second : IsTail b) (third : IsTail c)
      (needed : a.toNat = 0xE0 → 0xA0 ≤ b.toNat) (noSurrogate : a.toNat = 0xED → b.toNat < 0xA0) : IsForm [a, b, c]
  | four {a b c d : UInt8} (lead : 0xF0 ≤ a.toNat ∧ a.toNat < 0xF5) (second : IsTail b) (third : IsTail c)
      (fourth : IsTail d) (needed : a.toNat = 0xF0 → 0x90 ≤ b.toNat) (inRange : a.toNat = 0xF4 → b.toNat < 0x90) :
      IsForm [a, b, c, d]

/-- **Every character** has such a form. -/
theorem isForm_encodeChar (c : Char) : IsForm (encodeChar c) := by
  have valid : c.toNat < 0xD800 ∨ 0xDFFF < c.toNat ∧ c.toNat < 0x110000 := c.valid
  unfold encodeChar
  dsimp only
  split
  next small => exact .one (by rw [toNat_toUInt8 (by omega)]; exact small)
  next =>
    split
    next small =>
      refine .two ?_ ?_ <;> simp (disch := omega) only [IsTail, toNat_toUInt8] <;> omega
    next =>
      split
      next small =>
        refine .three ?_ ?_ ?_ ?_ ?_ <;> simp (disch := omega) only [IsTail, toNat_toUInt8] <;> omega
      next =>
        refine .four ?_ ?_ ?_ ?_ ?_ ?_ <;> simp (disch := omega) only [IsTail, toNat_toUInt8] <;> omega

/-- **Every form** is that of a character. -/
theorem isForm_iff {form : Bytes} : IsForm form ↔ ∃ c, encodeChar c = form := by
  constructor
  · intro isForm
    cases isForm with
    | @one a lead =>
      obtain ⟨x, code⟩ := exists_char (n := a.toNat) (by left; omega)
      refine ⟨x, ?_⟩
      simp only [encodeChar, code]
      rw [if_pos lead, toUInt8_eq rfl]
    | @two a b lead second =>
      obtain ⟨low, high⟩ := second
      obtain ⟨x, code⟩ := exists_char (n := (a.toNat - 0xC0) * 0x40 + (b.toNat - 0x80)) (by left; omega)
      refine ⟨x, ?_⟩
      simp only [encodeChar, code]
      rw [if_neg (by omega), if_pos (by omega), toUInt8_eq (b := a) (by omega), toUInt8_eq (b := b) (by omega)]
    | @three a b c lead second third needed noSurrogate =>
      obtain ⟨low, high⟩ := second
      obtain ⟨low', high'⟩ := third
      obtain ⟨x, code⟩ := exists_char
        (n := ((a.toNat - 0xE0) * 0x40 + (b.toNat - 0x80)) * 0x40 + (c.toNat - 0x80))
        (by unfold Nat.isValidChar; omega)
      refine ⟨x, ?_⟩
      simp only [encodeChar, code]
      rw [if_neg (by omega), if_neg (by omega), if_pos (by omega), toUInt8_eq (b := a) (by omega),
        toUInt8_eq (b := b) (by omega), toUInt8_eq (b := c) (by omega)]
    | @four a b c d lead second third fourth needed inRange =>
      obtain ⟨low, high⟩ := second
      obtain ⟨low', high'⟩ := third
      obtain ⟨low'', high''⟩ := fourth
      obtain ⟨x, code⟩ := exists_char
        (n := (((a.toNat - 0xF0) * 0x40 + (b.toNat - 0x80)) * 0x40 + (c.toNat - 0x80)) * 0x40 + (d.toNat - 0x80))
        (by right; omega)
      refine ⟨x, ?_⟩
      simp only [encodeChar, code]
      rw [if_neg (by omega), if_neg (by omega), if_neg (by omega), toUInt8_eq (b := a) (by omega),
        toUInt8_eq (b := b) (by omega), toUInt8_eq (b := c) (by omega), toUInt8_eq (b := d) (by omega)]
  · rintro ⟨c, rfl⟩
    exact isForm_encodeChar c

/-! ### Decoding -/

variable {read text : Text} {rest bytes : Bytes} {b : UInt8} {owed lowest bits : Nat} {begun : Begun}

theorem decodeFrom?_ascii (ascii : b.toNat < 0x80) :
    decodeFrom? read none (b :: rest) = decodeFrom? (Char.ofNat b.toNat :: read) none rest := by
  rw [decodeFrom?]
  exact if_pos ascii

theorem decodeFrom?_begin (long : 0x80 ≤ b.toNat) (begins : begin? b = some begun) :
    decodeFrom? read none (b :: rest) = decodeFrom? read (some begun) rest := by
  simp only [decodeFrom?, if_neg (Nat.not_lt.mpr long), begins]

theorem continuation?_eq_some_iff {more : Nat} :
    continuation? b = some more ↔ IsTail b ∧ more = b.toNat - 0x80 := by
  unfold continuation? IsTail
  split
  next within =>
    simp only [Bool.and_eq_true, decide_eq_true_eq] at within
    simp [within, eq_comm]
  next outside =>
    simp only [Bool.and_eq_true, decide_eq_true_eq] at outside
    simp [outside]

theorem decodeFrom?_more (tail : IsTail b) :
    decodeFrom? read (some ⟨owed + 2, lowest, bits⟩) (b :: rest)
      = decodeFrom? read (some ⟨owed + 1, lowest, bits * 0x40 + (b.toNat - 0x80)⟩) rest := by
  simp only [decodeFrom?, continuation?_eq_some_iff.mpr ⟨tail, rfl⟩]
  exact if_pos (by omega)

theorem longForm?_eq_some_iff {n : Nat} {c : Char} : longForm? lowest n = some c ↔ lowest ≤ n ∧ c.toNat = n := by
  unfold longForm?
  split
  next enough => simp [scalar?_eq_some_iff, enough]
  next short => simp [short]

theorem decodeFrom?_last {c : Char} (tail : IsTail b) (long : lowest ≤ c.toNat)
    (code : c.toNat = bits * 0x40 + (b.toNat - 0x80)) :
    decodeFrom? read (some ⟨1, lowest, bits⟩) (b :: rest) = decodeFrom? (c :: read) none rest := by
  simp only [decodeFrom?, continuation?_eq_some_iff.mpr ⟨tail, rfl⟩, lt_irrefl, if_false,
    longForm?_eq_some_iff.mpr ⟨code ▸ long, code⟩]

/-- What the first byte of a longer form begins. -/
theorem begin?_eq_some_iff :
    begin? b = some begun
      ↔ (0xC0 ≤ b.toNat ∧ b.toNat < 0xE0) ∧ begun = ⟨1, 0x80, b.toNat - 0xC0⟩
        ∨ (0xE0 ≤ b.toNat ∧ b.toNat < 0xF0) ∧ begun = ⟨2, 0x800, b.toNat - 0xE0⟩
        ∨ (0xF0 ≤ b.toNat ∧ b.toNat < 0xF8) ∧ begun = ⟨3, 0x10000, b.toNat - 0xF0⟩ := by
  unfold begin?
  dsimp only
  split_ifs <;> simp only [Option.some.injEq, eq_comm (a := begun)] <;> grind

/-- **The decoder passes the form of a character.** -/
theorem decodeFrom?_encodeChar (read : Text) (c : Char) (rest : Bytes) :
    decodeFrom? read none (encodeChar c ++ rest) = decodeFrom? (c :: read) none rest := by
  have bound := toNat_lt c
  have tail : ∀ n : Nat, IsTail (0x80 + n % 0x40).toUInt8 ∧ (0x80 + n % 0x40).toUInt8.toNat - 0x80 = n % 0x40 := by
    intro n
    rw [IsTail, toNat_toUInt8 (by omega)]
    omega
  unfold encodeChar
  dsimp only
  split
  next small =>
    rw [List.singleton_append, decodeFrom?_ascii (by rw [toNat_toUInt8 (by omega)]; exact small),
      toNat_toUInt8 (by omega), Char.ofNat_toNat]
  next =>
    split
    next small =>
      have lead : (0xC0 + c.toNat / 0x40).toUInt8.toNat = 0xC0 + c.toNat / 0x40 := toNat_toUInt8 (by omega)
      rw [List.cons_append, List.singleton_append, decodeFrom?_begin (by omega)
        (begin?_eq_some_iff.mpr (.inl ⟨by omega, rfl⟩)),
        decodeFrom?_last (c := c) (tail _).1 (by omega) (by rw [(tail _).2, lead]; omega)]
    next =>
      split
      next small =>
        have lead : (0xE0 + c.toNat / 0x1000).toUInt8.toNat = 0xE0 + c.toNat / 0x1000 := toNat_toUInt8 (by omega)
        rw [List.cons_append, List.cons_append, List.singleton_append, decodeFrom?_begin (by omega)
          (begin?_eq_some_iff.mpr (.inr (.inl ⟨by omega, rfl⟩))), decodeFrom?_more (tail _).1,
          decodeFrom?_last (c := c) (tail _).1 (by omega) (by rw [(tail _).2, (tail _).2, lead]; omega)]
      next =>
        have lead : (0xF0 + c.toNat / 0x40000).toUInt8.toNat = 0xF0 + c.toNat / 0x40000 := toNat_toUInt8 (by omega)
        rw [List.cons_append, List.cons_append, List.cons_append, List.singleton_append, decodeFrom?_begin (by omega)
          (begin?_eq_some_iff.mpr (.inr (.inr ⟨by omega, rfl⟩))), decodeFrom?_more (tail _).1,
          decodeFrom?_more (tail _).1,
          decodeFrom?_last (c := c) (tail _).1 (by omega) (by rw [(tail _).2, (tail _).2, (tail _).2, lead]; omega)]

/-- What is read begins with the next byte of the form that has been begun, which is the last one or not. -/
theorem exists_tail (decoded : decodeFrom? read (some ⟨owed + 1, lowest, bits⟩) bytes = some text) :
    ∃ b rest, bytes = b :: rest ∧ IsTail b
      ∧ (owed = 0 → ∃ c : Char, lowest ≤ c.toNat ∧ c.toNat = bits * 0x40 + (b.toNat - 0x80))
      ∧ (0 < owed → decodeFrom? read (some ⟨owed, lowest, bits * 0x40 + (b.toNat - 0x80)⟩) rest = some text) := by
  cases bytes with
  | nil => exact absurd decoded nofun
  | cons b rest =>
    rw [decodeFrom?] at decoded
    cases continued : continuation? b with
    | none => simp [continued] at decoded
    | some more =>
      obtain ⟨tail, value⟩ := continuation?_eq_some_iff.mp continued
      rw [continued] at decoded
      dsimp only at decoded
      rw [value] at decoded
      refine ⟨b, rest, rfl, tail, ?_, fun others => ?_⟩
      · rintro rfl
        rw [if_neg (by omega)] at decoded
        cases found : longForm? lowest (bits * 0x40 + (b.toNat - 0x80)) with
        | none => simp [found] at decoded
        | some c =>
          obtain ⟨enough, code⟩ := longForm?_eq_some_iff.mp found
          exact ⟨c, code ▸ enough, code⟩
      · rwa [if_pos (by omega)] at decoded

/-- **What is read begins with a form.** -/
theorem exists_form (decoded : decodeFrom? read none bytes = some text) (nonempty : bytes ≠ []) :
    ∃ form rest, bytes = form ++ rest ∧ IsForm form := by
  obtain ⟨a, rest, rfl⟩ := List.exists_cons_of_ne_nil nonempty
  by_cases ascii : a.toNat < 0x80
  · exact ⟨[a], rest, rfl, .one ascii⟩
  · rw [decodeFrom?, if_neg ascii] at decoded
    cases begins : begin? a with
    | none => simp [begins] at decoded
    | some begun =>
      rw [begins] at decoded
      dsimp only at decoded
      obtain ⟨lead, rfl⟩ | ⟨lead, rfl⟩ | ⟨lead, rfl⟩ := begin?_eq_some_iff.mp begins
      · obtain ⟨b, rest, rfl, second, last, -⟩ := exists_tail decoded
        obtain ⟨x, enough, code⟩ := last rfl
        have ⟨low, high⟩ := second
        exact ⟨[a, b], rest, rfl, .two (by omega) second⟩
      · obtain ⟨b, rest, rfl, second, -, more⟩ := exists_tail decoded
        obtain ⟨c, rest, rfl, third, last, -⟩ := exists_tail (more (by omega))
        obtain ⟨x, enough, code⟩ := last rfl
        have valid : x.toNat < 0xD800 ∨ 0xDFFF < x.toNat ∧ x.toNat < 0x110000 := x.valid
        have ⟨low, high⟩ := second
        have ⟨low', high'⟩ := third
        exact ⟨[a, b, c], rest, rfl, .three lead second third (by omega) (by omega)⟩
      · obtain ⟨b, rest, rfl, second, -, more⟩ := exists_tail decoded
        obtain ⟨c, rest, rfl, third, -, more⟩ := exists_tail (more (by omega))
        obtain ⟨d, rest, rfl, fourth, last, -⟩ := exists_tail (more (by omega))
        obtain ⟨x, enough, code⟩ := last rfl
        have bound := toNat_lt x
        have ⟨low, high⟩ := second
        have ⟨low', high'⟩ := third
        have ⟨low'', high''⟩ := fourth
        exact ⟨[a, b, c, d], rest, rfl, .four (by omega) second third fourth (by omega) (by omega)⟩

/-- **The decoder passes one form after the other.** -/
theorem decodes : Decodes encodeChar (decodeFrom? · none ·) where
  nonempty := encodeChar_ne_nil
  done _ := rfl
  next := decodeFrom?_encodeChar
  begins decoded nonempty := by
    obtain ⟨form, rest, rfl, isForm⟩ := exists_form decoded nonempty
    obtain ⟨c, rfl⟩ := isForm_iff.mp isForm
    exact ⟨c, rest, rfl⟩

/-- **Decoding gives back the text that has been written**, and nothing else. -/
theorem decode?_eq_some_iff : decode? bytes = some text ↔ encode text = bytes :=
  decodes.eq_some_iff

end Relabel.Utf8
