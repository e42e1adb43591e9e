/-
**UTF-16 loses nothing.**

A unit that is not a surrogate is a character, and so are a high surrogate and the low one behind it. Nothing else is:
neither a surrogate alone, nor two in the wrong order, nor an odd byte at the end.

* `Utf16.IsForm`: the forms of characters in either byte order.
* `Utf16.isForm_iff`: they are the forms of the characters.
* `Utf16.decodes`: the decoder passes one form after the other.
* `Utf16.decode?_eq_some_iff`: it gives back the text that has been written.
-/

import Relabel.Encoding.Utf16
import Relabel.Proofs.Encoding.Utf8

namespace Relabel.Utf16

variable {order : ByteOrder} {read text : Text} {rest bytes form : Bytes} {unit high low : Nat} {c : Char} {a b : UInt8}

/-! ### Units -/

theorem unitOf_lt (order : ByteOrder) (a b : UInt8) : unitOf order a b < 0x10000 := by
  have first := a.toNat_lt
  have second := b.toNat_lt
  cases order <;> simp only [unitOf] <;> omega

/-- Two bytes are those of their unit. -/
theorem unitBytes_unitOf (order : ByteOrder) (a b : UInt8) : unitBytes order (unitOf order a b) = [a, b] := by
  have first := a.toNat_lt
  have second := b.toNat_lt
  cases order with
  | littleEndian =>
    simp only [unitBytes, unitOf]
    rw [Utf8.toUInt8_eq (b := a) (by omega), Utf8.toUInt8_eq (b := b) (by omega)]
  | bigEndian =>
    simp only [unitBytes, unitOf]
    rw [Utf8.toUInt8_eq (b := a) (by omega), Utf8.toUInt8_eq (b := b) (by omega)]

/-- A unit has two bytes, and is theirs. -/
theorem exists_unitBytes (order : ByteOrder) (small : unit < 0x10000) :
    ∃ a b, unitBytes order unit = [a, b] ∧ unitOf order a b = unit := by
  cases order with
  | littleEndian =>
    refine ⟨_, _, rfl, ?_⟩
    simp (disch := omega) only [unitOf, Utf8.toNat_toUInt8]
    omega
  | bigEndian =>
    refine ⟨_, _, rfl, ?_⟩
    simp (disch := omega) only [unitOf, Utf8.toNat_toUInt8]
    omega

/-! ### Characters -/

/-- A unit that is one half of a character. -/
def IsSurrogate (unit : Nat) : Prop :=
  0xD800 ≤ unit ∧ unit < 0xE000

/-- The first half of a character. -/
def IsHigh (unit : Nat) : Prop :=
  0xD800 ≤ unit ∧ unit < 0xDC00

/-- The second half of a character. -/
def IsLow (unit : Nat) : Prop :=
  0xDC00 ≤ unit ∧ unit < 0xE000

/-- The units of characters. -/
inductive IsUnits : List Nat → Prop
  | single {unit : Nat} (small : unit < 0x10000) (whole : ¬ IsSurrogate unit) : IsUnits [unit]
  | pair {high low : Nat} (first : IsHigh high) (second : IsLow low) : IsUnits [high, low]

/-- **The units of a character**, and no others. -/
theorem isUnits_iff {units : List Nat} : IsUnits units ↔ ∃ c, charUnits c = units := by
  constructor
  · intro isUnits
    cases isUnits with
    | @single unit small whole =>
      unfold IsSurrogate at whole
      obtain ⟨c, rfl⟩ := Utf8.exists_char (n := unit) (by unfold Nat.isValidChar; omega)
      exact ⟨c, if_pos small⟩
    | @pair high low first second =>
      obtain ⟨least, most⟩ := first
      obtain ⟨least', most'⟩ := second
      obtain ⟨c, code⟩ := Utf8.exists_char (n := 0x10000 + (high - 0xD800) * 0x400 + (low - 0xDC00)) (by right; omega)
      have first : 0xD800 + (c.toNat - 0x10000) / 0x400 = high := by omega
      have second : 0xDC00 + (c.toNat - 0x10000) % 0x400 = low := by omega
      refine ⟨c, ?_⟩
      unfold charUnits
      rw [if_neg (by omega), first, second]
  · rintro ⟨c, rfl⟩
    have valid : c.toNat < 0xD800 ∨ 0xDFFF < c.toNat ∧ c.toNat < 0x110000 := c.valid
    unfold charUnits
    split
    next small => exact .single small (by unfold IsSurrogate; omega)
    next => exact .pair (by unfold IsHigh; omega) (by unfold IsLow; omega)

/-- The bytes of one character. -/
def charBytes (order : ByteOrder) (c : Char) : Bytes :=
  (charUnits c).flatMap (unitBytes order)

theorem encode_eq_flatMap (order : ByteOrder) (text : Text) : encode order text = text.flatMap (charBytes order) :=
  List.flatMap_assoc

/-- The forms of characters in a byte order. -/
inductive IsForm (order : ByteOrder) : Bytes → Prop
  | single {a b : UInt8} (whole : ¬ IsSurrogate (unitOf order a b)) : IsForm order [a, b]
  | pair {a b c d : UInt8} (first : IsHigh (unitOf order a b)) (second : IsLow (unitOf order c d)) :
      IsForm order [a, b, c, d]

/-- **Every form** is that of a character. -/
theorem isForm_iff : IsForm order form ↔ ∃ c, charBytes order c = form := by
  constructor
  · intro isForm
    cases isForm with
    | @single a b whole =>
      obtain ⟨c, units⟩ := isUnits_iff.mp (.single (unitOf_lt order a b) whole)
      exact ⟨c, by simp [charBytes, units, unitBytes_unitOf]⟩
    | @pair a b a' b' first second =>
      obtain ⟨c, units⟩ := isUnits_iff.mp (.pair first second)
      exact ⟨c, by simp [charBytes, units, unitBytes_unitOf]⟩
  · rintro ⟨c, rfl⟩
    have units := isUnits_iff.mpr ⟨c, rfl⟩
    unfold charBytes
    cases written : charUnits c with
    | nil => rw [written] at units; cases units
    | cons unit others =>
      rw [written] at units
      cases units with
      | single small whole =>
        obtain ⟨a, b, two, rfl⟩ := exists_unitBytes order small
        simpa [two] using IsForm.single whole
      | @pair _ low first second =>
        obtain ⟨a, b, two, rfl⟩ := exists_unitBytes order (first.2.trans (by decide))
        obtain ⟨a', b', two', rfl⟩ := exists_unitBytes order (second.2.trans (by decide))
        simpa [two, two'] using IsForm.pair first second

/-! ### Decoding -/

theorem pair?_eq_some_iff :
    pair? high low = some c
      ↔ IsHigh high ∧ IsLow low ∧ c.toNat = 0x10000 + (high - 0xD800) * 0x400 + (low - 0xDC00) := by
  unfold pair? IsHigh IsLow
  split
  next halves =>
    simp only [Bool.and_eq_true, decide_eq_true_eq] at halves
    simp [scalar?_eq_some_iff, halves]
  next other =>
    simp only [Bool.and_eq_true, decide_eq_true_eq] at other
    simp only [reduceCtorEq, false_iff]
    grind

theorem decodeFrom?_single (alone : single? (unitOf order a b) = some c) :
    decodeFrom? order read (a :: b :: rest) = decodeFrom? order (c :: read) rest := by
  conv_lhs => unfold decodeFrom?
  rw [alone]

theorem decodeFrom?_surrogate (alone : single? (unitOf order a b) = none) (a' b' : UInt8) :
    decodeFrom? order read (a :: b :: a' :: b' :: rest)
      = (pair? (unitOf order a b) (unitOf order a' b')).bind fun c => decodeFrom? order (c :: read) rest := by
  rw [decodeFrom?, alone]
  dsimp only
  cases pair? (unitOf order a b) (unitOf order a' b') <;> rfl

/-- **The decoder passes the form of a character.** -/
theorem decodeFrom?_charBytes (read : Text) (c : Char) (rest : Bytes) :
    decodeFrom? order read (charBytes order c ++ rest) = decodeFrom? order (c :: read) rest := by
  have bound := Utf8.toNat_lt c
  unfold charBytes charUnits
  split
  next small =>
    obtain ⟨a, b, two, unit⟩ := exists_unitBytes order small
    simp only [List.flatMap_cons, List.flatMap_nil, two, List.append_nil, List.cons_append, List.nil_append]
    exact decodeFrom?_single (scalar?_eq_some_iff.mpr unit.symm)
  next =>
    have smallHigh : 0xD800 + (c.toNat - 0x10000) / 0x400 < 0x10000 := by omega
    have smallLow : 0xDC00 + (c.toNat - 0x10000) % 0x400 < 0x10000 := by omega
    obtain ⟨a, b, two, high⟩ := exists_unitBytes order smallHigh
    obtain ⟨a', b', two', low⟩ := exists_unitBytes order smallLow
    have notAlone : single? (unitOf order a b) = none := if_neg (by unfold Nat.isValidChar; omega)
    have both : pair? (unitOf order a b) (unitOf order a' b') = some c :=
      pair?_eq_some_iff.mpr ⟨by unfold IsHigh; omega, by unfold IsLow; omega, by omega⟩
    simp only [List.flatMap_cons, List.flatMap_nil, two, two', List.append_nil, List.cons_append, List.nil_append]
    rw [decodeFrom?_surrogate notAlone, both, Option.bind_some]

/-- **What is read begins with a form.** -/
theorem exists_form (decoded : decodeFrom? order read bytes = some text) (nonempty : bytes ≠ []) :
    ∃ form rest, bytes = form ++ rest ∧ IsForm order form := by
  match bytes, nonempty with
  | [_], _ => exact absurd decoded nofun
  | a :: b :: rest, _ =>
    cases alone : single? (unitOf order a b) with
    | some c =>
      have code : c.toNat = unitOf order a b := scalar?_eq_some_iff.mp alone
      have valid : c.toNat < 0xD800 ∨ 0xDFFF < c.toNat ∧ c.toNat < 0x110000 := c.valid
      exact ⟨[a, b], rest, rfl, .single (by unfold IsSurrogate; omega)⟩
    | none =>
      match rest with
      | [] | [_] =>
        simp only [decodeFrom?, alone] at decoded
        exact absurd decoded nofun
      | a' :: b' :: rest =>
        rw [decodeFrom?_surrogate alone] at decoded
        obtain ⟨c, both, -⟩ := Option.bind_eq_some_iff.mp decoded
        obtain ⟨first, second, -⟩ := pair?_eq_some_iff.mp both
        exact ⟨[a, b, a', b'], rest, rfl, .pair first second⟩

/-- **The decoder passes one form after the other.** -/
theorem decodes (order : ByteOrder) : Decodes (charBytes order) (decodeFrom? order) where
  nonempty c empty := by
    have isForm := isForm_iff.mpr ⟨c, empty⟩
    cases isForm
  done _ := rfl
  next := decodeFrom?_charBytes
  begins decoded nonempty := by
    obtain ⟨form, rest, rfl, isForm⟩ := exists_form decoded nonempty
    obtain ⟨c, rfl⟩ := isForm_iff.mp isForm
    exact ⟨c, rest, rfl⟩

/-- **Decoding gives back the text that has been written**, and nothing else. -/
theorem decode?_eq_some_iff : decode? order bytes = some text ↔ encode order text = bytes := by
  rw [encode_eq_flatMap]
  exact (decodes order).eq_some_iff

end Relabel.Utf16
