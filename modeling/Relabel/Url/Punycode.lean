/-
**Punycode.**

Host names are written with ASCII characters. The characters of a label beyond ASCII are taken in
order of their code points; each is recorded by the number of steps since the one before, where a
step is a place of the label or the next code point. The numbers are written with digits whose
thresholds adapt to the sizes seen before.

* `Punycode.encode`: the ASCII form of a label, which is ASCII: `Punycode.encode_ascii`.
* `Punycode.decode?`: the label with a given ASCII form.
-/

import Relabel.Encoding.Utf8

namespace Relabel.Punycode

/-! ### Digits -/

/-- The digit of a value below 36: a letter, or behind the letters a numeral. -/
def digit (value : Nat) : Char :=
  if value < 26 then Char.ofNat ('a'.toNat + value) else Char.ofNat ('0'.toNat + (value - 26))

/-- The value of a digit, in small letters. -/
def digitValue? (c : Char) : Option Nat :=
  if c.isLower then some (c.toNat - 'a'.toNat)
  else if c.isDigit then some (c.toNat - '0'.toNat + 26)
  else none

/-- The threshold of the digit at weight `weight`, between 1 and 26. -/
def threshold (bias weight : Nat) : Nat :=
  max 1 (min 26 (weight - bias))

/-- The digits of a number, from the digit at weight `weight` on. -/
def digits (bias weight number : Nat) : Text :=
  let t := threshold bias weight
  if number < t then [digit number]
  else digit (t + (number - t) % (36 - t)) :: digits bias (weight + 36) ((number - t) / (36 - t))
termination_by number
decreasing_by
  have lower : 1 ≤ threshold bias weight := by unfold threshold; omega
  have shrinks := Nat.div_le_self (number - threshold bias weight) (36 - threshold bias weight)
  omega

/-- Shrinks a number until it is at most 455, counting 36 for each division by 35. -/
def shrink (weight number : Nat) : Nat × Nat :=
  if 455 < number then shrink (weight + 36) (number / 35) else (weight, number)
termination_by number
decreasing_by exact Nat.div_lt_self (by omega) (by omega)

/-- The bias after a number has been written for the `count`th character. -/
def adapt (number count : Nat) (isFirst : Bool) : Nat :=
  let scaled := if isFirst then number / 700 else number / 2
  let (weight, rest) := shrink 0 (scaled + scaled / count)
  weight + 36 * rest / (rest + 38)

/-! ### Encoding -/

/-- What has been written of a label. -/
structure Encoder where
  /-- The characters that are written or recorded. -/
  handled : Nat
  bias : Nat
  /-- The steps since the character recorded last. -/
  steps : Nat
  /-- The least code point that is not handled. -/
  next : Nat
  /-- The digits so far. -/
  output : Text

/-- Passes one character of the label while the characters with code point `n` are recorded. -/
def Encoder.pass (ascii n : Nat) (state : Encoder) (c : Char) : Encoder :=
  if c.toNat < n then { state with steps := state.steps + 1 }
  else if c.toNat = n then
    { state with
      output := state.output ++ digits state.bias 36 state.steps
      bias := adapt state.steps (state.handled + 1) (state.handled == ascii)
      steps := 0
      handled := state.handled + 1 }
  else state

/-- Records all characters of the label with code point `n`. -/
def Encoder.record (label : Text) (ascii : Nat) (state : Encoder) (n : Nat) : Encoder :=
  let steps := state.steps + (n - state.next) * (state.handled + 1)
  let passed := label.foldl (Encoder.pass ascii n) { state with steps }
  { passed with steps := passed.steps + 1, next := n + 1 }

/-- The code points beyond ASCII that occur in a label, each once, in increasing order. -/
def foreignPoints (label : Text) : List Nat :=
  ((label.map Char.toNat).filter (0x80 ≤ ·)).mergeSort.eraseReps

/-- The ASCII form of a label: its ASCII characters, a hyphen if there are any, and the digits. -/
def encode (label : Text) : Text :=
  let plain := label.filter (·.toNat < 0x80)
  let start : Encoder := ⟨plain.length, 72, 0, 0x80, []⟩
  let state := (foreignPoints label).foldl (Encoder.record label plain.length) start
  (if plain = [] then [] else plain ++ ['-']) ++ state.output

/-! ### The form is ASCII -/

theorem digit_ascii {value : Nat} (small : value < 36) : (digit value).toNat < 0x80 := by
  have listed : ∀ value < 36, (digit value).toNat < 0x80 := by decide
  exact listed value small

theorem threshold_le (bias weight : Nat) : threshold bias weight ≤ 26 := by
  unfold threshold
  omega

/-- The digits of a number are ASCII. The induction is on the number, which its digits divide. -/
theorem digits_ascii (bias weight number : Nat) : ∀ c ∈ digits bias weight number, c.toNat < 0x80 := by
  have bound := threshold_le bias weight
  fun_induction digits bias weight number with
  | case1 weight number t last =>
    intro c member
    rw [List.mem_singleton.mp member]
    exact digit_ascii (by omega)
  | case2 weight number t more ih =>
    have small := Nat.mod_lt (number - t) (y := 36 - t) (by omega)
    exact List.forall_mem_cons.mpr ⟨digit_ascii (by omega), ih (threshold_le _ _)⟩

/-- What has been written of a label is ASCII. -/
def Encoder.Ascii (state : Encoder) : Prop :=
  ∀ c ∈ state.output, c.toNat < 0x80

theorem Encoder.Ascii.pass {state : Encoder} (ascii : state.Ascii) (count n : Nat) (c : Char) :
    (state.pass count n c).Ascii := by
  unfold Encoder.pass
  split
  · exact ascii
  · split
    · exact List.forall_mem_append.mpr ⟨ascii, digits_ascii _ _ _⟩
    · exact ascii

theorem Encoder.Ascii.foldl_pass {state : Encoder} (ascii : state.Ascii) (count n : Nat) (label : Text) :
    (label.foldl (Encoder.pass count n) state).Ascii := by
  induction label generalizing state with
  | nil => exact ascii
  | cons c label ih => exact ih (ascii.pass count n c)

theorem Encoder.Ascii.record {state : Encoder} (ascii : state.Ascii) (label : Text) (count n : Nat) :
    (state.record label count n).Ascii := by
  let state' : Encoder := { state with steps := state.steps + (n - state.next) * (state.handled + 1) }
  have ascii' : state'.Ascii := ascii
  exact ascii'.foldl_pass count n label

theorem Encoder.Ascii.foldl_record {state : Encoder} (ascii : state.Ascii) (label : Text) (count : Nat)
    (points : List Nat) : (points.foldl (Encoder.record label count) state).Ascii := by
  induction points generalizing state with
  | nil => exact ascii
  | cons n points ih => exact ih (ascii.record label count n)

/-- **The ASCII form of a label** is ASCII. -/
theorem encode_ascii (label : Text) : ∀ c ∈ encode label, c.toNat < 0x80 := by
  have start : Encoder.Ascii ⟨(label.filter (·.toNat < 0x80)).length, 72, 0, 0x80, []⟩ :=
    fun _ absent => absurd absent List.not_mem_nil
  refine List.forall_mem_append.mpr ⟨?_, start.foldl_record label _ _⟩
  split
  · exact fun _ absent => absurd absent List.not_mem_nil
  · refine List.forall_mem_append.mpr ⟨fun c member => ?_, by decide⟩
    exact of_decide_eq_true (List.mem_filter.mp member).2

/-! ### Decoding -/

/-- Reads a number from the digit at weight `weight` on, whose digits count `place` times their
value. -/
def readNumber? (bias weight place : Nat) : Text → Option (Nat × Text)
  | [] => none
  | c :: rest =>
    match digitValue? c with
    | none => none
    | some value =>
      let t := threshold bias weight
      if value < t then some (value * place, rest)
      else
        (readNumber? bias (weight + 36) (place * (36 - t)) rest).map fun (more, rest) =>
          (value * place + more, rest)

/-- Inserts the characters that digits record into a label. `steps` counts from the first code point
and place. At most `fuel` characters are inserted. -/
def insertRecorded? (isFirst : Bool) (bias steps : Nat) (label : Text) :
    (fuel : Nat) → Text → Option Text
  | _, [] => some label
  | 0, _ => none
  | fuel + 1, digits =>
    match readNumber? bias 36 1 digits with
    | none => none
    | some (number, rest) =>
      let count := label.length + 1
      let total := steps + number
      match scalar? (0x80 + total / count) with
      | none => none
      | some c =>
        let place := total % count
        let label := label.take place ++ c :: label.drop place
        insertRecorded? false (adapt number count isFirst)
          (total / count * (count + 1) + place + 1) label fuel rest

/-- The label with a given ASCII form. -/
def decode? (ascii : Text) : Option Text :=
  match Text.cutLast '-' ascii with
  | some (plain, digits) => insertRecorded? true 72 0 plain digits.length digits
  | none => insertRecorded? true 72 0 [] ascii.length ascii

end Relabel.Punycode
