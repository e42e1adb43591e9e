/-
**The tables of the program.**

The library leaves open what the tables of Unicode say of names of hosts, and what those of many
encodings say of bytes. The program is run with what is given here. It knows the letters that stand
for plain small letters, white space and controls, and the directions of letters, but neither normal
forms nor letters that are not assigned; and it knows only the ASCII characters of the encodings.

* `Host.label?`: the ASCII form of a label.
* `plainNames`: the ASCII forms of names.
* `asciiTexts`: the texts of encodings.
-/

import Relabel.Encoding.Label
import Relabel.Text.Blank
import Relabel.Text.PlainLetter
import Relabel.Url.Direction
import Relabel.Url.Host
import Relabel.Url.Punycode

namespace Relabel

/-! ### Labels of names -/

namespace Host

/-- Whether a character beyond ASCII cannot be part of a name: white space and controls. -/
def isUnprintable (c : Char) : Bool :=
  isBlank c || (0x80 ≤ c.toNat && c.toNat < 0xA0)

/-- A label of a name, in letters of all scripts and in ASCII. -/
structure Label where
  text : Text
  ascii : Text
  isAscii : ∀ c ∈ ascii, c.toNat < 0x80

/-- The most characters of a label that are turned into ASCII. -/
def longestLabel : Nat := 1000

/-- The most characters of ASCII that are turned back into a label. -/
def longestDigits : Nat := 2000

/-- The label with a given ASCII form. It must not be ASCII itself and consists of plain letters. -/
def decodeLabel? (digits : Text) : Option Text := do
  let text ← if digits.length ≤ longestDigits then Punycode.decode? digits else none
  if text.all (·.toNat < 0x80) || text.any isUnprintable || Text.plain text ≠ text then none
  else some text

/-- The ASCII form of a label with other characters. -/
def encodeLabel (text : Text) : Text :=
  "xn--" ++ Punycode.encode text

theorem ascii_of_all {text : Text} (small : text.all (·.toNat < 0x80) = true) : ∀ c ∈ text, c.toNat < 0x80 :=
  fun c member => of_decide_eq_true (List.all_eq_true.mp small c member)

theorem encodeLabel_ascii (text : Text) : ∀ c ∈ encodeLabel text, c.toNat < 0x80 :=
  List.forall_mem_append.mpr ⟨by decide, Punycode.encode_ascii text⟩

/-- The label that a text in plain letters writes, in ASCII form or not. -/
def label? (text : Text) : Option Label :=
  if small : text.all (·.toNat < 0x80) = true then
    match Text.after? "xn--" text with
    | none => some ⟨text, text, ascii_of_all small⟩
    | some digits => (decodeLabel? digits).map fun decoded => ⟨decoded, text, ascii_of_all small⟩
  else if Text.startsWith text "xn--" || text.any isUnprintable || longestLabel < text.length then
    none
  else some ⟨text, encodeLabel text, encodeLabel_ascii text⟩

end Host

/-! ### Names -/

/-- The ASCII form of a name. -/
def plainForm? (name : Text) : Option Text := do
  let labels ← (Text.splitOn '.' (Text.plain name)).mapM Host.label?
  if keepsDirections (labels.map Host.Label.text) then
    some (Text.join "." (labels.map Host.Label.ascii))
  else none

/-- Labels in ASCII form make a name in ASCII. The induction is on the labels. -/
theorem join_ascii (labels : List Host.Label) :
    ∀ c ∈ Text.join "." (labels.map Host.Label.ascii), c.toNat < 0x80 := by
  induction labels with
  | nil => exact fun _ absent => absurd absent List.not_mem_nil
  | cons label labels ih =>
    cases labels with
    | nil =>
      show ∀ c ∈ label.ascii ++ [], c.toNat < 0x80
      rw [List.append_nil]
      exact label.isAscii
    | cons next labels =>
      have point : ∀ c ∈ ("." : Text), c.toNat < 0x80 := by decide
      exact List.forall_mem_append.mpr ⟨label.isAscii, List.forall_mem_append.mpr ⟨point, ih⟩⟩

theorem plainForm_ascii {name ascii : Text} (named : plainForm? name = some ascii) :
    ∀ c ∈ ascii, c.toNat < 0x80 := by
  simp only [plainForm?, Option.bind_eq_bind, Option.bind_eq_some_iff] at named
  obtain ⟨labels, _, made⟩ := named
  split at made
  · rw [← Option.some.inj made]
    exact join_ascii labels
  · exact absurd made nofun

/-- Names in plain letters. -/
instance plainNames : InternationalNames :=
  ⟨plainForm?, plainForm_ascii⟩

/-! ### Encodings -/

/-- The ASCII characters of an encoding. -/
instance asciiTexts : LegacyEncodings :=
  ⟨fun _ => SingleByte.decode? []⟩

end Relabel
