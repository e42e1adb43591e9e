/-
**Documents are read as they are written.**

A document in UTF-8 or UTF-16 is read as the text whose bytes it holds, and not at all if there is no such text. The
label of the document names its encoding, but a byte order mark at the beginning knows better.

* `Unicode`: the three encodings in which every text can be written.
* `Unicode.decode?_eq_some_iff`: what is read is what is written.
* `WrittenIn`: the encoding of a content and the bytes of its text.
* `loadDocument_faithful`: what reading a file comes to.
-/

import Relabel.Command.Tables
import Relabel.Document.Read
import Relabel.Proofs.Encoding.Utf16

namespace Relabel

/-- The encodings in which every text can be written. -/
inductive Unicode where
  | utf8
  | utf16 (order : Utf16.ByteOrder)
  deriving DecidableEq

namespace Unicode

/-- The encoding with its name and labels. -/
def encoding : Unicode → Encoding
  | utf8 => .utf8
  | utf16 order => .utf16 order

/-- The bytes of a text. -/
def encode : Unicode → Text → Bytes
  | utf8 => Utf8.encode
  | utf16 order => Utf16.encode order

/-- Bytes that are forms of characters, one after the other. -/
def WellFormed : Unicode → Bytes → Prop
  | utf8 => FormsOf Utf8.IsForm
  | utf16 order => FormsOf (Utf16.IsForm order)

/-- The byte order mark is a character that has another form in each encoding. -/
def mark (unicode : Unicode) : Bytes :=
  unicode.encode ['\uFEFF']

variable {unicode : Unicode} {bytes rest : Bytes} {text : Text}

/-- **What is read is what is written.** -/
theorem decode?_eq_some_iff [LegacyEncodings] :
    unicode.encoding.decode? bytes = some text ↔ unicode.encode text = bytes := by
  cases unicode with
  | utf8 => exact Utf8.decode?_eq_some_iff
  | utf16 order => cases order <;> exact Utf16.decode?_eq_some_iff

/-- **Well-formed bytes** are those of a text. -/
theorem wellFormed_iff : unicode.WellFormed bytes ↔ ∃ text, unicode.encode text = bytes := by
  cases unicode with
  | utf8 => exact formsOf_iff fun _ => Utf8.isForm_iff
  | utf16 order =>
    simp only [encode, Utf16.encode_eq_flatMap]
    exact formsOf_iff fun _ => Utf16.isForm_iff

theorem encode_append (unicode : Unicode) (first second : Text) :
    unicode.encode (first ++ second) = unicode.encode first ++ unicode.encode second := by
  cases unicode with
  | utf8 => exact List.flatMap_append
  | utf16 order =>
    simp only [encode, Utf16.encode_eq_flatMap]
    exact List.flatMap_append

/-! ### Marks -/

theorem cutMark?_mark (unicode : Unicode) (rest : Bytes) :
    cutMark? (unicode.mark ++ rest) = some (unicode.encoding, rest) := by
  cases unicode with
  | utf8 => rfl
  | utf16 order => cases order <;> rfl

/-- **A mark is cut off** where there is one. -/
theorem exists_mark {content : Bytes} {encoding : Encoding} (cut : cutMark? content = some (encoding, rest)) :
    ∃ unicode : Unicode, content = unicode.mark ++ rest ∧ encoding = unicode.encoding := by
  unfold cutMark? at cut
  split at cut
  · obtain ⟨rfl, rfl⟩ := Prod.mk.inj (Option.some.inj cut)
    exact ⟨.utf8, rfl, rfl⟩
  · obtain ⟨rfl, rfl⟩ := Prod.mk.inj (Option.some.inj cut)
    exact ⟨.utf16 .littleEndian, rfl, rfl⟩
  · obtain ⟨rfl, rfl⟩ := Prod.mk.inj (Option.some.inj cut)
    exact ⟨.utf16 .bigEndian, rfl, rfl⟩
  · exact absurd cut nofun

theorem encoding_injective : Function.Injective encoding := by
  intro first second same
  have names : first.encoding.name = second.encoding.name := congrArg Encoding.name same
  rcases first with _ | (_ | _) <;> rcases second with _ | (_ | _) <;> first | rfl | exact absurd names (by decide)

end Unicode

/-! ### Contents -/

/-- The encoding of a content that is said to be in a given one, and the bytes of its text: those behind the mark at
the beginning, or all bytes if there is none. -/
inductive WrittenIn (said : Unicode) (content : Bytes) : Unicode → Bytes → Prop
  | marked {unicode : Unicode} {bytes : Bytes} (begins : content = unicode.mark ++ bytes) :
      WrittenIn said content unicode bytes
  | unmarked (bare : ∀ unicode : Unicode, ¬ unicode.mark <+: content) : WrittenIn said content said content

/-- The encoding that the label of a document names. Without a label it is UTF-8. -/
inductive Labelled : Option Text → Unicode → Prop
  | absent : Labelled none .utf8
  | named {label : Text} {said : Unicode} (names : Encoding.ofLabel? label = some said.encoding) :
    Labelled (some label) said

section Contents

variable {said unicode : Unicode} {content bytes : Bytes} {text path : Text} {label : Option Text}

/-- **Decoding follows the mark**, and the label where there is none. -/
theorem writtenIn_iff :
    WrittenIn said content unicode bytes
      ↔ (cutMark? content).getD (said.encoding, content) = (unicode.encoding, bytes) := by
  constructor
  · rintro (begins | bare)
    · rw [begins, unicode.cutMark?_mark]
      rfl
    · cases cut : cutMark? content with
      | none => rfl
      | some parts =>
        obtain ⟨encoding, rest⟩ := parts
        obtain ⟨other, rfl, -⟩ := Unicode.exists_mark cut
        exact absurd (List.prefix_append _ _) (bare other)
  · intro read
    cases cut : cutMark? content with
    | none =>
      rw [cut] at read
      obtain ⟨same, rfl⟩ := Prod.mk.inj read
      obtain rfl := Unicode.encoding_injective same
      refine .unmarked fun other => ?_
      rintro ⟨rest, rfl⟩
      exact absurd (cut.symm.trans (other.cutMark?_mark rest)) nofun
    | some parts =>
      rw [cut] at read
      obtain rfl : parts = (unicode.encoding, bytes) := read
      obtain ⟨other, rfl, same⟩ := Unicode.exists_mark cut
      obtain rfl := Unicode.encoding_injective same
      exact .marked rfl

/-- There is one way to take a content. -/
theorem writtenIn_unique (said : Unicode) (content : Bytes) :
    ∃! written : Unicode × Bytes, WrittenIn said content written.1 written.2 := by
  have taken : ∃ (unicode : Unicode) (bytes : Bytes),
      (cutMark? content).getD (said.encoding, content) = (unicode.encoding, bytes) := by
    cases cut : cutMark? content with
    | none => exact ⟨said, content, rfl⟩
    | some parts =>
      obtain ⟨encoding, rest⟩ := parts
      obtain ⟨unicode, -, rfl⟩ := Unicode.exists_mark cut
      exact ⟨unicode, rest, rfl⟩
  obtain ⟨unicode, bytes, read⟩ := taken
  refine ⟨(unicode, bytes), writtenIn_iff.mpr read, fun other written => ?_⟩
  obtain ⟨same, rest⟩ := Prod.mk.inj ((writtenIn_iff.mp written).symm.trans read)
  exact Prod.ext (Unicode.encoding_injective same) rest

/-- **The text of a content** is what decoding its bytes gives. -/
theorem textOf_eq [LegacyEncodings] (labelled : Labelled label said) (written : WrittenIn said content unicode bytes) :
    textOf path label content
      = (unicode.encoding.decode? bytes).elim (.error (.undecodable path unicode.encoding.name)) .ok := by
  have decoded : decodeMarked said.encoding content = (unicode.encoding, unicode.encoding.decode? bytes) := by
    unfold decodeMarked
    rw [writtenIn_iff.mp written]
  have named : label.elim (some Encoding.utf8) Encoding.ofLabel? = some said.encoding := by
    cases labelled with
    | absent => rfl
    | named names => exact names
  unfold textOf
  rw [named]
  dsimp only
  rw [decoded]
  cases unicode.encoding.decode? bytes <;> rfl

/-- What reading a content comes to. -/
structure ReadFaithfully (said : Unicode) (path : Text) (content : Bytes) (result : Except Failure Text) : Prop where
  /-- The encoding and the bytes of the text are determined. -/
  determined : ∃! written : Unicode × Bytes, WrittenIn said content written.1 written.2
  /-- There is a text just if the bytes are well formed, -/
  read : ∀ {unicode bytes}, WrittenIn said content unicode bytes →
    ((∃ text, result = .ok text) ↔ unicode.WellFormed bytes)
  /-- and it is the one that has these bytes. -/
  kept : ∀ {unicode bytes text}, WrittenIn said content unicode bytes →
    (result = .ok text ↔ unicode.encode text = bytes)
  /-- Otherwise the input is malformed, and the user is told the encoding. -/
  refused : ∀ {unicode bytes}, WrittenIn said content unicode bytes → ¬ unicode.WellFormed bytes →
    ∃ failure, result = .error failure ∧ failure.kind = .malformedInput
      ∧ failure.detail = path ++ " is not valid " ++ unicode.encoding.name
  /-- A replacement character in the text has been written. -/
  noReplacement : ∀ {unicode bytes text}, WrittenIn said content unicode bytes → result = .ok text → '\uFFFD' ∈ text →
    unicode.encode ['\uFFFD'] <:+: bytes

/-- **Reading a document loses nothing**: it gives back the text that has been written, or says that there is none. -/
theorem loadDocument_faithful [LegacyEncodings] {disk : Disk} (readable : disk.read path = .ok content)
    (labelled : Labelled label said) :
    ∃ result, (loadDocument path label : OnDisk _) disk = (result, disk) ∧ ReadFaithfully said path content result := by
  have kept : ∀ {unicode bytes text}, WrittenIn said content unicode bytes →
      (textOf path label content = .ok text ↔ unicode.encode text = bytes) := by
    intro unicode bytes text written
    rw [textOf_eq labelled written, ← Unicode.decode?_eq_some_iff]
    cases unicode.encoding.decode? bytes <;> simp
  have read : ∀ {unicode bytes}, WrittenIn said content unicode bytes →
      ((∃ text, textOf path label content = .ok text) ↔ unicode.WellFormed bytes) := fun written =>
    (exists_congr fun _ => kept written).trans Unicode.wellFormed_iff.symm
  refine ⟨textOf path label content, ?_, writtenIn_unique said content, read, kept, ?_, ?_⟩
  · have answered : (FileSystem.readFile path : OnDisk _) disk = (.ok content, disk) := congrArg (·, disk) readable
    unfold loadDocument
    simp only [bind, StateT.bind, answered]
    rfl
  · intro unicode bytes written malformed
    refine ⟨.undecodable path unicode.encoding.name, ?_, rfl, rfl⟩
    rw [textOf_eq labelled written]
    cases decoded : unicode.encoding.decode? bytes with
    | none => rfl
    | some text => exact absurd (Unicode.wellFormed_iff.mpr ⟨text, Unicode.decode?_eq_some_iff.mp decoded⟩) malformed
  · intro unicode bytes text written result member
    obtain ⟨before, behind, rfl⟩ := List.append_of_mem member
    refine ⟨unicode.encode before, unicode.encode behind, ?_⟩
    rw [← (kept written).mp result, ← Unicode.encode_append, ← Unicode.encode_append]
    simp

end Contents

/-- A disk with a document in UTF-16, as its mark says. -/
def markedDisk : Disk :=
  ({} : Disk).place "page.html" (.file [0xFF, 0xFE, 0x61, 0x00, 0x3D, 0xD8, 0x00, 0xDE])

/-- It is so for a document whose mark contradicts its label. -/
theorem loadDocument_faithful_marked :
    markedDisk.read "page.html" = .ok [0xFF, 0xFE, 0x61, 0x00, 0x3D, 0xD8, 0x00, 0xDE]
      ∧ Labelled (some " UTF8".toList) .utf8
      ∧ ∃ result, (loadDocument "page.html" (some " UTF8".toList) : OnDisk _) markedDisk = (result, markedDisk)
        ∧ ReadFaithfully .utf8 "page.html" [0xFF, 0xFE, 0x61, 0x00, 0x3D, 0xD8, 0x00, 0xDE] result
        ∧ result = .ok "a😀".toList := by
  have readable : markedDisk.read "page.html" = .ok [0xFF, 0xFE, 0x61, 0x00, 0x3D, 0xD8, 0x00, 0xDE] := by decide +kernel
  have labelled : Labelled (some " UTF8".toList) .utf8 := .named (by decide +kernel)
  obtain ⟨result, ran, faithful⟩ := loadDocument_faithful readable labelled
  have written : WrittenIn .utf8 [0xFF, 0xFE, 0x61, 0x00, 0x3D, 0xD8, 0x00, 0xDE] (.utf16 .littleEndian)
      [0x61, 0x00, 0x3D, 0xD8, 0x00, 0xDE] := .marked (by decide +kernel)
  exact ⟨readable, labelled, result, ran, faithful, (faithful.kept written).mpr (by decide +kernel)⟩

end Relabel
