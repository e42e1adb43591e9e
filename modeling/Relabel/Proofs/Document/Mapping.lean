/-
**The file of the renamings tells the renamings.**

Whatever characters tokens and names have, the text of the file is read back to the entries of both renamings. A
string is followed character by character, each of which is written in one of three forms; an object is followed
member by member, and what stands around its values does not matter.

* `Json.Form`: the forms in which a string writes a character; `Json.form_escapeChar`.
* `Json.Reads`: what a piece of a text leads the reader to; `Json.Reads.append`: one piece after another.
* `Json.ReadsAs`: a text that is read as a value wherever a value may stand.
* `Json.readsAs_quoted`, `Json.readsAs_indented`: strings and objects.
* `renamingsDocument_told`: what the file of the renamings tells.
-/

import Relabel.Document.Json
import Relabel.Proofs.Container.Lookup
import Relabel.Proofs.Document.JsonReader
import Relabel.Proofs.Encoding.Forms
import Relabel.Proofs.Text.ByteOrder
import Relabel.Proofs.Text.Letters

namespace Relabel

namespace Json

/-! ### Characters of strings -/

/-- How a string writes a character. -/
inductive Form (c : Char) : Text → Prop
  | plain (printable : 0x20 ≤ c.toNat) (noQuote : c ≠ '"') (noBackslash : c ≠ '\\') : Form c [c]
  | mark {mark : Char} (escaped : escaped? mark = some c) : Form c ['\\', mark]
  | unit {digits : Text} (four : digits.length = 4) (unit : unit? digits = some c.toNat) :
    Form c ('\\' :: 'u' :: digits)

/-- **A character is written in one of its forms.** -/
theorem form_escapeChar (c : Char) : Form c (escapeChar c) := by
  have digits : ∀ n < 0x20,
      (Text.padZeros 4 (Text.hex n)).length = 4 ∧ unit? (Text.padZeros 4 (Text.hex n)) = some n := by decide
  unfold escapeChar
  split_ifs with quote backslash line carriage tab back feed low
  · exact .mark (congrArg some quote.symm)
  · exact .mark (congrArg some backslash.symm)
  · exact .mark (congrArg some line.symm)
  · exact .mark (congrArg some carriage.symm)
  · exact .mark (congrArg some tab.symm)
  · exact .mark (congrArg some back.symm)
  · exact .mark (congrArg some feed.symm)
  · obtain ⟨four, unit⟩ := digits c.toNat low
    exact .unit four unit
  · exact .plain (Nat.le_of_not_lt low) quote backslash

/-- A form of a character is taken for the character, whatever follows. -/
theorem unquote?_form {c : Char} {form : Text} (isForm : Form c form) (rest : Text) :
    unquote? (form ++ rest) = (unquote? rest).map (c :: ·) := by
  cases isForm with
  | plain printable noQuote noBackslash =>
    have kept : (decide (c.toNat < 0x20) || decide (c = '"') || decide (c = '\\')) = false := by
      simp [Nat.not_lt.mpr printable, noQuote, noBackslash]
    rw [List.cons_append, List.nil_append, unquote?.eq_def]
    split
    next same => simp at same
    next same => simp [noBackslash] at same
    next same => simp [noBackslash] at same
    next c' rest' _ _ same =>
      obtain ⟨rfl, rfl⟩ := List.cons.inj same
      rw [kept]
      rfl
  | @mark mark escaped =>
    have notUnit : mark ≠ 'u' := by
      rintro rfl
      exact absurd escaped nofun
    simp [unquote?, notUnit, escaped]
  | unit four unit =>
    obtain ⟨a, b, c', d, rfl⟩ := List.length_eq_four.mp four
    have single : Utf16.single? c.toNat = some c := scalar?_eq_some_iff.mpr rfl
    simp [unquote?, unit, single]

/-- The body of a string is the text again. -/
theorem unquote?_flatMap_escapeChar (text : Text) : unquote? (text.flatMap escapeChar) = some text := by
  induction text with
  | nil => rfl
  | cons c text ih => rw [List.flatMap_cons, unquote?_form (form_escapeChar c), ih, Option.map_some]

/-! ### Pieces of a text -/

/-- What a piece of a text leads the reader to. -/
def Reads (reader : Reader) (text : Text) (reader' : Reader) : Prop :=
  text.foldlM Reader.step reader = some reader'

variable {first middle last : Reader} {text : Text}

theorem Reads.nil : Reads first [] first :=
  rfl

/-- **One piece after another.** -/
theorem Reads.append {other : Text} (one : Reads first text middle) (two : Reads middle other last) :
    Reads first (text ++ other) last := by
  unfold Reads at *
  rw [List.foldlM_append, one]
  exact two

theorem Reads.cons {c : Char} (one : first.step c = some middle) (two : Reads middle text last) :
    Reads first (c :: text) last := by
  unfold Reads at *
  rw [List.foldlM_cons, one]
  exact two

/-- White space leads a reader nowhere that does not mind it. -/
theorem reads_blank (waits : ∀ c, isSpace c = true → first.step c = some first) (blank : ∀ c ∈ text, isSpace c = true) :
    Reads first text first := by
  induction text with
  | nil => exact Reads.nil
  | cons c text ih =>
    obtain ⟨space, behind⟩ := List.forall_mem_cons.mp blank
    exact .cons (waits c space) (ih behind)

/-! ### Strings -/

section Strings

variable {members : Option (List (Text × Value))} {read : Text} {frames : List Frame}

/-- Characters without a meaning of their own are gathered. -/
theorem reads_plain (plain : ∀ c ∈ text, c ≠ '"' ∧ c ≠ '\\') :
    Reads (.inText members read false frames) text (.inText members (text.reverse ++ read) false frames) := by
  induction text generalizing read with
  | nil => exact Reads.nil
  | cons c text ih =>
    obtain ⟨⟨noQuote, noBackslash⟩, behind⟩ := List.forall_mem_cons.mp plain
    have one : (Reader.inText members read false frames).step c = some (.inText members (c :: read) false frames) := by
      simp [Reader.step, noQuote, noBackslash]
    rw [List.reverse_cons, List.append_assoc]
    exact .cons one (ih behind)

theorem reads_form {c : Char} {form : Text} (isForm : Form c form) :
    Reads (.inText members read false frames) form (.inText members (form.reverse ++ read) false frames) := by
  have escape : ∀ {mark : Char} {rest : Text}, (∀ d ∈ rest, d ≠ '"' ∧ d ≠ '\\') →
      Reads (.inText members read false frames) ('\\' :: mark :: rest)
        (.inText members (('\\' :: mark :: rest).reverse ++ read) false frames) := by
    intro mark rest plain
    simp only [List.reverse_cons, List.append_assoc, List.cons_append, List.nil_append]
    exact .cons rfl (.cons rfl (reads_plain plain))
  cases isForm with
  | plain printable noQuote noBackslash => exact reads_plain (List.forall_mem_singleton.mpr ⟨noQuote, noBackslash⟩)
  | mark escaped => exact escape (fun d absent => absurd absent List.not_mem_nil)
  | unit four unit =>
    refine escape fun d member => ?_
    unfold unit? at unit
    split at unit
    next hex =>
      have digit := List.all_eq_true.mp hex d member
      constructor <;> rintro rfl <;> exact absurd digit (by decide)
    next => exact absurd unit nofun

/-- The body of a string is gathered. -/
theorem reads_body (text : Text) :
    Reads (.inText members read false frames) (text.flatMap escapeChar)
      (.inText members ((text.flatMap escapeChar).reverse ++ read) false frames) := by
  induction text generalizing read with
  | nil => exact Reads.nil
  | cons c text ih =>
    rw [List.flatMap_cons, List.reverse_append, List.append_assoc]
    exact (reads_form (form_escapeChar c)).append ih

/-- **A string** is read from its first quote on. -/
theorem reads_quoted {text : Text} (opens : first.step '"' = some (.inText members [] false frames))
    (closed : Reader.close members frames text = last) : Reads first (quoted text) last := by
  have closes : (Reader.inText members ((text.flatMap escapeChar).reverse ++ []) false frames).step '"'
      = some last := by
    simp [Reader.step, unquote?_flatMap_escapeChar, closed]
  unfold quoted
  rw [List.append_assoc]
  exact .cons opens ((reads_body text).append (.cons closes .nil))

end Strings

/-! ### Values -/

/-- A text that is read as a value wherever a value may stand. -/
def ReadsAs (text : Text) (value : Value) : Prop :=
  ∀ frames, Reads (.atValue frames) text (.behind value frames)

/-- **A string** stands for its text. -/
theorem readsAs_quoted (text : Text) : ReadsAs (quoted text) (.text text) :=
  fun _ => reads_quoted rfl rfl

/-- What stands between the marks of an object. -/
structure Layout where
  before : Text
  behindColon : Text
  behindComma : Text
  after : Text

namespace Layout

/-- A member with its white space. -/
def line (layout : Layout) (member : Text × Text) : Text :=
  layout.before ++ quoted member.1 ++ ':' :: layout.behindColon ++ member.2

/-- The members of an object and its end. -/
def lines (layout : Layout) (members : List (Text × Text)) : Text :=
  Text.join (',' :: layout.behindComma) (members.map layout.line) ++ layout.after ++ ['\x7d']

/-- Only white space stands between the marks. -/
structure Blank (layout : Layout) : Prop where
  before : ∀ c ∈ layout.before, isSpace c = true
  behindColon : ∀ c ∈ layout.behindColon, isSpace c = true
  behindComma : ∀ c ∈ layout.behindComma, isSpace c = true
  after : ∀ c ∈ layout.after, isSpace c = true

end Layout

section Objects

variable {layout : Layout} (blank : layout.Blank)

include blank

theorem reads_line {name text : Text} {value : Value} (reads : ReadsAs text value) (isFirst : Bool)
    (done : List (Text × Value)) (frames : List Frame) :
    Reads (.atName isFirst done frames) (layout.line (name, text)) (.behind value (.object done name :: frames)) := by
  have before : Reads (.atName isFirst done frames) layout.before (.atName isFirst done frames) :=
    reads_blank (fun c space => if_pos space) blank.before
  have named : Reads (.atName isFirst done frames) (quoted name) (.atColon done name frames) :=
    reads_quoted rfl rfl
  have gap : Reads (.atValue (.object done name :: frames)) layout.behindColon
      (.atValue (.object done name :: frames)) :=
    reads_blank (fun c space => if_pos space) blank.behindColon
  exact ((before.append named).append (.cons rfl gap)).append (reads _)

/-- **The members of an object** are read in turn. The induction is on the members. -/
theorem reads_lines {members : List (Text × Text × Value)} (nonempty : members ≠ [])
    (all : ∀ member ∈ members, ReadsAs member.2.1 member.2.2) (isFirst : Bool) (done : List (Text × Value))
    (frames : List Frame) :
    Reads (.atName isFirst done frames) (layout.lines (members.map fun member => (member.1, member.2.1)))
      (.behind (.object (done.reverse ++ members.map fun member => (member.1, member.2.2))) frames) := by
  induction members generalizing isFirst done with
  | nil => exact absurd rfl nonempty
  | cons member members ih =>
    obtain ⟨name, text, value⟩ := member
    obtain ⟨reads, behind⟩ := List.forall_mem_cons.mp all
    have line : Reads _ (layout.line (name, text)) _ := reads_line blank reads isFirst done frames
    cases members with
    | nil =>
      have after : Reads _ layout.after (.behind value (.object done name :: frames)) :=
        reads_blank (fun c space => if_pos space) blank.after
      have closes : Reads (.behind value (.object done name :: frames)) ['\x7d']
          (.behind (.object ((name, value) :: done).reverse) frames) := .cons rfl .nil
      have closed := (line.append after).append closes
      simpa [Layout.lines, Text.join] using closed
    | cons next others =>
      have gap : Reads (.atName false ((name, value) :: done) frames) layout.behindComma
          (.atName false ((name, value) :: done) frames) :=
        reads_blank (fun c space => if_pos space) blank.behindComma
      have comma : Reads (.behind value (.object done name :: frames)) [',']
          (.atName false ((name, value) :: done) frames) := .cons rfl .nil
      have rest := ih (List.cons_ne_nil _ _) behind false ((name, value) :: done)
      have whole := line.append ((comma.append gap).append rest)
      simpa [Layout.lines, Text.join] using whole

end Objects

theorem reads_brace (frames : List Frame) : Reads (.atValue frames) ['\x7b'] (.atName true [] frames) :=
  .cons rfl .nil

/-- **An object with a line for each member** stands for its members. -/
theorem readsAs_indented {margin : Text} (blankMargin : ∀ c ∈ margin, isSpace c = true)
    {members : List (Text × Text × Value)} (all : ∀ member ∈ members, ReadsAs member.2.1 member.2.2) :
    ReadsAs (indented margin (members.map fun member => (member.1, member.2.1)))
      (.object (members.map fun member => (member.1, member.2.2))) := by
  intro frames
  cases members with
  | nil => exact .cons rfl (.cons rfl .nil)
  | cons member members =>
    let layout : Layout := ⟨margin ++ "  ", " ", "\n", '\n' :: margin⟩
    have blank : layout.Blank := by
      constructor
      · exact List.forall_mem_append.mpr ⟨blankMargin, by decide⟩
      · exact List.forall_mem_singleton.mpr rfl
      · exact List.forall_mem_singleton.mpr rfl
      · exact List.forall_mem_cons.mpr ⟨rfl, blankMargin⟩
    have lineEnd : Reads (.atName true [] frames) ['\n'] (.atName true [] frames) := .cons rfl .nil
    have lines := reads_lines blank (List.cons_ne_nil _ _) all true [] frames
    have whole := (reads_brace frames).append (lineEnd.append lines)
    simpa [layout, indented, Layout.lines, Layout.line, Text.join, Function.comp_def] using whole

/-- An object ends in its brace. -/
theorem getLast?_indented (margin : Text) (members : List (Text × Text)) :
    (indented margin members).getLast? = some '\x7d' := by
  cases members with
  | nil => rfl
  | cons member members => exact List.getLast?_concat

/-- A text that is read as a value is the text of the value. -/
theorem read?_of_readsAs {text : Text} {value : Value} (reads : ReadsAs text value) : read? text = some value := by
  unfold read?
  rw [reads []]
  rfl

/-! ### Renamings -/

/-- The object with the given texts under their names. -/
def ofTexts (members : List (Text × Text)) : Value :=
  .object (members.map fun member => (member.1, .text member.2))

theorem ofTexts_injective : Function.Injective ofTexts := by
  intro first second same
  have pairs : Function.Injective fun member : Text × Text => (member.1, Value.text member.2) := by
    intro a b same
    obtain ⟨name, value⟩ := Prod.mk.inj same
    exact Prod.ext name (Value.text.inj value)
  exact List.map_injective_iff.mpr pairs (Value.object.inj same)

theorem readsAs_entry {names : Renaming} :
    ∀ member ∈ names.entries.map fun entry => (entry.1, quoted entry.2, Value.text entry.2),
      ReadsAs member.2.1 member.2.2 := by
  intro member inMembers
  obtain ⟨entry, _, rfl⟩ := List.mem_map.mp inMembers
  exact readsAs_quoted entry.2

/-- **A renaming** stands for its entries. -/
theorem readsAs_renaming (names : Renaming) : ReadsAs (indented "  " (members names)) (ofTexts names.entries) := by
  have blank : ∀ c ∈ ("  " : Text), isSpace c = true := by decide
  simpa [members, ofTexts, Function.comp_def] using readsAs_indented blank readsAs_entry

/-- Members that are the entries of a renaming, each of them once and in order of the bytes of the tokens. -/
structure EntriesOf (names : Renaming) (members : List (Text × Text)) : Prop where
  all : ∀ token name, (token, name) ∈ members ↔ names.get? token = some name
  once : (members.map Prod.fst).Nodup
  ordered : members.Pairwise fun a b => Utf8.encode a.1 < Utf8.encode b.1

theorem entriesOf_entries (names : Renaming) : EntriesOf names names.entries where
  all _ _ := OrderedMap.get?_eq_some_iff.symm
  once := List.pairwise_map.mpr (names.sorted.imp OrderedMap.ne_of_lt)
  ordered := names.sorted.imp Utf8.encode_lt_encode

end Json

open Json

/-- What the text of the renamings of a run tells. -/
structure RenamingsTold (names : Renamings) (document : Text) : Prop where
  /-- It is one JSON text and one line end. Its members are the classes and the ids, in this order, and theirs are the
  entries of the two renamings. -/
  told : ∃ body classes ids, document = body ++ ['\n'] ∧ body.getLast? = some '\x7d'
    ∧ read? body = some (.object [("classes", ofTexts classes), ("ids", ofTexts ids)])
    ∧ read? document = read? body ∧ EntriesOf names.classes classes ∧ EntriesOf names.ids ids
  /-- Renamings with the same text are the same. -/
  alike : ∀ other, renamingsDocument other = document → other = names

/-- The text of the renamings without the line end. -/
theorem readsAs_renamings (names : Renamings) :
    ReadsAs
      (indented [] [("classes", indented "  " (members names.classes)), ("ids", indented "  " (members names.ids))])
      (.object [("classes", ofTexts names.classes.entries), ("ids", ofTexts names.ids.entries)]) := by
  have blank : ∀ c ∈ ([] : Text), isSpace c = true := fun _ absent => absurd absent List.not_mem_nil
  have objects : ∀ member ∈ [(("classes" : Text), indented "  " (members names.classes), ofTexts names.classes.entries),
      ("ids", indented "  " (members names.ids), ofTexts names.ids.entries)], ReadsAs member.2.1 member.2.2 :=
    List.forall_mem_cons.mpr
      ⟨readsAs_renaming names.classes, List.forall_mem_singleton.mpr (readsAs_renaming names.ids)⟩
  exact readsAs_indented blank objects

theorem read?_renamingsDocument (names : Renamings) : read? (renamingsDocument names)
    = some (.object [("classes", ofTexts names.classes.entries), ("ids", ofTexts names.ids.entries)]) := by
  have lineEnd : ∀ value, Reads (.behind value []) ['\n'] (.behind value []) := fun _ => .cons rfl .nil
  unfold read? renamingsDocument
  rw [(readsAs_renamings names []).append (lineEnd _)]
  rfl

/-- **The file of the renamings tells the renamings**, whatever characters their tokens and names have. -/
theorem renamingsDocument_told (names : Renamings) : RenamingsTold names (renamingsDocument names) := by
  constructor
  · have body := read?_of_readsAs (readsAs_renamings names)
    refine ⟨_, names.classes.entries, names.ids.entries, rfl, ?_, body, ?_, entriesOf_entries _, entriesOf_entries _⟩
    · exact getLast?_indented _ _
    · rw [body, read?_renamingsDocument]
  · intro other same
    have values := congrArg read? same
    rw [read?_renamingsDocument, read?_renamingsDocument] at values
    simp only [Option.some.injEq, Value.object.injEq, List.cons.injEq, Prod.mk.injEq, true_and, and_true] at values
    obtain ⟨classes, ids⟩ := values
    obtain ⟨otherClasses, otherIds⟩ := other
    exact congrArg₂ Renamings.mk (OrderedMap.ext_entries (ofTexts_injective classes))
      (OrderedMap.ext_entries (ofTexts_injective ids))

end Relabel
