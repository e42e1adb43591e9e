/-
**The names of scripts.**

A script gets a plain name. The first variant of it that is not taken is found, and it differs from all names
that were handed out before, even if case is ignored: a variant is the name with a number put into it, and
small letters keep the numbers apart.

* `PlainName`: names of plain characters; those of scripts and their variants are plain.
* `numberedFile_parts`: the variants of a name.
* `HasExtension`: names with an extension; those of scripts and their variants have one.
* `NamesTaken.choose_fresh`: the name that is handed out is not taken.
-/

import Relabel.Proofs.Naming.Fresh
import Relabel.Script.FileName

namespace Relabel

open Text (decimal)

/-! ### Small letters -/

theorem map_toLower_decimal (n : Nat) : (decimal n).map Char.toLower = decimal n :=
  (List.map_congr_left fun _ member => toLower_of_isDigit (Text.isDigit_of_mem_decimal member)).trans
    (List.map_id _)

theorem toNat_lt_of_isFileChar {c : Char} (plain : isFileChar c = true) : c.toNat < 128 := by
  simp only [isFileChar, Char.isAlphanum, Bool.or_eq_true, beq_iff_eq] at plain
  rcases plain with (((alpha | digit) | rfl) | rfl) | rfl
  · have letter := isAlpha_iff.mp alpha
    omega
  · have range := isDigit_iff.mp digit
    omega
  all_goals decide

/-! ### Variants -/

/-- What stands around the last separator. -/
theorem Text.eq_of_cutLast {separator : Char} {text before after : Text}
    (cut : Text.cutLast separator text = some (before, after)) : text = before ++ separator :: after := by
  induction text generalizing before with
  | nil => simp [Text.cutLast] at cut
  | cons c text ih =>
    rw [Text.cutLast] at cut
    split at cut
    next before' after' inner =>
      obtain ⟨rfl, rfl⟩ := Prod.mk.inj (Option.some.inj cut)
      rw [ih inner, List.cons_append]
    next =>
      split at cut
      next same =>
        obtain ⟨rfl, rfl⟩ := Prod.mk.inj (Option.some.inj cut)
        rw [same, List.nil_append]
      next => simp at cut

/-- The last separator is the one behind which there is no other. -/
theorem Text.cutLast_append {separator : Char} {after : Text} (absent : separator ∉ after) (before : Text) :
    Text.cutLast separator (before ++ separator :: after) = some (before, after) := by
  have none : ∀ text : Text, separator ∉ text → Text.cutLast separator text = none := by
    intro text notMem
    cases cut : Text.cutLast separator text with
    | none => rfl
    | some parts =>
      have whole : text = parts.1 ++ separator :: parts.2 := Text.eq_of_cutLast cut
      exact absurd (whole ▸ List.mem_append_right _ List.mem_cons_self) notMem
  induction before with
  | nil => rw [List.nil_append, Text.cutLast, none after absent, if_pos rfl]
  | cons c before ih => rw [List.cons_append, Text.cutLast, ih]

/-- The number of a variant, as it stands in it. -/
def variantMark (k : Nat) : Text :=
  if k = 0 then [] else '_' :: decimal k

theorem plain_variantMark (k : Nat) : ∀ c ∈ variantMark k, isFileChar c = true := by
  intro c member
  unfold variantMark at member
  split at member
  · exact absurd member List.not_mem_nil
  · rcases List.mem_cons.mp member with rfl | digit
    · decide
    · simp [isFileChar, Char.isAlphanum, Text.isDigit_of_mem_decimal digit]

/-- Small letters keep the numbers of variants apart. -/
theorem lower_variantMark_injective : Function.Injective fun k => (variantMark k).map Char.toLower := by
  intro j k same
  simp only [variantMark] at same
  split at same <;> split at same
  · omega
  · simp at same
  · simp at same
  · simp only [List.map_cons, map_toLower_decimal] at same
    exact Text.decimal_injective (List.cons.inj same).2

/-- **The variants of a name** have a number put into it at one place. -/
theorem numberedFile_parts (name : Text) :
    ∃ front back, name = front ++ back ∧ (front = [] → back = [] ∨ back.head? = some '.')
      ∧ ∀ k, numberedFile name k = front ++ (variantMark k ++ back) := by
  cases cut : Text.cutLast '.' name with
  | some parts =>
    obtain ⟨stem, extension⟩ := parts
    have whole := Text.eq_of_cutLast cut
    refine ⟨stem, '.' :: extension, whole, fun _ => Or.inr rfl, fun k => ?_⟩
    unfold numberedFile variantMark
    split
    · exact whole
    · rw [cut]
      simp
  | none =>
    refine ⟨name, [], by simp, fun _ => Or.inl rfl, fun k => ?_⟩
    unfold numberedFile variantMark
    split
    · simp
    · rw [cut]
      simp

/-- The variants of a name differ, also in small letters. -/
theorem lower_numberedFile_injective (name : Text) :
    Function.Injective fun k => (numberedFile name k).map Char.toLower := by
  obtain ⟨front, back, _, _, variants⟩ := numberedFile_parts name
  intro j k same
  simp only [variants, List.map_append] at same
  exact lower_variantMark_injective (List.append_cancel_right (List.append_cancel_left same))

/-! ### Plain names -/

/-- A name of plain characters that does not begin with a full stop. -/
structure PlainName (name : Text) : Prop where
  plain : ∀ c ∈ name, isFileChar c = true
  head : ∃ c ∈ name.head?, c ≠ '.'

namespace PlainName

variable {name : Text}

theorem lowerCase (isPlain : PlainName name) : Text.lowerCase name = name.map Char.toLower :=
  Text.lowerCase_of_ascii fun c member => toNat_lt_of_isFileChar (isPlain.plain c member)

/-- The variants of a plain name are plain. -/
theorem numberedFile (isPlain : PlainName name) (k : Nat) : PlainName (numberedFile name k) := by
  obtain ⟨front, back, rfl, begins, variants⟩ := numberedFile_parts name
  obtain ⟨plain, c, isHead, notDot⟩ := isPlain
  rw [variants]
  refine ⟨fun d member => ?_, c, ?_, notDot⟩
  · simp only [List.mem_append] at member plain
    rcases member with inFront | inMark | inBack
    · exact plain d (Or.inl inFront)
    · exact plain_variantMark k d inMark
    · exact plain d (Or.inr inBack)
  · cases front with
    | nil =>
      rcases begins rfl with rfl | dot
      · simp at isHead
      · exact absurd (Option.some.inj (dot.symm.trans isHead)).symm notDot
    | cons d front => exact isHead

end PlainName

/-- The digits of a digest are hexadecimal. -/
theorem plain_hexDigest (message : Bytes) : ∀ c ∈ Sha256.hexDigest message, isFileChar c = true := by
  have digits : ∀ n < 16, isFileChar (Nat.digitChar n) = true := by decide
  intro c member
  obtain ⟨byte, _, inByte⟩ := List.mem_flatMap.mp member
  obtain ⟨n, small, rfl⟩ := Sha256.exists_of_mem_hexByte inByte
  exact digits n small

theorem plainName_digestName (url : Url) : PlainName (digestName url) := by
  have first : ∀ c ∈ "script_".toList, isFileChar c = true := by decide
  have last : ∀ c ∈ ".js".toList, isFileChar c = true := by decide
  have begins : (digestName url).head? = some 's' := by
    unfold digestName
    rw [List.append_assoc, List.head?_append_of_ne_nil _ (by decide)]
    decide
  refine ⟨fun c member => ?_, 's', begins, by decide⟩
  unfold digestName at member
  rw [List.mem_append, List.mem_append] at member
  rcases member with (inFirst | digest) | inLast
  · exact first c inFirst
  · have inDigest := List.mem_of_mem_take digest
    exact plain_hexDigest (Utf8.encode url.render) c inDigest
  · exact last c inLast

/-- The parts of a plain file name with an extension. -/
structure PlainFile (name stem extension : Text) : Prop where
  name_eq : name = stem ++ '.' :: extension
  fits : Text.byteLength name ≤ longestName
  noDot : name.head? ≠ some '.'
  plain : ∀ c ∈ name, isFileChar c = true
  stem_ne_nil : stem ≠ []
  extension_ne_nil : extension ≠ []
  alphanumeric : ∀ c ∈ extension, c.isAlphanum = true

theorem exists_of_isPlainFile {name : Text} (isFile : isPlainFile name = true) :
    ∃ stem extension, PlainFile name stem extension := by
  unfold isPlainFile at isFile
  split at isFile
  next => exact absurd isFile Bool.false_ne_true
  next stem extension cut =>
    simp only [Bool.and_eq_true, decide_eq_true_eq, List.all_eq_true] at isFile
    obtain ⟨⟨⟨⟨⟨fits, noDot⟩, plain⟩, nonempty⟩, nonempty'⟩, alphanumeric⟩ := isFile
    exact ⟨stem, extension, Text.eq_of_cutLast cut, fits, noDot, plain, nonempty, nonempty', alphanumeric⟩

/-- The name of a script is a plain file name, or made from a digest. -/
theorem scriptName_cases (url : Url) :
    (∃ stem extension, PlainFile (scriptName url) stem extension) ∨ scriptName url = digestName url := by
  unfold scriptName
  split
  next name _ =>
    split
    next isFile => exact Or.inl (exists_of_isPlainFile isFile)
    next => exact Or.inr rfl
  next => exact Or.inr rfl

theorem PlainFile.plainName {name stem extension : Text} (file : PlainFile name stem extension) : PlainName name := by
  obtain ⟨c, rest, begins⟩ := List.exists_cons_of_ne_nil file.stem_ne_nil
  have isHead : name.head? = some c := by rw [file.name_eq, begins]; rfl
  refine ⟨file.plain, c, isHead, ?_⟩
  rintro rfl
  exact file.noDot isHead

/-- **The name of a script is plain.** -/
theorem plainName_scriptName (url : Url) : PlainName (scriptName url) := by
  rcases scriptName_cases url with ⟨_, _, file⟩ | digest
  · exact file.plainName
  · rw [digest]
    exact plainName_digestName url

/-! ### Extensions -/

/-- Whether a name ends with an extension of letters and digits of ASCII. -/
def HasExtension (name : Text) : Prop :=
  ∃ stem extension, name = stem ++ '.' :: extension ∧ extension ≠ [] ∧ ∀ c ∈ extension, c.isAlphanum = true

theorem dot_notMem_of_alphanumeric {text : Text} (plain : ∀ c ∈ text, c.isAlphanum = true) : '.' ∉ text :=
  fun member => absurd (plain '.' member) (by decide)

/-- The variants of a name have its extension. -/
theorem HasExtension.numberedFile {name : Text} (has : HasExtension name) (k : Nat) :
    HasExtension (numberedFile name k) := by
  obtain ⟨stem, extension, rfl, nonempty, plain⟩ := has
  unfold Relabel.numberedFile
  split
  · exact ⟨stem, extension, rfl, nonempty, plain⟩
  · rw [Text.cutLast_append (dot_notMem_of_alphanumeric plain)]
    exact ⟨stem ++ ['_'] ++ Text.decimal k, extension, by simp, nonempty, plain⟩

theorem hasExtension_digestName (url : Url) : HasExtension (digestName url) :=
  ⟨"script_" ++ (Sha256.hexDigest (Utf8.encode url.render)).take 12, "js".toList, by
    unfold digestName
    simp, by decide, by decide⟩

/-- **The name of a script** has an extension. -/
theorem hasExtension_scriptName (url : Url) : HasExtension (scriptName url) := by
  rcases scriptName_cases url with ⟨stem, extension, file⟩ | digest
  · exact ⟨stem, extension, file.name_eq, file.extension_ne_nil, file.alphanumeric⟩
  · rw [digest]
    exact hasExtension_digestName url

/-! ### Names that are handed out -/

/-- A search for a name whose form `g` is not used is the search for that form. -/
theorem exists_firstUnused {g : Text → Text} {used : List Text} (name : Nat → Text) (k tries : Nat) :
    ∃ j, firstUnused (fun text => used.contains (g text)) name k tries = name j
      ∧ firstUnused (used.contains ·) (fun i => g (name i)) k tries = g (name j) := by
  induction tries generalizing k with
  | zero => exact ⟨k, rfl, rfl⟩
  | succ tries ih =>
    unfold firstUnused
    split
    · exact ih (k + 1)
    · exact ⟨k, rfl, rfl⟩

namespace NamesTaken

/-- The search for a name that is not taken finds a variant, and the small letters of it are what the search among
small letters finds. -/
theorem exists_variant (taken : NamesTaken) (name : Text) :
    ∃ j, taken.choose name = numberedFile name j
      ∧ firstUnused (taken.lowered.contains ·) (fun i => Text.lowerCase (numberedFile name i)) 0 taken.lowered.length
        = Text.lowerCase (numberedFile name j) :=
  exists_firstUnused (numberedFile name) 0 taken.lowered.length

/-- **The name that is handed out** is a plain one whose small letters are not taken. -/
theorem choose_fresh (taken : NamesTaken) {name : Text} (isPlain : PlainName name) :
    PlainName (taken.choose name) ∧ (taken.choose name).map Char.toLower ∉ taken.lowered := by
  obtain ⟨j, found, free⟩ := taken.exists_variant name
  have lowered : (fun i => Text.lowerCase (numberedFile name i)) = fun i => (numberedFile name i).map Char.toLower :=
    funext fun i => (isPlain.numberedFile i).lowerCase
  rw [lowered] at free
  have first := @firstUnused_firstFree taken.lowered _ (lower_numberedFile_injective name)
  rw [free, (isPlain.numberedFile j).lowerCase] at first
  obtain ⟨k, same, unused, _⟩ := first
  rw [found]
  exact ⟨isPlain.numberedFile j, by rw [same]; exact unused⟩

/-- The name that is handed out has an extension if the one that is asked for has one. -/
theorem hasExtension_choose (taken : NamesTaken) {name : Text} (has : HasExtension name) :
    HasExtension (taken.choose name) := by
  obtain ⟨j, found, _⟩ := taken.exists_variant name
  rw [found]
  exact has.numberedFile j

/-- Each name of a run is handed out for one of those that are asked for. The induction is on these. -/
theorem mem_handOutAll {taken : NamesTaken} {names : List Text} {chosen : Text}
    (member : chosen ∈ taken.handOutAll names) : ∃ name ∈ names, ∃ before : NamesTaken, chosen = before.choose name := by
  induction names generalizing taken with
  | nil => exact absurd member List.not_mem_nil
  | cons name names ih =>
    rcases List.mem_cons.mp member with rfl | later
    · exact ⟨name, List.mem_cons_self, taken, rfl⟩
    · obtain ⟨other, inNames, before, same⟩ := ih later
      exact ⟨other, List.mem_cons_of_mem _ inNames, before, same⟩

end NamesTaken

end Relabel
