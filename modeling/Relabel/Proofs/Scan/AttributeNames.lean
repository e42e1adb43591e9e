/-
**Attribute names that end at one place.**

Two attributes whose values are opened by the same quote have names that end at the same character.
Then one of the names is the end of the other.

* `Spells.eq_map_foldLetter`: a spelt word is what its letters fold to.
* `beforeSign_append`: the text before an equals sign is decided by the whole.
* `written_inj`: so is the text up to a name before it.
* `names_suffix`: one of two names that end at one place is the end of the other.
-/

import Relabel.Proofs.Scan.Reading
import Relabel.Scan.Attribute

namespace Relabel

/-! ### Letters -/

/-- The small letter to which a character folds. -/
def foldLetter (c : Char) : Char :=
  if c = '\u017F' then 's' else if c = '\u212A' then 'k' else c.toLower

/-- The two letters to which others fold although they are no capitals. -/
def isPlainSmall (small : Char) : Bool :=
  small != '\u017F' && small != '\u212A' && !isBlank small

theorem foldLetter_of_sameLetter {small c : Char} (plain : isPlainSmall small = true)
    (same : sameLetter small c = true) : foldLetter c = small := by
  simp only [isPlainSmall, Bool.and_eq_true, bne_iff_ne, ne_eq] at plain
  simp only [sameLetter, Bool.or_eq_true, Bool.and_eq_true, beq_iff_eq] at same
  unfold foldLetter
  rcases same with (lower | ⟨rfl, rfl⟩) | ⟨rfl, rfl⟩
  · by_cases longS : c = '\u017F'
    · subst longS
      exact absurd lower.symm plain.1.1
    · by_cases kelvin : c = '\u212A'
      · subst kelvin
        exact absurd lower.symm plain.1.2
      · simp [longS, kelvin, lower]
  · rfl
  · rfl

/-- White space is no capital letter. -/
theorem toLower_of_isBlank {c : Char} (blank : isBlank c = true) : c.toLower = c := by
  have notUpper : ¬ (c.val ≥ 'A'.val ∧ c.val ≤ 'Z'.val) := by
    simp only [isBlank, Bool.or_eq_true, Bool.and_eq_true, decide_eq_true_eq, beq_iff_eq] at blank
    simp only [ge_iff_le, UInt32.le_iff_toNat_le]
    have value : c.toNat = c.val.toNat := rfl
    have bounds : 'A'.val.toNat = 65 ∧ 'Z'.val.toNat = 90 := by decide
    omega
  unfold Char.toLower
  rw [dif_neg notUpper]

/-- No letter of a name is spelt by white space. -/
theorem isBlank_of_sameLetter {small c : Char} (plain : isPlainSmall small = true)
    (same : sameLetter small c = true) : isBlank c = false := by
  by_contra blank
  rw [Bool.not_eq_false] at blank
  have folded := foldLetter_of_sameLetter plain same
  have longS : c ≠ '\u017F' := by
    rintro rfl
    exact absurd blank (by decide)
  have kelvin : c ≠ '\u212A' := by
    rintro rfl
    exact absurd blank (by decide)
  rw [foldLetter, if_neg longS, if_neg kelvin, toLower_of_isBlank blank] at folded
  simp [isPlainSmall, ← folded, blank] at plain

/-- A spelt word is what its letters fold to. -/
theorem Spells.eq_map_foldLetter {word read : Text} (spells : Spells word read)
    (plain : word.all isPlainSmall = true) : word = read.map foldLetter := by
  induction spells with
  | nil => rfl
  | cons same spells ih =>
    rw [List.all_cons, Bool.and_eq_true] at plain
    rw [List.map_cons, foldLetter_of_sameLetter plain.1 same, ← ih plain.2]

/-- The last letter of a spelt word is no white space. -/
theorem Spells.ends {word read : Text} (spells : Spells word read)
    (plain : word.all isPlainSmall = true) (nonempty : word ≠ []) :
    ∃ front letter, read = front ++ [letter] ∧ isBlank letter = false := by
  rcases List.eq_nil_or_concat word with rfl | ⟨letters, small, rfl⟩
  · exact absurd rfl nonempty
  · rw [List.concat_eq_append] at spells plain
    obtain ⟨front, letter, parts, same, _⟩ := spells.last
    have last : isPlainSmall small = true := List.all_eq_true.mp plain small (by simp)
    exact ⟨front, letter, parts, isBlank_of_sameLetter last same⟩

/-! ### Equals signs -/

/-- The text before an equals sign at the end of a text. -/
def beforeSign (text : Text) : Text :=
  (((text.reverse.dropWhile isBlank).drop 1).dropWhile isBlank).reverse

/-- The text before an equals sign is decided by the whole, if it does not end with white space. -/
theorem beforeSign_append {front sign : Text} {c : Char} (assigns : Assigns sign)
    (solid : isBlank c = false) : beforeSign (front ++ [c] ++ sign) = front ++ [c] := by
  obtain ⟨before, behind, rfl, blankBefore, blankBehind⟩ := assigns
  have reversed : (front ++ [c] ++ (before ++ '=' :: behind)).reverse
      = behind.reverse ++ '=' :: (before.reverse ++ c :: front.reverse) := by simp
  have noBlank : isBlank '=' = false := by decide
  rw [beforeSign, reversed,
    List.dropWhile_append_of_pos fun b member => blankBehind b (by simpa using member),
    List.dropWhile_cons_of_neg (by simp [noBlank]), List.drop_one, List.tail_cons,
    List.dropWhile_append_of_pos fun b member => blankBefore b (by simpa using member),
    List.dropWhile_cons_of_neg (by simp [solid])]
  simp

/-! ### Names -/

/-- The text up to a name, with the name, is decided by the text up to the equals sign behind it. -/
theorem written_inj {name name' written written' sign sign' more more' : Text} (plain : name.all isPlainSmall = true)
    (plain' : name'.all isPlainSmall = true) (nonempty : name ≠ []) (nonempty' : name' ≠ [])
    (spells : Spells name written) (spells' : Spells name' written') (assigns : Assigns sign)
    (assigns' : Assigns sign') (texts : more ++ written ++ sign = more' ++ written' ++ sign') :
    more ++ written = more' ++ written' := by
  obtain ⟨front, letter, parts, solid⟩ := spells.ends plain nonempty
  obtain ⟨front', letter', parts', solid'⟩ := spells'.ends plain' nonempty'
  have same := congrArg beforeSign texts
  rw [parts, parts', ← List.append_assoc, ← List.append_assoc, beforeSign_append assigns solid,
    beforeSign_append assigns' solid'] at same
  simpa [parts, parts'] using same

/-- **One of two names that end at one place is the end of the other.** -/
theorem names_suffix {name name' written written' sign sign' x : Text} {c : Char}
    (plain : name.all isPlainSmall = true) (plain' : name'.all isPlainSmall = true)
    (nonempty : name ≠ []) (nonempty' : name' ≠ []) (spells : Spells name written)
    (spells' : Spells name' written') (assigns : Assigns sign) (assigns' : Assigns sign')
    (suffix : written ++ sign ++ [c] <:+ x) (suffix' : written' ++ sign' ++ [c] <:+ x) :
    name <:+ name' ∨ name' <:+ name := by
  obtain ⟨more, whole⟩ := suffix
  obtain ⟨more', whole'⟩ := suffix'
  have texts : more ++ written ++ sign = more' ++ written' ++ sign' := by
    have same := whole.trans whole'.symm
    simp only [← List.append_assoc] at same
    exact (List.append_inj' same rfl).1
  have before := written_inj plain plain' nonempty nonempty' spells spells' assigns assigns' texts
  rw [spells.eq_map_foldLetter plain, spells'.eq_map_foldLetter plain']
  rcases List.suffix_or_suffix_of_suffix (List.suffix_append more written)
    (before ▸ List.suffix_append more' written') with first | second
  · exact Or.inl (first.map foldLetter)
  · exact Or.inr (second.map foldLetter)

end Relabel
