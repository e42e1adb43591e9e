/-
**What the tokens that are renamed look like.**

A token is renamed for its shape. So a class that is renamed has the characters of identifiers only, and
so has an id up to the part of it that is arbitrary.

* `plain_of_rename`, `plain_of_rename_cls`: the characters of a token that is renamed.
* `head_of_rename`: the first character of a token that is renamed.
* `not_blank_of_rename`: blank tokens are kept.
* `rename_of_startsWith`: ids that begin like those of layout nodes are renamed.
-/

import Relabel.Proofs.Naming.Numbering
import Relabel.Proofs.Scan.Reading
import Relabel.Token.Verdict

namespace Relabel

open Text (isHexDigit splitOn splitWhen)

/-! ### Shapes -/

/-- A character is in one of the pieces or separates them. -/
theorem Text.mem_splitWhen_or (isSeparator : Char → Bool) {text : Text} {c : Char} (member : c ∈ text) :
    isSeparator c = true ∨ ∃ piece ∈ splitWhen isSeparator text, c ∈ piece := by
  induction text with
  | nil => simp at member
  | cons d text ih =>
    unfold splitWhen
    by_cases separates : isSeparator d = true
    · rw [if_pos separates]
      rcases List.mem_cons.mp member with rfl | behind
      · exact Or.inl separates
      · exact (ih behind).imp_right fun ⟨piece, inPieces, inPiece⟩ =>
          ⟨piece, List.mem_cons_of_mem _ inPieces, inPiece⟩
    · rw [if_neg separates]
      cases pieces : splitWhen isSeparator text with
      | nil =>
        rw [pieces] at ih
        rcases List.mem_cons.mp member with rfl | behind
        · exact Or.inr ⟨[c], by simp, by simp⟩
        · exact (ih behind).imp_right fun ⟨_, inPieces, _⟩ => absurd inPieces List.not_mem_nil
      | cons first others =>
        rw [pieces] at ih
        rcases List.mem_cons.mp member with rfl | behind
        · exact Or.inr ⟨c :: first, by simp, by simp⟩
        · refine (ih behind).imp_right fun ⟨piece, inPieces, inPiece⟩ => ?_
          rcases List.mem_cons.mp inPieces with rfl | later
          · exact ⟨d :: piece, by simp, by simp [inPiece]⟩
          · exact ⟨piece, List.mem_cons_of_mem _ later, inPiece⟩

theorem isIdentifierChar_of_isHex {text : Text} (hex : isHex text = true) :
    ∀ c ∈ text, isIdentifierChar c = true :=
  fun c member => isIdentifierChar_of_isHexDigit (List.all_eq_true.mp hex c member)

/-- A GUID consists of hexadecimal digits and hyphens. -/
theorem plain_of_isGuid {token : Text} (guid : isGuid token = true) :
    token ≠ [] ∧ ∀ c ∈ token, isIdentifierChar c = true := by
  simp only [isGuid, Bool.and_eq_true] at guid
  obtain ⟨lengths, hex⟩ := guid
  refine ⟨?_, fun c member => ?_⟩
  · rintro rfl
    exact absurd lengths (by decide)
  · rcases Text.mem_splitWhen_or (· == '-') member with hyphen | ⟨piece, inPieces, inPiece⟩
    · simp [isIdentifierChar, eq_of_beq hyphen]
    · exact isIdentifierChar_of_isHex (List.all_eq_true.mp hex piece inPieces) c inPiece

/-- Tokens that look generated, those of layout nodes aside. -/
theorem plain_of_shape {token : Text}
    (shape : isGuid token = true ∨ isHexDigest token = true ∨ isHashLike token = true) :
    token ≠ [] ∧ ∀ c ∈ token, isIdentifierChar c = true := by
  rcases shape with guid | digest | hash
  · exact plain_of_isGuid guid
  · simp only [isHexDigest, Bool.and_eq_true] at digest
    refine ⟨?_, isIdentifierChar_of_isHex digest.2⟩
    rintro rfl
    exact absurd digest.1 (by decide)
  · simp only [isHashLike, Bool.and_eq_true, decide_eq_true_eq, List.all_eq_true] at hash
    refine ⟨?_, hash.2⟩
    rintro rfl
    exact absurd hash.1 (by decide)

/-- The parts of a layout node. -/
theorem parts_of_isLayoutNode {token : Text} (node : isLayoutNode token = true) :
    ∃ lead guid digits, token = lead ++ guid ++ '-' :: digits ∧ (lead = [] ∨ lead = ['_'])
      ∧ isGuid guid = true ∧ isHex digits = true := by
  have cut : ∀ {text digits : Text}, text.drop 36 = '-' :: digits →
      text = text.take 36 ++ '-' :: digits := by
    intro text digits behind
    rw [← behind, List.take_append_drop]
  simp only [isLayoutNode, Bool.and_eq_true] at node
  split at node
  next rest =>
    obtain ⟨guid, behind⟩ := node
    split at behind
    next digits parts =>
      exact ⟨['_'], _, digits, congrArg _ (cut parts), Or.inr rfl, guid,
        (Bool.and_eq_true_iff.mp behind).2⟩
    next => exact absurd behind (by decide)
  next =>
    obtain ⟨guid, behind⟩ := node
    split at behind
    next digits parts =>
      exact ⟨[], _, digits, cut parts, Or.inl rfl, guid, (Bool.and_eq_true_iff.mp behind).2⟩
    next => exact absurd behind (by decide)

/-- A layout node has the characters of identifiers only. -/
theorem plain_of_isLayoutNode {token : Text} (node : isLayoutNode token = true) :
    token ≠ [] ∧ ∀ c ∈ token, isIdentifierChar c = true := by
  obtain ⟨lead, guid, digits, rfl, begins, isGuid', isHex'⟩ := parts_of_isLayoutNode node
  refine ⟨by simp, fun c member => ?_⟩
  simp only [List.mem_append, List.mem_cons] at member
  rcases member with (inLead | inGuid) | rfl | inDigits
  · rcases begins with rfl | rfl
    · exact absurd inLead List.not_mem_nil
    · obtain rfl := List.mem_singleton.mp inLead
      decide
  · exact (plain_of_isGuid isGuid').2 c inGuid
  · decide
  · exact isIdentifierChar_of_isHex isHex' c inDigits

theorem head_of_startsWith {token : Text} (starts : Text.startsWith token layoutNodeStart = true) :
    ∃ c ∈ token.head?, isIdentifierChar c = true := by
  obtain ⟨rest, behind⟩ := Option.isSome_iff_exists.mp starts
  rw [after?_eq_some behind]
  exact ⟨'w', rfl, by decide⟩

/-! ### Verdicts -/

variable {kind : Kind} {mode : Mode} {token : Text}

/-- A token is renamed for a rule that applies to it. -/
theorem exists_rule_of_rename (renamed : (judge kind mode token).rename = true) :
    ∃ rule ∈ rulesFor kind, rule.applies mode token = true ∧ rule.renames = true := by
  simp only [judge] at renamed
  cases found : (rulesFor kind).find? (·.applies mode token) with
  | none => simp [found, Rule.renames] at renamed
  | some rule =>
    rw [found, Option.getD_some] at renamed
    have applies := List.find?_some found
    exact ⟨rule, List.mem_of_find?_eq_some found, applies, renamed⟩

/-- The shapes for which a token is renamed. -/
theorem shape_of_rename (renamed : (judge kind mode token).rename = true) :
    (kind = .id ∧ isLayoutNodeId token = true)
      ∨ isGuid token = true ∨ isHexDigest token = true ∨ isHashLike token = true := by
  obtain ⟨rule, listed, applies, renames⟩ := exists_rule_of_rename renamed
  cases rule with
  | blank | icon | meaningful | fallback => simp [Rule.renames] at renames
  | layoutNode =>
    cases kind with
    | cls => simp [rulesFor] at listed
    | id => exact Or.inl ⟨rfl, applies⟩
  | guid => exact Or.inr (Or.inl applies)
  | hexDigest => exact Or.inr (Or.inr (Or.inl applies))
  | hashLike =>
    simp only [Rule.applies, Bool.and_eq_true] at applies
    exact Or.inr (Or.inr (Or.inr applies.2))

/-- **A token that is renamed** has the characters of identifiers only, unless it begins like the usual id
of a layout node. -/
theorem plain_of_rename (renamed : (judge kind mode token).rename = true) :
    Text.startsWith token layoutNodeStart = true
      ∨ token ≠ [] ∧ ∀ c ∈ token, isIdentifierChar c = true := by
  rcases shape_of_rename renamed with ⟨_, node⟩ | shape
  · exact (Bool.or_eq_true_iff.mp node).imp_right plain_of_isLayoutNode
  · exact Or.inr (plain_of_shape shape)

/-- **A class that is renamed** has the characters of identifiers only. -/
theorem plain_of_rename_cls (renamed : (judge .cls mode token).rename = true) :
    ∀ c ∈ token, isIdentifierChar c = true := by
  rcases shape_of_rename renamed with ⟨isId, _⟩ | shape
  · simp at isId
  · exact (plain_of_shape shape).2

/-- **A token that is renamed** begins with a character of identifiers. -/
theorem head_of_rename (renamed : (judge kind mode token).rename = true) :
    ∃ c ∈ token.head?, isIdentifierChar c = true := by
  rcases plain_of_rename renamed with starts | ⟨nonempty, plain⟩
  · exact head_of_startsWith starts
  · obtain ⟨c, rest, rfl⟩ := List.exists_cons_of_ne_nil nonempty
    exact ⟨c, rfl, plain c List.mem_cons_self⟩

/-- Blank tokens are kept. -/
theorem not_blank_of_rename (renamed : (judge kind mode token).rename = true) :
    isBlankToken token = false := by
  by_contra blank
  rw [Bool.not_eq_false] at blank
  cases kind <;> simp [judge, rulesFor, Rule.applies, blank, Rule.renames] at renamed

/-- A token that does not begin with white space is not blank. -/
theorem not_blank_of_head {c : Char} (isHead : c ∈ token.head?) (solid : isBlank c = false) :
    isBlankToken token = false := by
  obtain ⟨rest, rfl⟩ := List.head?_eq_some_iff.mp isHead
  have kept : c ∈ (c :: rest).reverse.dropWhile isBlank :=
    mem_dropWhile_of_stop (List.mem_reverse.mpr List.mem_cons_self) solid
  have nonempty : Text.strip (c :: rest) ≠ [] := by
    rw [Text.strip, Text.trim, Text.trimStart, Text.trimEnd, List.dropWhile_cons_of_neg (by simp [solid])]
    exact fun empty => List.ne_nil_of_mem kept (List.reverse_eq_nil_iff.mp empty)
  simpa [isBlankToken] using nonempty

/-- Ids that begin like those of layout nodes are renamed, whatever the rules. -/
theorem rename_of_startsWith (starts : Text.startsWith token layoutNodeStart = true) :
    (judge .id mode token).rename = true := by
  have notBlank : isBlankToken token = false := by
    obtain ⟨rest, behind⟩ := Option.isSome_iff_exists.mp starts
    rw [after?_eq_some behind]
    exact not_blank_of_head (c := 'w') rfl (by decide)
  simp [judge, rulesFor, Rule.applies, notBlank, isLayoutNodeId, starts, Rule.renames]

end Relabel
