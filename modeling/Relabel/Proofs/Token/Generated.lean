/-
**Generated names are kept.**

A generated name holds an underscore behind its beginning, which no GUID, no digest and no id of a layout
node does, and digits right behind its beginning, which do not occur in what the ids of layout nodes begin
with. So no rule that looks for such shapes applies to it.

* `isLayoutNodeId_generated`: a generated name begins like a layout node only if its beginning does.
* `judge_generated`: strict rules keep generated names.
-/

import Relabel.Proofs.Token.Verdict

namespace Relabel

open Text (isHexDigit)

/-! ### Shapes without underscores -/

theorem not_isHexDigit_underscore : isHexDigit '_' = false := by decide

theorem underscore_notMem_of_isHex {text : Text} (hex : isHex text = true) : '_' ∉ text := by
  intro member
  have digit := List.all_eq_true.mp hex '_' member
  rw [not_isHexDigit_underscore] at digit
  exact absurd digit (by decide)

theorem underscore_notMem_of_isGuid {token : Text} (guid : isGuid token = true) : '_' ∉ token := by
  intro member
  simp only [isGuid, Bool.and_eq_true] at guid
  rcases Text.mem_splitWhen_or (· == '-') member with hyphen | ⟨piece, inPieces, inPiece⟩
  · exact absurd hyphen (by decide)
  · exact underscore_notMem_of_isHex (List.all_eq_true.mp guid.2 piece inPieces) inPiece

theorem underscore_notMem_of_isHexDigest {token : Text} (digest : isHexDigest token = true) :
    '_' ∉ token := by
  simp only [isHexDigest, Bool.and_eq_true] at digest
  exact underscore_notMem_of_isHex digest.2

/-- A layout node may begin with an underscore, but holds no other. -/
theorem underscore_notMem_tail_of_isLayoutNode {token : Text} (node : isLayoutNode token = true) :
    '_' ∉ token.tail := by
  obtain ⟨lead, guid, digits, rfl, begins, isGuid', isHex'⟩ := parts_of_isLayoutNode node
  have noGuid := underscore_notMem_of_isGuid isGuid'
  have behind : '_' ∉ guid ++ '-' :: digits := by
    simp [noGuid, underscore_notMem_of_isHex isHex']
  rcases begins with rfl | rfl
  · exact fun member => behind (List.mem_of_mem_tail member)
  · simpa using behind

/-! ### Generated names -/

section Generated

variable {start : Text} (valid : isIdentifierStart start = true) (rank : Nat) (token : Text) (k : Nat)

include valid

/-- A generated name holds an underscore behind its first character. -/
theorem underscore_mem_tail_generated :
    '_' ∈ (numberedName (baseName start rank token) k).tail := by
  obtain ⟨behind, parts, _⟩ := numberedName_baseName_eq start rank token k
  cases start with
  | nil => simp [isIdentifierStart] at valid
  | cons c start =>
    rw [parts, List.cons_append, List.tail_cons]
    simp

omit valid in
/-- A generated name begins like the id of a layout node only if its given beginning does. -/
theorem startsWith_generated
    (begins : Text.startsWith (numberedName (baseName start rank token) k) layoutNodeStart = true) :
    Text.startsWith start layoutNodeStart = true := by
  obtain ⟨rest, found⟩ := Option.isSome_iff_exists.mp begins
  obtain ⟨behind, parts, _⟩ := numberedName_baseName_eq start rank token k
  have same : start ++ (Text.padZeros 3 (Text.decimal rank) ++ '_' :: behind)
      = layoutNodeStart ++ rest := parts.symm.trans (after?_eq_some found)
  have starts : ∀ further, Text.startsWith (layoutNodeStart ++ further) layoutNodeStart = true :=
    fun _ => rfl
  rcases List.append_eq_append_iff.mp same with ⟨more, whole, ranked⟩ | ⟨more, whole, _⟩
  · -- The rank would begin within what layout nodes begin with, where there are no digits.
    have noDigit : ∀ c ∈ layoutNodeStart, c.isDigit = false := by decide
    cases more with
    | nil =>
      rw [List.append_nil] at whole
      rw [← whole]
      rfl
    | cons c more =>
      have inStart : c ∈ layoutNodeStart := by rw [whole]; simp
      have long : 3 ≤ (Text.padZeros 3 (Text.decimal rank)).length := by
        simp only [Text.padZeros, List.length_append, List.length_replicate]
        omega
      obtain ⟨d, digits, numeral⟩ := List.exists_cons_of_length_pos (l := Text.padZeros 3 _)
        (Nat.lt_of_lt_of_le (by decide) long)
      have inNumeral : d ∈ Text.padZeros 3 (Text.decimal rank) := by
        rw [numeral]
        exact List.mem_cons_self
      have isDigit : d.isDigit = true := Text.isDigit_of_mem_padZeros inNumeral
      rw [numeral] at ranked
      obtain rfl := (List.cons.inj ranked).1
      rw [noDigit _ inStart] at isDigit
      exact absurd isDigit (by decide)
  · rw [whole]
    exact starts more

/-- A generated name looks like the id of a layout node only if its given beginning does. -/
theorem isLayoutNodeId_generated
    (node : isLayoutNodeId (numberedName (baseName start rank token) k) = true) :
    Text.startsWith start layoutNodeStart = true := by
  rcases Bool.or_eq_true_iff.mp node with begins | layout
  · exact startsWith_generated rank token k begins
  · exact absurd (underscore_mem_tail_generated valid rank token k)
      (underscore_notMem_tail_of_isLayoutNode layout)

/-- **Strict rules keep generated names**, unless they begin like ids of layout nodes. -/
theorem judge_generated {kind : Kind}
    (plain : kind = .id → Text.startsWith start layoutNodeStart = false) :
    (judge kind .strict (numberedName (baseName start rank token) k)).rename = false := by
  have underscore := List.mem_of_mem_tail (underscore_mem_tail_generated valid rank token k)
  by_contra renamed
  rw [Bool.not_eq_false] at renamed
  obtain ⟨rule, listed, applies, renames⟩ := exists_rule_of_rename renamed
  cases rule with
  | blank | icon | meaningful | fallback => simp [Rule.renames] at renames
  | layoutNode =>
    cases kind with
    | cls => simp [rulesFor] at listed
    | id =>
      have begins := isLayoutNodeId_generated valid rank token k applies
      rw [plain rfl] at begins
      exact absurd begins (by decide)
  | guid => exact underscore_notMem_of_isGuid applies underscore
  | hexDigest => exact underscore_notMem_of_isHexDigest applies underscore
  | hashLike => simp [Rule.applies] at applies

end Generated

end Relabel
