/-
**The decision on a token without the order of the rules.**

The rules are tried one after the other, but those that keep a token never come in the way of a GUID or a
digest: both are too long for a name that a person would choose or for an icon family, and their first eight
characters are hexadecimal digits, also in small letters, while every beginning of icon classes has another
character among its first eight. So the order matters for hashes only, which icon classes and names may be.

* `rename_cls_eq`, `rename_id_eq`: the decision, rule by rule.
* `LongHex`: what GUIDs and digests have in common; no rule that keeps applies to such a token.
* `judge_decidedByShape`: the decision as a condition on the token, and what follows from it.
-/

import Relabel.Proofs.Text.Words
import Relabel.Proofs.Token.Verdict

namespace Relabel

open Text (isHexDigit splitOn)

variable {token : Text}

/-! ### Rule by rule -/

section Chain

variable (mode : Mode) (token : Text)

theorem renames_find?_cons (rule : Rule) (rules : List Rule) :
    (((rule :: rules).find? (·.applies mode token)).getD .fallback).renames
      = if rule.applies mode token then rule.renames
        else ((rules.find? (·.applies mode token)).getD .fallback).renames := by
  rw [List.find?_cons]
  cases rule.applies mode token <;> rfl

/-- The decision on a class: three rules keep it, and then three rename it. -/
theorem rename_cls_eq :
    (judge .cls mode token).rename
      = (!isBlankToken token && (!isIcon token && (!isMeaningful token
          && (isGuid token || (isHexDigest token || (decide (mode = .lenient) && isHashLike token)))))) := by
  simp only [judge, rulesFor, renames_find?_cons, List.find?_nil, Option.getD_none]
  simp [Rule.applies, Rule.renames]

/-- The decision on an id: there is one rule more, in front of those that keep icons and names. -/
theorem rename_id_eq :
    (judge .id mode token).rename
      = (!isBlankToken token && (isLayoutNodeId token || (!isIcon token && (!isMeaningful token
          && (isGuid token || (isHexDigest token || (decide (mode = .lenient) && isHashLike token))))))) := by
  simp only [judge, rulesFor, renames_find?_cons, List.find?_nil, Option.getD_none]
  simp [Rule.applies, Rule.renames]

end Chain

/-! ### Blank tokens -/

/-- A token of the characters of identifiers is not blank. -/
theorem not_blank_of_plain (plain : token ≠ [] ∧ ∀ c ∈ token, isIdentifierChar c = true) :
    isBlankToken token = false := by
  obtain ⟨c, rest, rfl⟩ := List.exists_cons_of_ne_nil plain.1
  exact not_blank_of_head (c := c) rfl
    (not_isBlank_of_isIdentifierChar (plain.2 c List.mem_cons_self))

/-- The id of a layout node is not blank. -/
theorem not_blank_of_isLayoutNodeId (node : isLayoutNodeId token = true) : isBlankToken token = false := by
  rcases Bool.or_eq_true_iff.mp node with starts | layout
  · obtain ⟨c, isHead, plain⟩ := head_of_startsWith starts
    exact not_blank_of_head isHead (not_isBlank_of_isIdentifierChar plain)
  · exact not_blank_of_plain (plain_of_isLayoutNode layout)

/-! ### GUIDs and digests -/

/-- A long token of the characters of identifiers that begins with hexadecimal digits. -/
structure LongHex (token : Text) : Prop where
  long : 32 ≤ token.length
  plain : ∀ c ∈ token, isIdentifierChar c = true
  begins : ∀ c ∈ token.take 8, isHexDigit c = true

/-- The first group of a GUID, and how long the GUID is. -/
theorem group_of_isGuid (guid : isGuid token = true) :
    ∃ group rest, token = group ++ rest ∧ group.length = 8 ∧ rest.length = 28 ∧ isHex group = true := by
  simp only [isGuid, Bool.and_eq_true, beq_iff_eq, List.map_eq_cons_iff, List.map_eq_nil_iff] at guid
  obtain ⟨⟨a, _, groups, first, b, _, rfl, second, c, _, rfl, third, d, _, rfl, fourth, e, _, rfl, fifth,
    rfl⟩, hex⟩ := guid
  have joined := Text.join_splitOn '-' token
  rw [groups] at hex joined
  refine ⟨a, '-' :: (b ++ '-' :: (c ++ '-' :: (d ++ '-' :: e))), ?_, first, ?_,
    List.all_eq_true.mp hex a List.mem_cons_self⟩
  · simpa [Text.join, List.intercalate_cons_cons] using joined.symm
  · simp only [List.length_cons, List.length_append]
    omega

namespace LongHex

theorem of_isGuid (guid : isGuid token = true) : LongHex token := by
  obtain ⟨group, rest, whole, eight, others, hex⟩ := group_of_isGuid guid
  refine ⟨?_, (plain_of_isGuid guid).2, fun c member => ?_⟩
  · rw [whole, List.length_append]
    omega
  · rw [whole, List.take_left' eight] at member
    exact List.all_eq_true.mp hex c member

theorem of_isHexDigest (digest : isHexDigest token = true) : LongHex token := by
  simp only [isHexDigest, Bool.and_eq_true, beq_iff_eq] at digest
  exact ⟨digest.1.ge, isIdentifierChar_of_isHex digest.2,
    fun c member => List.all_eq_true.mp digest.2 c (List.mem_of_mem_take member)⟩

variable (longHex : LongHex token)

include longHex

theorem isHashLike : isHashLike token = true := by
  have long := longHex.long
  simp only [Relabel.isHashLike, Bool.and_eq_true, decide_eq_true_eq, List.all_eq_true]
  exact ⟨by omega, longHex.plain⟩

theorem not_blank : isBlankToken token = false := by
  refine not_blank_of_plain ⟨?_, longHex.plain⟩
  rintro rfl
  exact absurd longHex.long (by decide)

/-- Names that persons choose have 25 characters at most. -/
theorem not_meaningful : isMeaningful token = false := by
  have long := longHex.long
  cases token with
  | nil => rfl
  | cons c rest =>
    have tooLong : ¬ rest.length ≤ 24 := by
      rw [List.length_cons] at long
      omega
    simp [isMeaningful, tooLong]

theorem lowerCase_eq : Text.lowerCase token = token.map Char.toLower :=
  Text.lowerCase_of_ascii fun c member => by
    have range := toNat_of_isIdentifierChar (longHex.plain c member)
    omega

/-- No icon family has so long a name, and each beginning of icon classes has a character among its first
eight that is no hexadecimal digit, as the first eight of the token are, also in small letters. -/
theorem not_icon : isIcon token = false := by
  have families : ∀ name ∈ iconNames, name.length < 32 := by decide
  have starts : ∀ start ∈ iconStarts, ¬ ∀ c ∈ start.take 8, isHexDigit c = true := by decide
  simp only [isIcon, longHex.lowerCase_eq, Bool.or_eq_false_iff, List.any_eq_false]
  refine ⟨?_, fun start listed begins => ?_⟩
  · by_contra family
    rw [Bool.not_eq_false, List.contains_iff_mem] at family
    have short := families _ family
    have long := longHex.long
    rw [List.length_map] at short
    omega
  · refine starts start listed fun c inStart => ?_
    obtain ⟨rest, found⟩ := Option.isSome_iff_exists.mp begins
    have inToken : c ∈ (token.map Char.toLower).take 8 := by
      rw [after?_eq_some found, List.take_append]
      exact List.mem_append_left _ inStart
    rw [← List.map_take] at inToken
    obtain ⟨d, inFront, rfl⟩ := List.mem_map.mp inToken
    exact Text.isHexDigit_toLower (longHex.begins d inFront)

end LongHex

/-! ### Without the order -/

/-- GUIDs and digests look like hashes, and no rule that keeps tokens applies to them. -/
theorem LongHex.of_shape (shape : isGuid token = true ∨ isHexDigest token = true) : LongHex token :=
  shape.elim LongHex.of_isGuid LongHex.of_isHexDigest

/-- Strict rules rename GUIDs and digests. -/
theorem rename_cls_strict (token : Text) :
    (judge .cls .strict token).rename = (isGuid token || isHexDigest token) := by
  rw [rename_cls_eq]
  by_cases shape : isGuid token = true ∨ isHexDigest token = true
  · have longHex := LongHex.of_shape shape
    simp [longHex.not_blank, longHex.not_icon, longHex.not_meaningful]
  · obtain ⟨notGuid, notDigest⟩ := not_or.mp shape
    simp [notGuid, notDigest]

/-- Lenient rules rename what looks like a hash and is neither an icon class nor a name. -/
theorem rename_cls_lenient (token : Text) :
    (judge .cls .lenient token).rename = (isHashLike token && !isIcon token && !isMeaningful token) := by
  rw [rename_cls_eq]
  by_cases hash : isHashLike token = true
  · have notBlank := not_blank_of_plain (plain_of_shape (Or.inr (Or.inr hash)))
    simp [notBlank, hash]
  · have notShape : ¬ (isGuid token = true ∨ isHexDigest token = true) :=
      fun shape => hash (LongHex.of_shape shape).isHashLike
    obtain ⟨notGuid, notDigest⟩ := not_or.mp notShape
    simp [notGuid, notDigest, hash]

/-- Ids are renamed like classes, and those of layout nodes always. -/
theorem rename_id (mode : Mode) (token : Text) :
    (judge .id mode token).rename = (isLayoutNodeId token || (judge .cls mode token).rename) := by
  rw [rename_id_eq, rename_cls_eq]
  by_cases node : isLayoutNodeId token = true
  · simp [node, not_blank_of_isLayoutNodeId node]
  · simp [node]

/-- What strict rules rename, lenient rules rename as well. -/
theorem lenient_of_strict {kind : Kind} (renamed : (judge kind .strict token).rename = true) :
    (judge kind .lenient token).rename = true := by
  have ofClass (renamed : (judge .cls .strict token).rename = true) :
      (judge .cls .lenient token).rename = true := by
    rw [rename_cls_strict, Bool.or_eq_true] at renamed
    have longHex := LongHex.of_shape renamed
    simp [rename_cls_lenient, longHex.isHashLike, longHex.not_icon, longHex.not_meaningful]
  cases kind with
  | cls => exact ofClass renamed
  | id =>
    rw [rename_id, Bool.or_eq_true] at renamed ⊢
    exact renamed.imp_right ofClass

/-- A token that looks generated is long, unless it begins like the usual id of a layout node. -/
theorem long_of_rename {kind : Kind} {mode : Mode} (renamed : (judge kind mode token).rename = true) :
    kind = .id ∧ Text.startsWith token layoutNodeStart = true ∨ 10 ≤ token.length := by
  rcases shape_of_rename renamed with ⟨isId, node⟩ | guid | digest | hash
  · rcases Bool.or_eq_true_iff.mp node with starts | layout
    · exact Or.inl ⟨isId, starts⟩
    · obtain ⟨lead, guid, digits, rfl, _, isGuid', _⟩ := parts_of_isLayoutNode layout
      have long := (LongHex.of_isGuid isGuid').long
      refine Or.inr ?_
      simp only [List.length_append]
      omega
  · exact Or.inr (le_trans (by decide) (LongHex.of_isGuid guid).long)
  · exact Or.inr (le_trans (by decide) (LongHex.of_isHexDigest digest).long)
  · simp only [isHashLike, Bool.and_eq_true, decide_eq_true_eq] at hash
    exact Or.inr hash.1

/-- The decisions on a token, as conditions on the token alone. -/
structure DecidedByShape (token : Text) : Prop where
  /-- Strict rules rename the classes that are GUIDs or digests. -/
  strict : (judge .cls .strict token).rename = (isGuid token || isHexDigest token)
  /-- Lenient rules rename the classes that look like hashes, icons and names aside. -/
  lenient : (judge .cls .lenient token).rename
    = (isHashLike token && !isIcon token && !isMeaningful token)
  /-- Ids are renamed like classes, and those of layout nodes always. -/
  ids : ∀ mode, (judge .id mode token).rename
    = (isLayoutNodeId token || (judge .cls mode token).rename)
  /-- No rule that keeps tokens applies to a GUID or a digest. -/
  unshadowed : isGuid token = true ∨ isHexDigest token = true →
    isBlankToken token = false ∧ isIcon token = false ∧ isMeaningful token = false
  /-- Lenient rules rename what strict rules rename. -/
  monotone : ∀ kind, (judge kind .strict token).rename = true → (judge kind .lenient token).rename = true
  /-- Short tokens are kept, but for ids that begin like those of layout nodes. -/
  short : ∀ kind mode, token.length < 10 → (judge kind mode token).rename = true →
    kind = .id ∧ Text.startsWith token layoutNodeStart = true

/-- **The decision on a token depends on its shape, not on the order of the rules.** -/
theorem judge_decidedByShape (token : Text) : DecidedByShape token where
  strict := rename_cls_strict token
  lenient := rename_cls_lenient token
  ids mode := rename_id mode token
  unshadowed shape := by
    have longHex := LongHex.of_shape shape
    exact ⟨longHex.not_blank, longHex.not_icon, longHex.not_meaningful⟩
  monotone _ := lenient_of_strict
  short kind mode brief renamed := by
    rcases long_of_rename renamed with layout | long
    · exact layout
    · exact absurd long (Nat.not_le.mpr brief)

/-- Seven characters are enough for the id of a layout node. -/
example : (judge .id .strict layoutNodeStart).rename = true ∧ layoutNodeStart.length = 7 := by decide

end Relabel
