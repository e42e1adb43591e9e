/-
**Which tokens a stylesheet can select.**

A token that is renamed in a document should be renamed in the stylesheet wherever the stylesheet can name
it: where it is an identifier that needs no escape, or has one of the shapes that generators give their
names. The selectors of a stylesheet are read by rules of their own. These know all such tokens but the
identifiers that begin with two hyphens.

* `isPlainIdentifier`, `isGenerated`, `isNameable`: the tokens that a stylesheet can name.
* `Selectable`: the tokens that the rules for selectors accept, whatever follows them.
* `selectable_or_hyphens`: where the two differ.
* `nameable_reported_iff`: which tokens behind a sigil are reported.
* `processPair_hyphensUnselected`: a class that is renamed in the document only.
-/

import Relabel.Proofs.Run.Names
import Relabel.Proofs.Substitution.SelectorPlaces
import Relabel.Proofs.Token.Verdict

namespace Relabel

open Text (byteLength splitOn splitWhen)

/-! ### Tokens that can be named -/

/-- An identifier of ASCII characters without escapes: it begins with a letter or an underscore, or with a
hyphen and one of these or a second hyphen. -/
def isPlainIdentifier : Text → Bool
  | '-' :: c :: rest => (c.isAlpha || c == '_' || c == '-') && rest.all isIdentifierChar
  | token => isIdentifierStart token

/-- Whether a token has a shape that generators give their names and that may begin with a digit. -/
def isGenerated (token : Text) : Bool :=
  isGuid token || isHexDigest token || isLayoutNode token

/-- Whether a stylesheet that is renamed can name a token behind a sigil. -/
def isNameable (token : Text) : Bool :=
  isPlainIdentifier token || isGenerated token

/-- Whether a token begins with two hyphens. -/
def isHyphened (token : Text) : Bool :=
  Text.startsWith token ['-', '-']

/-- A token that the rules for selectors accept, whatever follows it. -/
structure Selectable (token : Text) : Prop where
  named : isSelectorName token = true
  begins : ∀ text, beginsName (token ++ text) = true
  unhyphened : isHyphened token = false

/-! ### Generated shapes -/

/-- The first group of a GUID is not empty. -/
theorem isGuid_hyphen (rest : Text) : isGuid ('-' :: rest) = false := by
  have first : splitOn '-' ('-' :: rest) = [] :: splitOn '-' rest := by
    unfold splitOn
    rw [splitWhen, if_pos (by decide)]
  unfold isGuid
  rw [first]
  rfl

/-- What generators make begins with no hyphen. -/
theorem head_of_isGenerated {token : Text} (shape : isGenerated token = true) : '-' ∉ token.head? := by
  intro isHead
  obtain ⟨rest, rfl⟩ := List.head?_eq_some_iff.mp isHead
  simp only [isGenerated, Bool.or_eq_true, isGuid_hyphen, Bool.false_eq_true, false_or] at shape
  rcases shape with digest | node
  · have isHexDigit := List.all_eq_true.mp (Bool.and_eq_true_iff.mp digest).2 '-' List.mem_cons_self
    exact absurd isHexDigit (by decide)
  · obtain ⟨lead, guid, digits, parts, begins, isGuid', _⟩ := parts_of_isLayoutNode node
    rcases begins with rfl | rfl
    · obtain ⟨c, guid, rfl⟩ := List.exists_cons_of_ne_nil (plain_of_isGuid isGuid').1
      obtain ⟨rfl, _⟩ := List.cons.inj parts
      exact absurd isGuid' (by simp [isGuid_hyphen])
    · exact absurd (List.cons.inj parts).1 (by decide)

theorem plain_of_isGenerated {token : Text} (shape : isGenerated token = true) :
    token ≠ [] ∧ ∀ c ∈ token, isIdentifierChar c = true := by
  simp only [isGenerated, Bool.or_eq_true] at shape
  rcases shape with (guid | digest) | node
  · exact plain_of_isGuid guid
  · exact plain_of_shape (Or.inr (Or.inl digest))
  · exact plain_of_isLayoutNode node

/-- A name begins with each character of identifiers but the hyphen. -/
theorem isNameStart_of_isIdentifierChar {c : Char} (inIdentifier : isIdentifierChar c = true)
    (notHyphen : c ≠ '-') : isNameStart c = true := by
  unfold isNameStart
  simp only [isIdentifierChar, Bool.or_eq_true, beq_iff_eq, notHyphen, or_false] at inIdentifier
  simp only [Bool.or_eq_true, beq_iff_eq]
  exact Or.inl inIdentifier

theorem unhyphened_of_head {token : Text} (notHyphen : '-' ∉ token.head?) : isHyphened token = false := by
  cases token with
  | nil => rfl
  | cons c rest =>
    have other : '-' ≠ c := fun same => notHyphen (congrArg some same.symm)
    simp [isHyphened, Text.startsWith, Text.after?, other]

theorem beginsName_of_head {token : Text} (nonempty : token ≠ [])
    (plain : ∀ c ∈ token, isIdentifierChar c = true) (notHyphen : '-' ∉ token.head?) (text : Text) :
    beginsName (token ++ text) = true := by
  obtain ⟨c, rest, rfl⟩ := List.exists_cons_of_ne_nil nonempty
  have other : c ≠ '-' := fun same => notHyphen (congrArg some same)
  have isStart := isNameStart_of_isIdentifierChar (plain c List.mem_cons_self) other
  rw [List.cons_append]
  unfold beginsName
  split
  next same => exact absurd (List.cons.inj same).1 other
  next same => rwa [← (List.cons.inj same).1]
  next same => simp at same

/-- The rules for selectors accept what generators make. -/
theorem selectable_of_isGenerated {token : Text} (shape : isGenerated token = true) :
    Selectable token := by
  obtain ⟨nonempty, plain⟩ := plain_of_isGenerated shape
  have notHyphen := head_of_isGenerated shape
  refine ⟨?_, beginsName_of_head nonempty plain notHyphen, unhyphened_of_head notHyphen⟩
  unfold isSelectorName
  split
  · unfold isGenerated at shape
    rw [Bool.or_assoc, Bool.or_assoc, ← Bool.or_assoc (isGuid token), shape, Bool.or_true]
  · rfl

/-! ### Identifiers -/

/-- Identifiers without escapes have the characters of identifiers only. -/
theorem plain_of_isPlainIdentifier {token : Text} (identifier : isPlainIdentifier token = true) :
    ∀ c ∈ token, isIdentifierChar c = true := by
  unfold isPlainIdentifier at identifier
  split at identifier
  next c rest =>
    obtain ⟨second, others⟩ := Bool.and_eq_true_iff.mp identifier
    simp only [Bool.or_eq_true, beq_iff_eq] at second
    intro d member
    simp only [List.mem_cons] at member
    rcases member with rfl | rfl | behind
    · decide
    · rw [isIdentifierChar_iff]
      tauto
    · exact List.all_eq_true.mp others d behind
  next => exact (plain_of_isIdentifierStart identifier).2

theorem plain_of_isNameable {token : Text} (nameable : isNameable token = true) :
    ∀ c ∈ token, isIdentifierChar c = true := by
  rcases Bool.or_eq_true_iff.mp nameable with identifier | shape
  · exact plain_of_isPlainIdentifier identifier
  · exact (plain_of_isGenerated shape).2

/-- What may begin an identifier behind a hyphen. -/
theorem start_facts {c : Char} (start : (c.isAlpha || c == '_') = true) :
    c ≠ '-' ∧ c.isDigit = false ∧ isNameStart c = true := by
  rcases Bool.or_eq_true_iff.mp start with alpha | underscore
  · have letter := isAlpha_iff.mp alpha
    refine ⟨?_, ?_, by simp [isNameStart, Char.isAlphanum, alpha]⟩
    · rintro rfl
      exact absurd alpha (by decide)
    · rw [Bool.eq_false_iff]
      intro digit
      have range := isDigit_iff.mp digit
      omega
  · obtain rfl := eq_of_beq underscore
    decide

theorem selectable_hyphen {c : Char} {rest : Text} (start : (c.isAlpha || c == '_') = true) :
    Selectable ('-' :: c :: rest) := by
  obtain ⟨notHyphen, notDigit, isStart⟩ := start_facts start
  refine ⟨?_, fun text => isStart, ?_⟩
  · simp [isSelectorName, notHyphen, notDigit]
  · simp [isHyphened, Text.startsWith, Text.after?, Ne.symm notHyphen]

theorem selectable_of_isIdentifierStart {token : Text} (begins : isIdentifierStart token = true) :
    Selectable token := by
  obtain ⟨nonempty, _, named, beginsName⟩ := selector_of_isIdentifierStart begins
  refine ⟨named, beginsName, unhyphened_of_head ?_⟩
  intro isHead
  obtain ⟨rest, rfl⟩ := List.head?_eq_some_iff.mp isHead
  simp only [isIdentifierStart, Bool.and_eq_true] at begins
  exact absurd begins.1 (by decide)

/-- **The rules for selectors accept each token that can be named**, unless it begins with two hyphens. -/
theorem selectable_or_hyphens {token : Text} (nameable : isNameable token = true) :
    Selectable token ∨ ∃ rest, token = '-' :: '-' :: rest := by
  rcases Bool.or_eq_true_iff.mp nameable with identifier | shape
  · unfold isPlainIdentifier at identifier
    split at identifier
    next c rest =>
      have second := (Bool.and_eq_true_iff.mp identifier).1
      rcases Bool.or_eq_true_iff.mp second with start | hyphen
      · exact Or.inl (selectable_hyphen start)
      · exact Or.inr ⟨rest, by rw [eq_of_beq hyphen]⟩
    next => exact Or.inl (selectable_of_isIdentifierStart identifier)
  · exact Or.inl (selectable_of_isGenerated shape)

/-- **Which tokens behind a sigil are reported**: each token that can be named, unless it begins with two
hyphens. The sigil stands behind no identifier, and nothing behind the token continues it. -/
theorem nameable_reported_iff {kind : Kind} {token before behind : Text}
    (nameable : isNameable token = true) (closed : ∀ c ∈ before.getLast?, isNameChar c = false)
    (stops : ∀ c ∈ behind.head?, isNameChar c = false) :
    (kind, ⟨byteLength before + 1, byteLength before + 1 + byteLength token, token, none, none⟩)
        ∈ locatedSelectors (before ++ kind.sigil :: (token ++ behind))
      ↔ isHyphened token = false := by
  have inName : ∀ c ∈ token, isNameChar c = true := fun c member => by
    simp [isNameChar, plain_of_isNameable nameable c member]
  rw [mem_locatedSelectors_iff closed inName stops]
  rcases selectable_or_hyphens nameable with selectable | ⟨rest, rfl⟩
  · exact iff_of_true ⟨selectable.begins behind, selectable.named⟩ selectable.unhyphened
  · have unbegun : beginsName ('-' :: '-' :: rest ++ behind) = false := rfl
    have hyphened : isHyphened ('-' :: '-' :: rest) = true := rfl
    rw [unbegun, hyphened]
    simp

/-- A class that begins with a digit. -/
def digitClass : Text := "0123abcd-0123-4567-89ab-0123456789ab"

/-- A class that begins with a digit is reported for its shape. -/
theorem nameable_reported_guid :
    (.cls, ⟨5, 41, digitClass, none, none⟩) ∈ locatedSelectors ("nav .".toList ++ digitClass ++ "{}".toList) := by
  have closed : ∀ c ∈ "nav ".toList.getLast?, isNameChar c = false := by
    rw [show "nav ".toList.getLast? = some ' ' by decide]
    rintro c ⟨⟩
    decide
  have stops : ∀ c ∈ "{}".toList.head?, isNameChar c = false := by
    rw [show "{}".toList.head? = some '{' by decide]
    rintro c ⟨⟩
    decide
  have reported : (Kind.cls, ⟨byteLength "nav ".toList + 1, byteLength "nav ".toList + 1 + byteLength digitClass,
      digitClass, none, none⟩) ∈ locatedSelectors ("nav ".toList ++ Kind.sigil .cls :: (digitClass ++ "{}".toList)) :=
    (nameable_reported_iff (by decide +kernel) closed stops).mpr (by decide)
  exact reported

/-- A document with a class that begins with two hyphens, and a rule for that class. -/
def hyphenedPair : Pair where
  html := "<p class='--Card-Title'></p>"
  css := ".--Card-Title{}"

/-- **A class that begins with two hyphens is renamed in the document only**, although a stylesheet can name
it without an escape. -/
theorem processPair_hyphensUnselected :
    (judge .cls .lenient "--Card-Title".toList).rename = true
      ∧ isPlainIdentifier "--Card-Title".toList = true
      ∧ locatedSelectors hyphenedPair.css = []
      ∧ ∃ outcome, processPair {} hyphenedPair = .ok outcome
          ∧ outcome.pair = ⟨"<p class='c001_10786a'></p>".toList, ".--Card-Title{}".toList⟩ :=
  ⟨by decide +kernel, by decide +kernel, by decide +kernel, processed {} hyphenedPair,
    processPair_eq_ok_iff.mpr ⟨rfl, rfl⟩, by decide +kernel⟩

end Relabel
