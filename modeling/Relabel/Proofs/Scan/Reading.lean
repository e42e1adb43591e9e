/-
**Reading up to a stopper.**

A *stopper* is a character that a reader cannot pass. If one stands in the text ahead, then what is
read does not depend on what follows the stopper.

* `exists_run_of_stop`, `takeWhile_append_of_stop`, `dropWhile_append_of_stop`: runs of a class of
  characters.
* `readWord_append`, `readAssignment_append`: words and equals signs.
* `readWord_eq_some_iff`, `readAssignment_eq_some`, `readQuoted_eq_some`: what has been read.
* `readAssignment_until_quote`, `readQuoted_closed`: what is read again before other text.
-/

import Mathlib.Data.List.TakeWhile
import Mathlib.Tactic
import Relabel.Proofs.Text.Letters
import Relabel.Scan.Read

namespace Relabel

variable {p t : Text} {c : Char}

/-! ### Runs -/

/-- A text with a stopper is a run and what follows it, which begins before or at the stopper. -/
theorem exists_run_of_stop {f : Char → Bool} (member : c ∈ p) (stops : f c = false) :
    ∃ run e rest, p = run ++ e :: rest ∧ (∀ d ∈ run, f d = true) ∧ f e = false ∧ c ∈ e :: rest := by
  induction p with
  | nil => simp at member
  | cons d p ih =>
    by_cases holds : f d = true
    · have behind : c ∈ p := by
        rcases List.mem_cons.mp member with rfl | behind
        · simp [stops] at holds
        · exact behind
      obtain ⟨run, e, rest, rfl, inRun, stopped, after⟩ := ih behind
      exact ⟨d :: run, e, rest, rfl, List.forall_mem_cons.mpr ⟨holds, inRun⟩, stopped, after⟩
    · exact ⟨[], d, p, rfl, by simp, by simpa using holds, member⟩

/-- A run ends where no character of the class follows. -/
theorem takeWhile_dropWhile_append {f : Char → Bool} {run rest : Text} (inRun : ∀ c ∈ run, f c = true)
    (stops : ∀ c ∈ rest.head?, f c = false) :
    (run ++ rest).takeWhile f = run ∧ (run ++ rest).dropWhile f = rest := by
  rw [List.takeWhile_append_of_pos inRun, List.dropWhile_append_of_pos inRun]
  rcases rest with _ | ⟨c, rest⟩
  · simp
  · simp [stops c rfl]

/-- A run ends at a stopper. -/
theorem takeWhile_append_of_stop {f : Char → Bool} (member : c ∈ p) (stops : f c = false) :
    (p ++ t).takeWhile f = p.takeWhile f := by
  obtain ⟨run, e, rest, rfl, inRun, stopped, _⟩ := exists_run_of_stop member stops
  rw [List.append_assoc, (takeWhile_dropWhile_append inRun (by simpa using stopped)).1,
    (takeWhile_dropWhile_append inRun (by simpa using stopped)).1]

/-- What follows a run begins before or at a stopper. -/
theorem dropWhile_append_of_stop {f : Char → Bool} (member : c ∈ p) (stops : f c = false) :
    (p ++ t).dropWhile f = p.dropWhile f ++ t := by
  obtain ⟨run, e, rest, rfl, inRun, stopped, _⟩ := exists_run_of_stop member stops
  rw [List.append_assoc, (takeWhile_dropWhile_append inRun (by simpa using stopped)).2,
    (takeWhile_dropWhile_append inRun (by simpa using stopped)).2]

theorem mem_dropWhile_of_stop {f : Char → Bool} (member : c ∈ p) (stops : f c = false) :
    c ∈ p.dropWhile f := by
  obtain ⟨run, e, rest, rfl, inRun, stopped, behind⟩ := exists_run_of_stop member stops
  rwa [(takeWhile_dropWhile_append inRun (by simpa using stopped)).2]

/-- What follows a run is empty or begins with a character outside the class. -/
theorem head_dropWhile {f : Char → Bool} {text rest : Text}
    (split : text.dropWhile f = c :: rest) : f c = false := by
  have stopped := List.head_dropWhile_not f (l := text) (by simp [split])
  simpa [split] using stopped

/-- Two texts that continue a different character each cannot be the same if neither character occurs
before the other's place. -/
theorem append_cons_ne {a b s : Text} {d : Char} (notInFirst : d ∉ a) (notInSecond : c ∉ b)
    (different : c ≠ d) : a ++ c :: s ≠ b ++ d :: t := by
  intro same
  rcases List.append_eq_append_iff.mp same with ⟨more, rfl, tail⟩ | ⟨more, rfl, tail⟩
  · rcases more with _ | ⟨first, more⟩
    · exact different (List.cons.inj tail).1
    · obtain ⟨rfl, _⟩ := List.cons.inj tail
      exact notInSecond (by simp)
  · rcases more with _ | ⟨first, more⟩
    · exact different (List.cons.inj tail).1.symm
    · obtain ⟨rfl, _⟩ := List.cons.inj tail
      exact notInFirst (by simp)

/-- The same from the end. -/
theorem cons_append_ne {a b s : Text} {d : Char} (notInFirst : d ∉ a) (notInSecond : c ∉ b)
    (different : c ≠ d) : s ++ c :: a ≠ t ++ d :: b := by
  intro same
  have reversed := congrArg List.reverse same
  simp only [List.reverse_append, List.reverse_cons, List.append_assoc, List.singleton_append]
    at reversed
  exact append_cons_ne (by simpa using notInFirst) (by simpa using notInSecond) different reversed

/-- A text is split in one way only at a character that stands in neither front. -/
theorem append_cons_inj {front front' rest rest' : Text} {c' : Char} (absent : c' ∉ front) (absent' : c ∉ front')
    (same : front ++ c :: rest = front' ++ c' :: rest') : front = front' ∧ c = c' ∧ rest = rest' := by
  rcases List.append_eq_append_iff.mp same with ⟨more, rfl, behind⟩ | ⟨more, rfl, behind⟩ <;>
    rcases more with _ | ⟨d, more⟩
  · obtain ⟨rfl, rfl⟩ := List.cons.inj behind
    exact ⟨by simp, rfl, rfl⟩
  · obtain ⟨rfl, _⟩ := List.cons.inj behind
    exact absurd (by simp) absent'
  · obtain ⟨rfl, rfl⟩ := List.cons.inj behind
    exact ⟨by simp, rfl, rfl⟩
  · obtain ⟨rfl, _⟩ := List.cons.inj behind
    exact absurd (by simp) absent

/-- If a text is split at a character and at a part without that character, the character stands before the part
or behind it. -/
theorem exists_apart {a b x v y : Text} (same : a ++ c :: b = x ++ (v ++ y)) (absent : c ∉ v) :
    (∃ r, x = a ++ c :: r) ∨ ∃ r, a = x ++ v ++ r := by
  rcases List.append_eq_append_iff.mp same with ⟨m, rfl, behind⟩ | ⟨m, rfl, behind⟩
  · cases m with
    | nil =>
      cases v with
      | nil => exact Or.inr ⟨[], by simp⟩
      | cons d v =>
        obtain ⟨rfl, _⟩ := List.cons.inj behind
        exact absurd List.mem_cons_self absent
    | cons d m =>
      obtain ⟨rfl, _⟩ := List.cons.inj behind
      exact Or.inl ⟨m, rfl⟩
  · rcases List.append_eq_append_iff.mp behind with ⟨k, rfl, _⟩ | ⟨k, rfl, rest⟩
    · exact Or.inr ⟨k, by simp⟩
    · cases k with
      | nil => exact Or.inr ⟨[], by simp⟩
      | cons d k =>
        obtain ⟨rfl, _⟩ := List.cons.inj rest
        exact absurd (by simp) absent

/-- If a text is split at two places, then there is text between them. -/
theorem exists_between {x x' y y' : Text} (same : x ++ y = x' ++ y') (order : x.length ≤ x'.length) :
    ∃ r, x' = x ++ r ∧ y = r ++ y' := by
  rcases List.append_eq_append_iff.mp same with parts | ⟨r, rfl, behind⟩
  · exact parts
  · rw [List.length_append] at order
    obtain rfl : r = [] := List.length_eq_zero_iff.mp (by omega)
    exact ⟨[], by simp, by simpa using behind.symm⟩

/-- A text that lacks a character of another ends before it, if both begin the same text. -/
theorem exists_behind {a b s : Text} (same : a ++ s = b ++ t) (member : c ∈ b) (absent : c ∉ a) :
    ∃ r, b = a ++ r ∧ s = r ++ t := by
  rcases List.append_eq_append_iff.mp same with parts | ⟨r, rfl, _⟩
  · exact parts
  · exact absurd (List.mem_append_left r member) absent

/-- The same from the end. -/
theorem exists_before {a b s : Text} (same : s ++ a = t ++ b) (member : c ∈ b) (absent : c ∉ a) :
    ∃ r, b = r ++ a ∧ s = t ++ r := by
  rcases List.append_eq_append_iff.mp same with ⟨r, _, rfl⟩ | ⟨r, parts, behind⟩
  · exact absurd (List.mem_append_right r member) absent
  · exact ⟨r, behind, parts⟩

/-- The last character of a text is that of any part at its end. -/
theorem ends_of_append {front a b : Text} (same : front ++ [c] = a ++ b) (nonempty : b ≠ []) :
    ∃ b', b = b' ++ [c] := by
  have split := List.dropLast_append_getLast nonempty
  rw [← split, ← List.append_assoc] at same
  obtain ⟨_, last⟩ := List.append_singleton_inj.mp same
  exact ⟨b.dropLast, by rw [last, split]⟩

/-- What holds at all places of a text holds at its front and at all places behind it. -/
theorem forall_suffix_cons {body y : Text} (holds : Text → Prop) :
    (∀ r, r ≠ [] → r <:+ c :: body → holds (r ++ y))
      ↔ holds (c :: (body ++ y)) ∧ ∀ r, r ≠ [] → r <:+ body → holds (r ++ y) := by
  constructor
  · exact fun all => ⟨all (c :: body) (List.cons_ne_nil c body) (List.suffix_refl _),
      fun r nonempty suffix => all r nonempty (suffix.trans (List.suffix_cons c body))⟩
  · rintro ⟨front, behind⟩ r nonempty suffix
    rcases List.suffix_cons_iff.mp suffix with rfl | shorter
    · exact front
    · exact behind r nonempty shorter

theorem ends_of_suffix {text : Text} (last : ∃ front, text = front ++ [c]) (nonempty : p ≠ [])
    (suffix : p <:+ text) : ∃ front, p = front ++ [c] := by
  obtain ⟨front, rfl⟩ := last
  obtain ⟨more, same⟩ := suffix
  exact ends_of_append same.symm nonempty

/-- What holds at all places of a text holds at those of its two parts. -/
theorem forall_suffix_append (holds : Text → Prop) {first second y : Text} :
    (∀ r, r ≠ [] → r <:+ first ++ second → holds (r ++ y))
      ↔ (∀ r, r ≠ [] → r <:+ first → holds (r ++ (second ++ y)))
        ∧ ∀ r, r ≠ [] → r <:+ second → holds (r ++ y) := by
  constructor
  · intro everywhere
    refine ⟨fun r nonempty suffix => ?_, fun r nonempty suffix => ?_⟩
    · obtain ⟨front, rfl⟩ := suffix
      rw [← List.append_assoc]
      exact everywhere (r ++ second) (by simp [nonempty]) ⟨front, by simp⟩
    · exact everywhere r nonempty (List.suffix_append_of_suffix suffix)
  · rintro ⟨inFirst, inSecond⟩ r nonempty ⟨front, parts⟩
    rcases List.append_eq_append_iff.mp parts with ⟨r', rfl, rfl⟩ | ⟨front', rfl, rfl⟩
    · by_cases empty : r' = []
      · subst empty
        exact inSecond _ nonempty (List.suffix_refl _)
      · rw [List.append_assoc]
        exact inFirst r' empty (List.suffix_append front r')
    · exact inSecond r nonempty (List.suffix_append front' r)

/-! ### Words -/

/-- A text that begins with another. -/
theorem after?_eq_some {start text rest : Text} (found : Text.after? start text = some rest) :
    text = start ++ rest := by
  induction start generalizing text with
  | nil => simpa [Text.after?] using found
  | cons s start ih =>
    cases text with
    | nil => simp [Text.after?] at found
    | cons c text =>
      simp only [Text.after?] at found
      split at found
      next same => rw [same, List.cons_append, ih found]
      next => simp at found

/-- A character that is no letter is only the same as itself. -/
theorem eq_of_sameLetter {small : Char} (plain : small.isAlpha = false)
    (same : sameLetter small c = true) : c = small := by
  have notS : small ≠ 's' := by
    rintro rfl
    simp at plain
  have notK : small ≠ 'k' := by
    rintro rfl
    simp at plain
  have lower : c.toLower = small := by simpa [sameLetter, notS, notK] using same
  unfold Char.toLower at lower
  split at lower
  next upper =>
    have bounds : 65 ≤ c.val.toNat ∧ c.val.toNat ≤ 90 := upper
    have shifted : small.val.toNat = c.val.toNat + 32 := by
      rw [← lower]
      show (c.val + ('a'.val - 'A'.val)).toNat = _
      rw [UInt32.toNat_add, show ('a'.val - 'A'.val).toNat = 32 by decide]
      omega
    have range : 97 ≤ small.val.toNat ∧ small.val.toNat ≤ 122 := by omega
    have letter : small.isAlpha = true := isAlpha_iff.mpr (Or.inr range)
    exact absurd letter (by simp [plain])
  · exact lower

/-- `read` spells a word that is given in small letters, up to case. -/
def Spells (word read : Text) : Prop :=
  List.Forall₂ (fun small c => sameLetter small c = true) word read

/-- A character that is no letter of a word. -/
def Foreign (word : Text) (c : Char) : Prop :=
  ∀ small ∈ word, sameLetter small c = false

instance (word : Text) (c : Char) : Decidable (Foreign word c) :=
  inferInstanceAs (Decidable (∀ small ∈ word, sameLetter small c = false))

theorem readWord_eq_some_iff {word text read rest : Text} :
    readWord word text = some (read, rest) ↔ text = read ++ rest ∧ Spells word read := by
  induction word generalizing text read with
  | nil =>
    simp only [readWord, Option.some.injEq, Prod.mk.injEq, Spells, List.forall₂_nil_left_iff]
    constructor
    · rintro ⟨rfl, rfl⟩
      simp
    · rintro ⟨rfl, rfl⟩
      simp
  | cons small word ih =>
    cases text with
    | nil =>
      simp only [readWord, reduceCtorEq, false_iff, not_and]
      intro parts spells
      obtain ⟨rfl, rfl⟩ := List.append_eq_nil_iff.mp parts.symm
      cases spells
    | cons d text =>
      simp only [readWord]
      by_cases same : sameLetter small d = true
      · rw [if_pos same, Option.map_eq_some_iff]
        constructor
        · rintro ⟨⟨read', rest'⟩, inner, parts⟩
          obtain ⟨rfl, rfl⟩ := Prod.mk.inj parts
          obtain ⟨rfl, spells⟩ := ih.mp inner
          exact ⟨rfl, List.Forall₂.cons same spells⟩
        · rintro ⟨parts, spells⟩
          cases spells with
          | cons first spells =>
            obtain ⟨rfl, rfl⟩ := List.cons.inj parts
            exact ⟨_, ih.mpr ⟨rfl, spells⟩, rfl⟩
      · rw [if_neg same]
        simp only [reduceCtorEq, false_iff, not_and]
        intro parts spells
        cases spells with
        | cons first spells =>
          obtain ⟨rfl, _⟩ := List.cons.inj parts
          exact same first

/-- The first letter of a word is spelt first. -/
theorem Spells.first {word read : Text} {small : Char} (spells : Spells (small :: word) read) :
    ∃ letter behind, read = letter :: behind ∧ sameLetter small letter = true
      ∧ Spells word behind := by
  cases spells with
  | cons same spells => exact ⟨_, _, rfl, same, spells⟩

/-- The last letter of a word is spelt last. -/
theorem Spells.last {word read : Text} {small : Char} (spells : Spells (word ++ [small]) read) :
    ∃ front letter, read = front ++ [letter] ∧ sameLetter small letter = true
      ∧ Spells word front := by
  induction word generalizing read with
  | nil =>
    cases spells with
    | cons same rest =>
      cases rest
      exact ⟨[], _, rfl, same, List.Forall₂.nil⟩
  | cons first word ih =>
    cases spells with
    | cons same rest =>
      obtain ⟨front, letter, rfl, last, spelt⟩ := ih rest
      exact ⟨_ :: front, letter, rfl, last, List.Forall₂.cons same spelt⟩

theorem Spells.not_mem {word read : Text} (spells : Spells word read) (foreign : Foreign word c) :
    c ∉ read := by
  induction spells with
  | nil => simp
  | @cons small d word read same rest ih =>
    intro member
    rcases List.mem_cons.mp member with rfl | behind
    · simp [foreign small List.mem_cons_self] at same
    · exact ih (fun small inWord => foreign small (List.mem_cons_of_mem _ inWord)) behind

/-- A word is read before a stopper or not at all. -/
theorem readWord_append {word : Text} (member : c ∈ p) (foreign : Foreign word c) :
    readWord word (p ++ t) = (readWord word p).map fun (read, rest) => (read, rest ++ t) := by
  induction word generalizing p with
  | nil => simp [readWord]
  | cons small word ih =>
    cases p with
    | nil => simp at member
    | cons d p =>
      simp only [List.cons_append, readWord]
      by_cases same : sameLetter small d = true
      · have behind : c ∈ p := by
          rcases List.mem_cons.mp member with rfl | behind
          · simp [foreign small List.mem_cons_self] at same
          · exact behind
        rw [if_pos same, if_pos same,
          ih behind fun small inWord => foreign small (List.mem_cons_of_mem _ inWord)]
        cases readWord word p <;> rfl
      · rw [if_neg same, if_neg same]
        rfl

theorem mem_of_readWord {word read rest : Text} (member : c ∈ p) (foreign : Foreign word c)
    (found : readWord word p = some (read, rest)) : c ∈ rest := by
  obtain ⟨rfl, spells⟩ := readWord_eq_some_iff.mp found
  exact (List.mem_append.mp member).resolve_left (spells.not_mem foreign)

/-! ### Equals signs -/

/-- An equals sign with white space around it. -/
def Assigns (sign : Text) : Prop :=
  ∃ before behind, sign = before ++ '=' :: behind ∧ (∀ c ∈ before, isBlank c = true)
    ∧ ∀ c ∈ behind, isBlank c = true

theorem Assigns.not_mem {sign : Text} (assigns : Assigns sign) (solid : isBlank c = false)
    (other : c ≠ '=') : c ∉ sign := by
  obtain ⟨before, behind, rfl, blankBefore, blankBehind⟩ := assigns
  intro member
  rcases List.mem_append.mp member with first | second
  · simp [blankBefore c first] at solid
  · rcases List.mem_cons.mp second with same | third
    · exact other same
    · simp [blankBehind c third] at solid

theorem readAssignment_eq_some {text sign rest : Text}
    (found : readAssignment text = some (sign, rest)) : text = sign ++ rest ∧ Assigns sign := by
  refine ⟨readAssignment_eq found, ?_⟩
  unfold readAssignment at found
  split at found
  next behind split =>
    obtain ⟨rfl, rfl⟩ := Prod.mk.inj (Option.some.inj found)
    exact ⟨text.takeWhile isBlank, behind.takeWhile isBlank, by simp,
      fun c member => List.mem_takeWhile_imp member, fun c member => List.mem_takeWhile_imp member⟩
  next => simp at found

/-- An equals sign is read before a stopper or not at all. -/
theorem readAssignment_append (member : c ∈ p) (solid : isBlank c = false) (other : c ≠ '=') :
    readAssignment (p ++ t) = (readAssignment p).map fun (sign, rest) => (sign, rest ++ t) := by
  have inRest := mem_dropWhile_of_stop member solid
  unfold readAssignment
  rw [dropWhile_append_of_stop member solid, takeWhile_append_of_stop member solid]
  cases split : p.dropWhile isBlank with
  | nil => simp [split] at inRest
  | cons d rest =>
    by_cases equals : d = '='
    · subst equals
      have behind : c ∈ rest := by
        rw [split] at inRest
        exact (List.mem_cons.mp inRest).resolve_left other
      simp [takeWhile_append_of_stop behind solid, dropWhile_append_of_stop behind solid]
    · simp [equals]

theorem mem_of_readAssignment {sign rest : Text} (member : c ∈ p) (solid : isBlank c = false)
    (other : c ≠ '=') (found : readAssignment p = some (sign, rest)) : c ∈ rest := by
  obtain ⟨rfl, assigns⟩ := readAssignment_eq_some found
  exact (List.mem_append.mp member).resolve_left (assigns.not_mem solid other)

/-! ### Quotes -/

theorem eq_of_isQuote {c : Char} (quoted : isQuote c = true) : c = '"' ∨ c = '\'' := by
  simpa [isQuote] using quoted

theorem not_isBlank_of_isQuote {c : Char} (quoted : isQuote c = true) : isBlank c = false := by
  rcases eq_of_isQuote quoted with rfl | rfl <;> decide

theorem ne_sign_of_isQuote {c : Char} (quoted : isQuote c = true) : c ≠ '=' := by
  rcases eq_of_isQuote quoted with rfl | rfl <;> decide

/-- An equals sign that is read before a quote is read whatever follows the quote. -/
theorem readAssignment_until_quote {text sign rest : Text} {q : Char} (quoted : isQuote q = true)
    (found : readAssignment text = some (sign, q :: rest)) :
    text = sign ++ q :: rest ∧ ∀ behind, readAssignment (sign ++ ([q] ++ behind)) = some (sign, [q] ++ behind) := by
  obtain rfl := readAssignment_eq found
  refine ⟨rfl, fun behind => ?_⟩
  have own : q ∈ sign ++ [q] := by simp
  have settled : ∀ t, readAssignment (sign ++ ([q] ++ t))
      = (readAssignment (sign ++ [q])).map fun parts => (parts.1, parts.2 ++ t) := by
    intro t
    rw [← List.append_assoc]
    exact readAssignment_append own (not_isBlank_of_isQuote quoted) (ne_sign_of_isQuote quoted)
  have old := settled rest
  rw [List.singleton_append, found] at old
  obtain ⟨⟨read, kept⟩, inner, same⟩ := Option.map_eq_some_iff.mp old.symm
  simp only [Prod.mk.injEq] at same
  obtain ⟨rfl, same⟩ := same
  have alone : kept = [q] := List.append_cancel_right (same : kept ++ rest = [q] ++ rest)
  rw [settled, inner, alone]
  rfl

theorem readQuoted_eq_some {text value rest : Text} {quote : Char}
    (found : readQuoted text = some (quote, value, rest)) :
    isQuote quote = true ∧ quote ∉ value := by
  unfold readQuoted at found
  split at found
  next => simp at found
  next q behind =>
    split at found
    next quoted =>
      split at found
      next => simp at found
      next =>
        simp only [Option.some.injEq, Prod.mk.injEq] at found
        obtain ⟨rfl, rfl, _⟩ := found
        refine ⟨quoted, fun member => ?_⟩
        simpa using List.mem_takeWhile_imp member
    next => simp at found

/-- A value ends at the first quote of the kind that opened it. -/
theorem readQuoted_closed {q : Char} {value rest : Text} (quoted : isQuote q = true) (absent : q ∉ value) :
    readQuoted ([q] ++ (value ++ q :: rest)) = some (q, value, rest) := by
  have passes : ∀ d ∈ value, (d != q) = true := by
    intro d inValue
    have different : d ≠ q := fun same => absent (same ▸ inValue)
    simpa using different
  have stops : ∀ d ∈ (q :: rest).head?, (d != q) = false := by simp
  obtain ⟨takes, drops⟩ := takeWhile_dropWhile_append passes stops
  simp only [List.singleton_append, readQuoted, quoted, if_true, takes, drops]

end Relabel
