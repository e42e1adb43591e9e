/-
**Reading the front of a text.**

Each function here reads something at the front of a text and returns what it read and what is left,
so that the two together are the text again.

* `readWord_eq`, `readAssignment_eq`, `readQuoted_eq`: nothing is lost.
-/

import Relabel.Text.Blank

namespace Relabel

/-- Whether `c` is the letter `small` up to case, in the sense of simple case folding: the long s
and the kelvin sign fold to s and k. Other characters fold to themselves. -/
def sameLetter (small c : Char) : Bool :=
  c.toLower == small || (small == 's' && c == '\u017F') || (small == 'k' && c == '\u212A')

/-- Reads a word, given in small letters, up to case. -/
def readWord : (word : Text) → Text → Option (Text × Text)
  | [], text => some ([], text)
  | _ :: _, [] => none
  | small :: word, c :: text =>
    if sameLetter small c then (readWord word text).map fun (read, rest) => (c :: read, rest)
    else none

/-- Reads an equals sign with white space around it. -/
def readAssignment (text : Text) : Option (Text × Text) :=
  match (text.dropWhile isBlank) with
  | '=' :: rest =>
    some (text.takeWhile isBlank ++ ['='] ++ rest.takeWhile isBlank, rest.dropWhile isBlank)
  | _ => none

/-- Whether a character is one of the two quotes. -/
def isQuote (c : Char) : Bool :=
  c == '"' || c == '\''

/-- Reads a quoted value: the quote, the value, which does not contain it, and what follows the same
quote behind the value. -/
def readQuoted : Text → Option (Char × Text × Text)
  | [] => none
  | quote :: text =>
    if isQuote quote then
      match text.dropWhile (· != quote) with
      | [] => none
      | _ :: rest => some (quote, text.takeWhile (· != quote), rest)
    else none

/-! ### Nothing is lost -/

theorem readWord_eq {word text read rest : Text} (found : readWord word text = some (read, rest)) :
    text = read ++ rest := by
  induction word generalizing text read with
  | nil => simp_all [readWord]
  | cons small word ih =>
    cases text with
    | nil => simp [readWord] at found
    | cons c text =>
      simp only [readWord] at found
      split at found
      · obtain ⟨⟨read', rest'⟩, inner, same⟩ := Option.map_eq_some_iff.mp found
        obtain ⟨rfl, rfl⟩ := Prod.mk.inj same
        simp [ih inner]
      · simp at found

theorem readWord_length {word text read rest : Text}
    (found : readWord word text = some (read, rest)) : read.length = word.length := by
  induction word generalizing text read with
  | nil => simp_all [readWord]
  | cons small word ih =>
    cases text with
    | nil => simp [readWord] at found
    | cons c text =>
      simp only [readWord] at found
      split at found
      · obtain ⟨⟨read', rest'⟩, inner, same⟩ := Option.map_eq_some_iff.mp found
        obtain ⟨rfl, rfl⟩ := Prod.mk.inj same
        simp [ih inner]
      · simp at found

theorem readAssignment_eq {text read rest : Text}
    (found : readAssignment text = some (read, rest)) : text = read ++ rest := by
  unfold readAssignment at found
  split at found
  next behind split =>
    obtain ⟨rfl, rfl⟩ := Prod.mk.inj (Option.some.inj found)
    have whole := List.takeWhile_append_dropWhile (p := isBlank) (l := text)
    rw [split] at whole
    exact whole.symm.trans (by simp)
  next => simp at found

theorem readQuoted_eq {text value rest : Text} {quote : Char}
    (found : readQuoted text = some (quote, value, rest)) :
    text = quote :: value ++ quote :: rest := by
  unfold readQuoted at found
  split at found
  next => simp at found
  next c behind =>
    split at found
    next =>
      split at found
      next => simp at found
      next d rest' split =>
        simp only [Option.some.injEq, Prod.mk.injEq] at found
        obtain ⟨rfl, rfl, rfl⟩ := found
        have stop : d = c := by
          have stopped := List.head_dropWhile_not (fun x => x != c) (l := behind) (by simp [split])
          simpa [split] using stopped
        have whole := List.takeWhile_append_dropWhile (p := fun x => x != c) (l := behind)
        rw [split, stop] at whole
        simp [whole]
    next => simp at found

end Relabel
