/-
**References of the form `url(#name)`.**

They occur in presentation attributes and inline styles. The name may be quoted on either side; it
is not empty and holds no quotes, no parentheses and no white space.
-/

import Relabel.Scan.Basic
import Relabel.Scan.Read

namespace Relabel

/-- Reads a quote, if there is one. -/
def readOptionalQuote : Text → Text × Text
  | [] => ([], [])
  | c :: text => if isQuote c then ([c], text) else ([], c :: text)

/-- Whether a character may be part of a referenced name. -/
def isUrlNameChar (c : Char) : Bool :=
  !(isQuote c || c == '(' || c == ')' || isBlank c)

/-- Reads what closes a reference: an optional quote, white space and a parenthesis. -/
def readUrlEnd (text : Text) : Option (Text × Text) :=
  let (quote, text) := readOptionalQuote text
  match text.dropWhile isBlank with
  | ')' :: rest => some (quote ++ text.takeWhile isBlank ++ [')'], rest)
  | _ => none

/-- Reads what opens a reference: the word, a parenthesis, white space, an optional quote and a
number sign. -/
def readUrlStart (text : Text) : Option (Text × Text) := do
  let (word, text) ← readWord "url(" text
  let (quote, rest) := readOptionalQuote (text.dropWhile isBlank)
  match rest with
  | '#' :: rest => some (word ++ text.takeWhile isBlank ++ quote ++ ['#'], rest)
  | _ => none

/-- A match of a reference at the front of a text. -/
def readUrl (text : Text) : Option Hit := do
  let (lead, text) ← readUrlStart text
  let value := text.takeWhile isUrlNameChar
  if value = [] then none
  else
    let (tail, rest) ← readUrlEnd (text.dropWhile isUrlNameChar)
    some { lead, value, tail, rest }

theorem readOptionalQuote_eq (text : Text) :
    text = (readOptionalQuote text).1 ++ (readOptionalQuote text).2 := by
  cases text with
  | nil => rfl
  | cons c text => simp only [readOptionalQuote]; split <;> rfl

theorem readUrlEnd_eq {text tail rest : Text} (found : readUrlEnd text = some (tail, rest)) :
    text = tail ++ rest := by
  unfold readUrlEnd at found
  simp only at found
  split at found
  next behind split =>
    obtain ⟨rfl, rfl⟩ := Prod.mk.inj (Option.some.inj found)
    have whole := List.takeWhile_append_dropWhile (p := isBlank) (l := (readOptionalQuote text).2)
    rw [split] at whole
    exact (readOptionalQuote_eq text).trans ((congrArg _ whole.symm).trans (by simp))
  next => simp at found

theorem readUrlStart_eq {text lead rest : Text} (found : readUrlStart text = some (lead, rest)) :
    text = lead ++ rest ∧ lead ≠ [] := by
  unfold readUrlStart at found
  simp only [Option.bind_eq_bind, Option.bind_eq_some_iff] at found
  obtain ⟨⟨word, text₁⟩, first, second⟩ := found
  simp only at second
  split at second
  next behind split =>
    obtain ⟨rfl, rfl⟩ := Prod.mk.inj (Option.some.inj second)
    obtain rfl := readWord_eq first
    have whole := List.takeWhile_append_dropWhile (p := isBlank) (l := text₁)
    have quoted := readOptionalQuote_eq (text₁.dropWhile isBlank)
    rw [split] at quoted
    rw [quoted] at whole
    refine ⟨?_, by simp⟩
    simp only [List.append_assoc, List.append_cancel_left_eq]
    exact whole.symm.trans (by simp)
  next => simp at second

theorem readUrl_eq {text : Text} {hit : Hit} (found : readUrl text = some hit) :
    text = hit.text ∧ hit.lead ≠ [] := by
  unfold readUrl at found
  simp only [Option.bind_eq_bind, Option.bind_eq_some_iff] at found
  obtain ⟨⟨lead, text₁⟩, first, second⟩ := found
  obtain ⟨rfl, nonempty⟩ := readUrlStart_eq first
  simp only at second
  split at second
  next => simp at second
  next =>
    simp only [Option.bind_eq_some_iff] at second
    obtain ⟨⟨tail, rest⟩, closed, last⟩ := second
    obtain rfl := Option.some.inj last
    refine ⟨?_, nonempty⟩
    have whole := List.takeWhile_append_dropWhile (p := isUrlNameChar) (l := text₁)
    rw [readUrlEnd_eq closed] at whole
    simp only [Hit.text, List.append_assoc, List.append_cancel_left_eq]
    exact whole.symm

/-- The matcher of references of the form `url(#name)`. -/
def urlReferences : Matcher where
  run _ := readUrl
  covers _ _ _ found := (readUrl_eq found).1
  advances _ _ _ found := (readUrl_eq found).2

end Relabel
