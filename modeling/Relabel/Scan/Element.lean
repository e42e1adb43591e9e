/-
**Script and style elements.**

An element is recognised by its start tag: the name, up to case, ends at a word boundary.

* `scriptAttributes`: the quoted value of the first `src` attribute of a script's start tag. White
  space precedes the attribute, and no `>` stands between it and the name of the tag.
* `styleBodies`: what stands between the start tag and the first end tag of a style element.
-/

import Relabel.Scan.Attribute
import Relabel.Text.WordChar

namespace Relabel

/-- Whether a word that is followed by `text` ends there. -/
def atWordEnd : Text → Bool
  | [] => true
  | c :: _ => !isWordChar c

/-- Reads the beginning of a start tag, up to the end of its name. -/
def readTagName (opening text : Text) : Option (Text × Text) := do
  let (read, rest) ← readWord opening text
  if atWordEnd rest then some (read, rest) else none

theorem readTagName_eq {opening text read rest : Text}
    (found : readTagName opening text = some (read, rest)) :
    text = read ++ rest ∧ read.length = opening.length := by
  unfold readTagName at found
  simp only [Option.bind_eq_bind, Option.bind_eq_some_iff] at found
  obtain ⟨⟨read', rest'⟩, first, last⟩ := found
  split at last
  · obtain ⟨rfl, rfl⟩ := Prod.mk.inj (Option.some.inj last)
    exact ⟨readWord_eq first, readWord_length first⟩
  · simp at last

/-! ### Scripts -/

/-- The attribute that names the source of a script. -/
def sourceRule : AttributeRule :=
  ⟨["src".toList], fun _ => true, false⟩

/-- A match of the source attribute whose white space is `c`. -/
def readSource (c : Char) (text : Text) : Option Hit :=
  if isBlank c then sourceRule.read text else none

/-- The first place in the rest of a start tag where an attribute is found. `attempt` looks for it
behind a character; `passed` holds the characters before, last one first. -/
def searchTag (attempt : Char → Text → Option Hit) (passed : Text) : Text → Option Hit
  | [] => none
  | c :: text =>
    match attempt c text with
    | some hit => some { hit with lead := passed.reverse ++ c :: hit.lead }
    | none => if c = '>' then none else searchTag attempt (c :: passed) text

/-- A match of a script's start tag at the front of a text. -/
def readScript (text : Text) : Option Hit := do
  let (opening, text) ← readTagName "<script" text
  let hit ← searchTag readSource [] text
  some { hit with lead := opening ++ hit.lead }

theorem readSource_eq {c : Char} {text : Text} {hit : Hit} (found : readSource c text = some hit) :
    text = hit.text := by
  unfold readSource at found
  split at found
  · exact (sourceRule.read_eq found).1
  · simp at found

theorem searchTag_eq {attempt : Char → Text → Option Hit}
    (covers : ∀ c text hit, attempt c text = some hit → text = hit.text) {passed text : Text}
    {hit : Hit} (found : searchTag attempt passed text = some hit) :
    passed.reverse ++ text = hit.text := by
  induction text generalizing passed with
  | nil => simp [searchTag] at found
  | cons c text ih =>
    unfold searchTag at found
    split at found
    next inner read =>
      obtain rfl := Option.some.inj found
      simp [Hit.text, covers c text inner read]
    next =>
      split at found
      · simp at found
      · simpa using ih found

theorem readScript_eq {text : Text} {hit : Hit} (found : readScript text = some hit) :
    text = hit.text ∧ hit.lead ≠ [] := by
  unfold readScript at found
  simp only [Option.bind_eq_bind, Option.bind_eq_some_iff] at found
  obtain ⟨⟨opening, text₁⟩, first, inner, second, last⟩ := found
  obtain rfl := Option.some.inj last
  obtain ⟨rfl, size⟩ := readTagName_eq first
  have parts : text₁ = inner.text := by
    simpa using searchTag_eq (fun _ _ _ => readSource_eq) second
  refine ⟨by simp [Hit.text, parts], fun none => ?_⟩
  have short := congrArg List.length none
  simp only [List.length_append, List.length_nil, size] at short
  revert short
  simp

/-- The matcher of script sources. -/
def scriptAttributes : Matcher where
  run _ := readScript
  covers _ _ _ found := (readScript_eq found).1
  advances _ _ _ found := (readScript_eq found).2

/-! ### Style elements -/

/-- Reads the end tag of a style element. -/
def readStyleEnd (text : Text) : Option (Text × Text) := do
  let (read, text) ← readWord "</style" text
  match text.dropWhile isBlank with
  | '>' :: rest => some (read ++ text.takeWhile isBlank ++ ['>'], rest)
  | _ => none

/-- The text up to the first end tag, the end tag and what follows it. `passed` holds the characters
before, last one first. -/
def readStyleBody (passed : Text) : Text → Option (Text × Text × Text)
  | [] => none
  | c :: text =>
    match readStyleEnd (c :: text) with
    | some (tail, rest) => some (passed.reverse, tail, rest)
    | none => readStyleBody (c :: passed) text

/-- A match of a style element at the front of a text. -/
def readStyle (text : Text) : Option Hit := do
  let (opening, text) ← readTagName "<style" text
  match text.dropWhile (· != '>') with
  | '>' :: body =>
    let (value, tail, rest) ← readStyleBody [] body
    some { lead := opening ++ text.takeWhile (· != '>') ++ ['>'], value, tail, rest }
  | _ => none

theorem readStyleEnd_eq {text tail rest : Text} (found : readStyleEnd text = some (tail, rest)) :
    text = tail ++ rest := by
  unfold readStyleEnd at found
  simp only [Option.bind_eq_bind, Option.bind_eq_some_iff] at found
  obtain ⟨⟨read, text₁⟩, first, second⟩ := found
  simp only at second
  split at second
  next behind split =>
    obtain ⟨rfl, rfl⟩ := Prod.mk.inj (Option.some.inj second)
    obtain rfl := readWord_eq first
    have whole := List.takeWhile_append_dropWhile (p := isBlank) (l := text₁)
    rw [split] at whole
    simp only [List.append_assoc, List.append_cancel_left_eq]
    exact whole.symm.trans (by simp)
  next => simp at second

theorem readStyleBody_eq {passed text value tail rest : Text}
    (found : readStyleBody passed text = some (value, tail, rest)) :
    passed.reverse ++ text = value ++ tail ++ rest := by
  induction text generalizing passed with
  | nil => simp [readStyleBody] at found
  | cons c text ih =>
    unfold readStyleBody at found
    split at found
    next tail' rest' closed =>
      simp only [Option.some.injEq, Prod.mk.injEq] at found
      obtain ⟨rfl, rfl, rfl⟩ := found
      simp [readStyleEnd_eq closed]
    next => simpa using ih found

theorem readStyle_eq {text : Text} {hit : Hit} (found : readStyle text = some hit) :
    text = hit.text ∧ hit.lead ≠ [] := by
  unfold readStyle at found
  simp only [Option.bind_eq_bind, Option.bind_eq_some_iff] at found
  obtain ⟨⟨opening, text₁⟩, first, second⟩ := found
  simp only at second
  split at second
  next body split =>
    simp only [Option.bind_eq_some_iff] at second
    obtain ⟨⟨value, tail, rest⟩, inner, last⟩ := second
    obtain rfl := Option.some.inj last
    obtain ⟨rfl, _⟩ := readTagName_eq first
    have parts : body = value ++ tail ++ rest := by simpa using readStyleBody_eq inner
    have whole := List.takeWhile_append_dropWhile (p := fun x => x != '>') (l := text₁)
    rw [split, parts] at whole
    refine ⟨?_, by simp⟩
    simp only [Hit.text, List.append_assoc, List.append_cancel_left_eq]
    exact whole.symm.trans (by simp)
  next => simp at second

/-- The matcher of the bodies of style elements. -/
def styleBodies : Matcher where
  run _ := readStyle
  covers _ _ _ found := (readStyle_eq found).1
  advances _ _ _ found := (readStyle_eq found).2

end Relabel
