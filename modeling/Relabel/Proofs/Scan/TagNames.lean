/-
**The tags at which scripts and style elements are matched.**

A match begins at the name of a tag, up to simple case folding, that ends at a word boundary. The name of a tag ends
at white space, at a slash or at the end of the tag, and its letters are compared in ASCII. So a match begins at a
start tag of the element unless a letter is the long s, or the name goes on with a character that is part of no
word, such as a hyphen.

* `isStartTag`: a start tag of an element at the front of a text.
* `Spells.map_toLower_iff`: what is spelt without the long s is spelt in ASCII.
* `TagMatch`: where the match of a finding begins.
* `tags_matched`: the findings of scripts and style elements.
-/

import Relabel.Proofs.Scan.Taken
import Relabel.Scan.Element

namespace Relabel

open Text (byteLength)

/-! ### Start tags -/

/-- Whether a character ends the name of a tag. -/
def endsTagName (c : Char) : Bool :=
  isBlank c || c == '/' || c == '>'

/-- Whether a start tag of the given element, in letters of either case, stands at the front of a text. -/
def isStartTag (name : Text) : Text → Bool
  | [] => false
  | c :: text =>
    c == '<' && (text.take name.length).map Char.toLower == name && (text.drop name.length).head?.any endsTagName

/-- The capital letters of ASCII fold to small ones, and so does the long s. -/
theorem toLower_of_sameLetter {small c : Char} (same : sameLetter small c = true) (notKelvin : small ≠ 'k')
    (notLongS : c ≠ '\u017F') : c.toLower = small := by
  simpa [sameLetter, notKelvin, notLongS] using same

/-- **What is spelt without the long s is spelt in ASCII.** -/
theorem Spells.map_toLower_iff {word written : Text} (spells : Spells word written) (noKelvin : 'k' ∉ word)
    (noLongS : '\u017F' ∉ word) : written.map Char.toLower = word ↔ '\u017F' ∉ written := by
  constructor
  · intro lower member
    have folded : Char.toLower '\u017F' ∈ written.map Char.toLower := List.mem_map_of_mem member
    rw [lower] at folded
    exact noLongS folded
  · intro absent
    induction spells with
    | nil => rfl
    | cons same spells ih =>
      simp only [List.mem_cons, not_or] at noKelvin noLongS absent
      rw [List.map_cons, toLower_of_sameLetter same (Ne.symm noKelvin.1) (Ne.symm absent.1),
        ih noKelvin.2 noLongS.2 absent.2]

/-- Whether the text begins with a start tag, if it begins with the name of one up to case. -/
theorem isStartTag_iff {name written rest : Text} {next : Char} (spells : Spells name written) (noKelvin : 'k' ∉ name)
    (noLongS : '\u017F' ∉ name) :
    isStartTag name ('<' :: (written ++ next :: rest)) = true
      ↔ '\u017F' ∉ written ∧ endsTagName next = true := by
  have size : name.length = written.length := spells.length_eq
  simp [isStartTag, size, spells.map_toLower_iff noKelvin noLongS]

/-! ### Matches -/

/-- The match of a finding begins at `<` and the name of an element, up to case, behind which a word ends. It begins
at a start tag of the element exactly if no letter is the long s and the name of the tag ends there. -/
def TagMatch (matcher : Matcher) (name html : Text) (finding : Finding) : Prop :=
  ∃ before hit written next rest, matcher.Takes .start html before hit ∧ finding = hit.findingAt (byteLength before)
    ∧ hit.text = '<' :: (written ++ next :: rest) ∧ Spells name written ∧ isWordChar next = false
    ∧ (isStartTag name hit.text = true ↔ '\u017F' ∉ written ∧ endsTagName next = true)

/-- A tag name that is read and not at the end of the text. -/
theorem readTagName_eq_some {name text opening : Text} {next : Char} {rest : Text}
    (found : readTagName ('<' :: name) text = some (opening, next :: rest)) :
    ∃ written, text = '<' :: (written ++ next :: rest) ∧ Spells name written ∧ isWordChar next = false := by
  simp only [readTagName, Option.bind_eq_bind, Option.bind_eq_some_iff] at found
  obtain ⟨⟨read, behind⟩, word, last⟩ := found
  split at last
  next ends =>
    obtain ⟨rfl, rfl⟩ := Prod.mk.inj (Option.some.inj last)
    obtain ⟨rfl, spells⟩ := readWord_eq_some_iff.mp word
    obtain ⟨letter, written, rfl, same, spellsName⟩ := spells.first
    obtain rfl : letter = '<' := eq_of_sameLetter (by decide) same
    exact ⟨written, rfl, spellsName, by simpa [atWordEnd] using ends⟩
  next => simp at last

theorem readScript_tag {text : Text} {hit : Hit} (found : readScript text = some hit) :
    ∃ opening next rest, readTagName ('<' :: "script".toList) text = some (opening, next :: rest) := by
  simp only [readScript, Option.bind_eq_bind, Option.bind_eq_some_iff] at found
  obtain ⟨⟨opening, behind⟩, first, inner, second, _⟩ := found
  cases behind with
  | nil => simp [searchTag] at second
  | cons next rest => exact ⟨opening, next, rest, first⟩

theorem readStyle_tag {text : Text} {hit : Hit} (found : readStyle text = some hit) :
    ∃ opening next rest, readTagName ('<' :: "style".toList) text = some (opening, next :: rest) := by
  simp only [readStyle, Option.bind_eq_bind, Option.bind_eq_some_iff] at found
  obtain ⟨⟨opening, behind⟩, first, second⟩ := found
  cases behind with
  | nil => simp at second
  | cons next rest => exact ⟨opening, next, rest, first⟩

/-- A matcher whose matches begin with the name of a tag. -/
theorem tagMatch_of_mem_findings {matcher : Matcher} {name html : Text} (noKelvin : 'k' ∉ name)
    (noLongS : '\u017F' ∉ name)
    (reads : ∀ place text hit, matcher.run place text = some hit →
      ∃ opening next rest, readTagName ('<' :: name) text = some (opening, next :: rest))
    {finding : Finding} (member : finding ∈ (matcher.cut html).findings) : TagMatch matcher name html finding := by
  obtain ⟨before, hit, takes, same⟩ := Matcher.mem_findings_iff.mp member
  obtain ⟨_, reached, _, found⟩ := takes.found
  obtain ⟨opening, next, rest, read⟩ := reads reached hit.text hit found
  obtain ⟨written, parts, spells, ends⟩ := readTagName_eq_some read
  refine ⟨before, hit, written, next, rest, takes, same, parts, spells, ends, ?_⟩
  rw [parts]
  exact isStartTag_iff spells noKelvin noLongS

/-- **The tags at which scripts and style elements are matched**: each finding comes from a match that begins at the
name of the element up to case, and that is a start tag of the element exactly if its letters are ASCII and the
name ends where the word does. -/
theorem tags_matched (html : Text) :
    (∀ finding ∈ (scriptAttributes.cut html).findings, TagMatch scriptAttributes "script".toList html finding)
      ∧ ∀ finding ∈ (styleBodies.cut html).findings, TagMatch styleBodies "style".toList html finding :=
  ⟨fun _ => tagMatch_of_mem_findings (by decide) (by decide) fun _ _ _ => readScript_tag,
    fun _ => tagMatch_of_mem_findings (by decide) (by decide) fun _ _ _ => readStyle_tag⟩

/-- **Other elements are matched as scripts and style elements**: what goes on with a hyphen, and what is spelt with a
long s. No start tag of either element stands anywhere in these texts. -/
theorem other_elements_matched :
    (∀ html ∈ ["<script-x src=\"a.js\"></script-x>".toList, "<\u017Fcript src=\"a.js\">".toList],
        (scriptAttributes.cut html).values = ["a.js".toList]
          ∧ ∀ suffix ∈ html.tails, isStartTag "script".toList suffix = false)
      ∧ ∀ html ∈ ["<style-x>a</style>".toList, "<\u017Ftyle>a</style>".toList],
        (styleBodies.cut html).values = ["a".toList]
          ∧ ∀ suffix ∈ html.tails, isStartTag "style".toList suffix = false := by
  decide +kernel

end Relabel
