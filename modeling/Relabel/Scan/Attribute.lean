/-
**Attributes with quoted values.**

An attribute of interest is a name from a list, up to case, an equals sign with optional white space
around it, and a quoted value. Its name stands at the start of the text or behind a *lead*: a white
space, a quote or a slash. The start tag around it is not looked at.

* `classAttributes`, `idAttributes`: attributes whose values hold tokens.
* `fragmentAttributes`: links whose value begins with a number sign.
* `referenceAttributes`: attributes whose values name elements by their ids.
-/

import Relabel.Scan.Basic
import Relabel.Scan.Read

namespace Relabel

/-! ### One attribute -/

/-- Which attributes a matcher looks for. -/
structure AttributeRule where
  /-- The names, in small letters, in the order in which they are tried. -/
  names : List Text
  /-- Whether a value is of interest. -/
  accepts : Text → Bool
  /-- Whether the findings report the name. -/
  reportsName : Bool

/-- A match of one name at the front of a text. -/
def AttributeRule.readNamed (rule : AttributeRule) (name text : Text) : Option Hit := do
  let (written, text) ← readWord name text
  let (sign, text) ← readAssignment text
  let (quote, value, rest) ← readQuoted text
  if rule.accepts value then
    some {
      lead := written ++ sign ++ [quote], value, tail := [quote], rest, quote := some quote,
      name := if rule.reportsName then some written else none }
  else none

/-- A match of one of the names at the front of a text. -/
def AttributeRule.read (rule : AttributeRule) (text : Text) : Option Hit :=
  rule.names.findSome? fun name => rule.readNamed name text

/-- Whether an attribute name may follow a character. -/
def isLead (c : Char) : Bool :=
  isBlank c || isQuote c || c == '/'

/-- A match with one more character in front. -/
def Hit.behind (hit : Hit) (c : Char) : Hit :=
  { hit with lead := c :: hit.lead }

/-- A match of an attribute behind a lead. -/
def AttributeRule.readLed (rule : AttributeRule) : Text → Option Hit
  | [] => none
  | c :: rest => if isLead c then (rule.read rest).map (·.behind c) else none

/-- A match of an attribute with its lead. At the start of the text the lead may be missing. -/
def AttributeRule.match? (rule : AttributeRule) (place : Place) (text : Text) : Option Hit :=
  (if place = .start then rule.read text else none).or (rule.readLed text)

/-! ### The parts of a match -/

theorem AttributeRule.readNamed_eq {rule : AttributeRule} {name text : Text} {hit : Hit}
    (found : rule.readNamed name text = some hit) : text = hit.text ∧ hit.lead ≠ [] := by
  unfold AttributeRule.readNamed at found
  simp only [Option.bind_eq_bind, Option.bind_eq_some_iff] at found
  obtain ⟨⟨written, text₁⟩, first, ⟨sign, text₂⟩, second, ⟨quote, value, rest⟩, third, last⟩ :=
    found
  split at last
  · obtain rfl := Option.some.inj last
    obtain rfl := readWord_eq first
    obtain rfl := readAssignment_eq second
    obtain rfl := readQuoted_eq third
    simp [Hit.text]
  · simp at last

theorem AttributeRule.read_eq {rule : AttributeRule} {text : Text} {hit : Hit}
    (found : rule.read text = some hit) : text = hit.text ∧ hit.lead ≠ [] := by
  obtain ⟨name, _, named⟩ := List.exists_of_findSome?_eq_some found
  exact rule.readNamed_eq named

theorem AttributeRule.readLed_eq {rule : AttributeRule} {text : Text} {hit : Hit}
    (found : rule.readLed text = some hit) : text = hit.text ∧ hit.lead ≠ [] := by
  cases text with
  | nil => simp [readLed] at found
  | cons c rest =>
    simp only [readLed] at found
    split at found
    · obtain ⟨inner, read, rfl⟩ := Option.map_eq_some_iff.mp found
      exact ⟨by simp [Hit.behind, Hit.text, (rule.read_eq read).1], by simp [Hit.behind]⟩
    · simp at found

theorem AttributeRule.match?_eq {rule : AttributeRule} {place : Place} {text : Text} {hit : Hit}
    (found : rule.match? place text = some hit) : text = hit.text ∧ hit.lead ≠ [] := by
  rcases Option.or_eq_some_iff.mp found with unled | ⟨_, led⟩
  · split at unled
    · exact rule.read_eq unled
    · simp at unled
  · exact rule.readLed_eq led

/-- The matcher of the attributes that a rule describes. -/
def AttributeRule.matcher (rule : AttributeRule) : Matcher where
  run := rule.match?
  covers _ _ _ found := (rule.match?_eq found).1
  advances _ _ _ found := (rule.match?_eq found).2

/-! ### The attributes of interest -/

/-- Attributes that hold a list of classes. -/
def classAttributes : Matcher :=
  AttributeRule.matcher ⟨["class".toList], fun _ => true, false⟩

/-- Attributes that hold the id of their element. -/
def idAttributes : Matcher :=
  AttributeRule.matcher ⟨["id".toList], fun _ => true, false⟩

/-- Links to a place in the same document. The value includes the number sign. -/
def fragmentAttributes : Matcher :=
  AttributeRule.matcher
    ⟨["xlink:href".toList, "href".toList], fun value => value.head? = some '#', false⟩

/-- The names of attributes that refer to elements by id. -/
def referenceNames : List Text :=
  ["for".toList, "list".toList, "form".toList, "aria-activedescendant".toList,
    "aria-controls".toList, "aria-describedby".toList, "aria-labelledby".toList,
    "aria-owns".toList]

/-- Attributes that refer to elements by id. -/
def referenceAttributes : Matcher :=
  AttributeRule.matcher ⟨referenceNames, fun _ => true, true⟩

end Relabel
