/-
**Cutting a text at the values a matcher finds.**

A matcher looks at one place of a text and either recognises something that begins there or does
not. `Matcher.cut` goes through a text from left to right and takes the first match at each place;
after a match it goes on behind it, so matches do not overlap. The result keeps every character:
the values the matches capture, and the text before each of them and after the last.

* `Matcher.text_cut`: the pieces of a cut make up the text that was cut.
* `Segments.findings`: the captured values with their byte ranges.
* `Segments.substitute`: the text with some of the values replaced.
-/

import Relabel.Text.Edit

namespace Relabel

open Text (byteLength)

/-! ### Matchers -/

/-- Where a match is attempted. -/
inductive Place where
  /-- At the start of the text. -/
  | start
  /-- Behind a character that belongs to no match. -/
  | after (c : Char)
  /-- Right behind a match. -/
  | joined
  deriving DecidableEq, Repr

/-- A match: the text before the value, the value, the text after it that still belongs to the
match, and what follows the match. -/
structure Hit where
  lead : Text
  value : Text
  tail : Text
  rest : Text
  /-- The quote character around the value. -/
  quote : Option Char := none
  /-- The name of the attribute, as written. -/
  name : Option Text := none
  deriving DecidableEq, Repr

/-- The text from the start of the match on. -/
def Hit.text (hit : Hit) : Text :=
  hit.lead ++ hit.value ++ hit.tail ++ hit.rest

/-- A recogniser of one kind of construct. -/
structure Matcher where
  /-- The match that begins at the given place, with the given text ahead. -/
  run : Place → Text → Option Hit
  /-- The parts of a match make up the text ahead. -/
  covers : ∀ place text hit, run place text = some hit → text = hit.text
  /-- A match has a character before its value. -/
  advances : ∀ place text hit, run place text = some hit → hit.lead ≠ []

/-- What follows a match is shorter than what the match was found in. -/
theorem Matcher.rest_lt (matcher : Matcher) {place : Place} {text : Text} {hit : Hit}
    (found : matcher.run place text = some hit) : hit.rest.length < text.length := by
  have parts := congrArg List.length (matcher.covers place text hit found)
  have nonempty := List.length_pos_iff.mpr (matcher.advances place text hit found)
  simp only [Hit.text, List.length_append] at parts
  omega

/-! ### Segments -/

/-- A captured value and the text between it and the value before. -/
structure Segment where
  gap : Text
  value : Text
  quote : Option Char := none
  name : Option Text := none
  deriving DecidableEq, Repr

/-- The segment with the value that `replace` gives for it, if it gives one. -/
def Segment.replaced (segment : Segment) (replace : Segment → Option Text) : Segment :=
  { segment with value := (replace segment).getD segment.value }

/-- A text cut at captured values. -/
structure Segments where
  found : List Segment
  /-- What follows the last value. -/
  rest : Text
  deriving DecidableEq, Repr

/-- A captured value with its byte range. -/
structure Finding where
  start : Nat
  stop : Nat
  value : Text
  quote : Option Char := none
  name : Option Text := none
  deriving DecidableEq, Repr

namespace Segments

/-- The text that the segments make up. -/
def text (segments : Segments) : Text :=
  segments.found.flatMap (fun segment => segment.gap ++ segment.value) ++ segments.rest

/-- The captured values, in order. -/
def values (segments : Segments) : List Text :=
  segments.found.map (·.value)

/-- The findings of segments that begin at byte `offset`. -/
def findingsFrom (offset : Nat) : List Segment → List Finding
  | [] => []
  | segment :: rest =>
    let start := offset + byteLength segment.gap
    let stop := start + byteLength segment.value
    ⟨start, stop, segment.value, segment.quote, segment.name⟩ :: findingsFrom stop rest

/-- The captured values with their byte ranges, in order. -/
def findings (segments : Segments) : List Finding :=
  findingsFrom 0 segments.found

/-- The text with the values for which `replace` gives another one replaced. -/
def substitute (segments : Segments) (replace : Segment → Option Text) : Text :=
  text { segments with found := segments.found.map (·.replaced replace) }

end Segments

/-! ### Cutting -/

/-- Cuts `text`, which stands at `place` behind `gap` (last character first), the text since the
value before. -/
def Matcher.cutFrom (matcher : Matcher) (place : Place) (gap : Text) : (text : Text) → Segments
  | [] => ⟨[], gap.reverse⟩
  | c :: rest =>
    match _found : matcher.run place (c :: rest) with
    | none => matcher.cutFrom (.after c) (c :: gap) rest
    | some hit =>
      let later := matcher.cutFrom .joined hit.tail.reverse hit.rest
      ⟨⟨gap.reverse ++ hit.lead, hit.value, hit.quote, hit.name⟩ :: later.found, later.rest⟩
termination_by text => text.length
decreasing_by
  · exact Nat.lt_succ_self rest.length
  · exact matcher.rest_lt _found

/-- Cuts a text at the values that the matcher finds in it. -/
def Matcher.cut (matcher : Matcher) (text : Text) : Segments :=
  matcher.cutFrom .start [] text

/-- Cutting keeps every character. -/
theorem Matcher.text_cutFrom (matcher : Matcher) (place : Place) (gap text : Text) :
    (matcher.cutFrom place gap text).text = gap.reverse ++ text := by
  fun_induction Matcher.cutFrom matcher place gap text with
  | case1 => simp [Segments.text]
  | case2 place gap c rest missed ih => simp [ih]
  | case3 place gap c rest hit found later ih =>
    have parts := matcher.covers _ _ _ found
    simp only [Segments.text, later, Hit.text, List.flatMap_cons] at ih parts ⊢
    rw [parts, List.append_assoc, ih]
    simp

/-- The segments of a text make up the text. -/
theorem Matcher.text_cut (matcher : Matcher) (text : Text) : (matcher.cut text).text = text := by
  simp [Matcher.cut, Matcher.text_cutFrom]

end Relabel
