/-
**Where findings stand.**

A finding names a byte range of the text in which it is found. The range begins and ends between two characters of
the text, and what stands there is the value of the finding. A value that is found between quotes has one of them
right before it and one right behind it, and none within.

* `WellPlaced`: findings with proper ranges, one behind the other.
* `Matcher.wellPlaced`: the findings of any matcher are well placed.
* `Finding.Enclosed`: a value between two quotes.
* `quotedMatchers`, `bareMatchers`: what is found between quotes, and what is found without them.
* `Matcher.exists_enclosed`, `Matcher.quote_of_bare`: the quotes of their findings.
-/

import Relabel.Proofs.Scan.AttributeGrammar
import Relabel.Proofs.Scan.ElementReplaced
import Relabel.Proofs.Scan.Outside
import Relabel.Proofs.Script.Sources
import Relabel.Scan.Selector
import Relabel.Scan.Url

namespace Relabel

open Text (byteLength byteLength_append byteLength_cons byteLength_nil slice?)

/-! ### Ranges -/

/-- The ranges of findings lie within the text, cut no character and hold the values; each ends before the next
begins. -/
structure WellPlaced (text : Text) (findings : List Finding) : Prop where
  bounds : ∀ finding ∈ findings, finding.start ≤ finding.stop ∧ finding.stop ≤ byteLength text
  exact : ∀ finding ∈ findings, slice? text finding.start finding.stop = some finding.value
  apart : findings.Pairwise fun first second => first.stop < second.start

namespace Matcher

variable {matcher : Matcher} {text : Text} {finding : Finding}

/-- A finding is the value of a match, with the rest of the text around it. -/
theorem exists_match (member : finding ∈ (matcher.cut text).findings) :
    ∃ before place hit, text = before ++ hit.text ∧ matcher.run place hit.text = some hit
      ∧ finding = hit.findingAt (byteLength before) := by
  obtain ⟨before, hit, takes, rfl⟩ := mem_findings_iff.mp member
  obtain ⟨parts, place, _, found⟩ := takes.found
  exact ⟨before, place, hit, parts, found, rfl⟩

/-- **Whatever a matcher finds is well placed.** -/
theorem wellPlaced (matcher : Matcher) (text : Text) : WellPlaced text (matcher.cut text).findings := by
  have parts : ∀ finding ∈ (matcher.cut text).findings, ∃ before behind,
      text = before ++ (finding.value ++ behind) ∧ finding.start = byteLength before
        ∧ finding.stop = byteLength before + byteLength finding.value := by
    intro finding member
    obtain ⟨before, _, hit, whole, _, rfl⟩ := exists_match member
    exact ⟨before ++ hit.lead, hit.tail ++ hit.rest, by simp [whole, Hit.text, Hit.findingAt],
      (byteLength_append _ _).symm, by simp only [Hit.findingAt, byteLength_append]⟩
  refine ⟨fun finding member => ?_, fun finding member => ?_, findings_apart matcher text⟩
  · obtain ⟨before, behind, whole, start, stop⟩ := parts finding member
    have size := congrArg byteLength whole
    simp only [byteLength_append] at size
    omega
  · obtain ⟨before, behind, whole, start, stop⟩ := parts finding member
    rw [start, stop, whole, Text.slice?_append]

end Matcher

/-! ### Quotes -/

/-- The value stands between two quotes of one kind, right behind the first and right before the second, and has none
of them in it. -/
structure Finding.Enclosed (text : Text) (finding : Finding) (quote : Char) : Prop where
  reported : finding.quote = some quote
  quoted : isQuote quote = true
  absent : quote ∉ finding.value
  opened : 0 < finding.start ∧ slice? text (finding.start - 1) finding.start = some [quote]
  closed : slice? text finding.stop (finding.stop + 1) = some [quote]

/-- The match of a value between two quotes. -/
structure Hit.Enclosed (hit : Hit) (quote : Char) : Prop where
  reported : hit.quote = some quote
  quoted : isQuote quote = true
  absent : quote ∉ hit.value
  opened : ∃ front, hit.lead = front ++ [quote]
  closed : hit.tail = [quote]

namespace Hit.Enclosed

variable {hit : Hit} {quote : Char}

/-- More text in front. -/
theorem prepend (enclosed : hit.Enclosed quote) (front : Text) : { hit with lead := front ++ hit.lead }.Enclosed quote := by
  obtain ⟨before, opened⟩ := enclosed.opened
  exact { enclosed with opened := ⟨front ++ before, by simp [opened]⟩ }

/-- A quote is one byte long. -/
theorem byteLength_quote (quoted : isQuote quote = true) : byteLength [quote] = 1 := by
  rcases eq_of_isQuote quoted with rfl | rfl <;> rfl

/-- **The value of such a match is enclosed** where it is found. -/
theorem findingAt (enclosed : hit.Enclosed quote) (before : Text) :
    (hit.findingAt (byteLength before)).Enclosed (before ++ hit.text) quote := by
  obtain ⟨front, opened⟩ := enclosed.opened
  have size := byteLength_quote enclosed.quoted
  have start : (hit.findingAt (byteLength before)).start = byteLength (before ++ front) + 1 := by
    simp only [Hit.findingAt, opened, byteLength_append, size, Nat.add_assoc]
  have stop : (hit.findingAt (byteLength before)).stop = byteLength (before ++ hit.lead ++ hit.value) := by
    simp only [Hit.findingAt, byteLength_append]
  refine ⟨enclosed.reported, enclosed.quoted, enclosed.absent, ⟨start ▸ Nat.succ_pos _, ?_⟩, ?_⟩
  · have whole : before ++ hit.text = before ++ front ++ ([quote] ++ (hit.value ++ hit.tail ++ hit.rest)) := by
      simp [Hit.text, opened]
    rw [whole, start, Nat.add_sub_cancel, ← size, Text.slice?_append]
  · have whole : before ++ hit.text = before ++ hit.lead ++ hit.value ++ ([quote] ++ hit.rest) := by
      simp [Hit.text, enclosed.closed]
    rw [whole, stop, ← size, Text.slice?_append]

end Hit.Enclosed

namespace AttributeRule

variable {rule : AttributeRule} {text : Text} {hit : Hit}

theorem enclosed_of_read (found : rule.read text = some hit) : ∃ quote, hit.Enclosed quote := by
  obtain ⟨name, _, named⟩ := List.exists_of_findSome?_eq_some found
  obtain ⟨written, sign, quote, value, rest, _, _, _, quoted, absent, _, rfl⟩ := readNamed_iff.mp named
  exact ⟨quote, rfl, quoted, absent, ⟨written ++ sign, rfl⟩, rfl⟩

theorem enclosed_of_readLed (found : rule.readLed text = some hit) : ∃ quote, hit.Enclosed quote := by
  cases text with
  | nil => simp [readLed] at found
  | cons c text =>
    simp only [readLed] at found
    split at found
    · obtain ⟨inner, read, rfl⟩ := Option.map_eq_some_iff.mp found
      obtain ⟨quote, enclosed⟩ := enclosed_of_read read
      exact ⟨quote, enclosed.prepend [c]⟩
    · simp at found

/-- **The value of an attribute is enclosed.** -/
theorem enclosed_of_match {place : Place} (found : rule.match? place text = some hit) : ∃ quote, hit.Enclosed quote := by
  rcases Option.or_eq_some_iff.mp found with unled | ⟨_, led⟩
  · split at unled
    · exact enclosed_of_read unled
    · simp at unled
  · exact enclosed_of_readLed led

end AttributeRule

/-- **The source of a script is enclosed.** -/
theorem enclosed_of_readScript {text : Text} {hit : Hit} (found : readScript text = some hit) :
    ∃ quote, hit.Enclosed quote := by
  simp only [readScript, Option.bind_eq_bind, Option.bind_eq_some_iff] at found
  obtain ⟨⟨opening, behind⟩, _, inner, searched, last⟩ := found
  obtain rfl := Option.some.inj last
  obtain ⟨front, b, rest, source, _, read, rfl, _⟩ := searchTag_eq_some searched
  unfold readSource at read
  split at read
  · obtain ⟨quote, enclosed⟩ := AttributeRule.enclosed_of_read read
    have further := enclosed.prepend (opening ++ (front ++ [b]))
    exact ⟨quote, by simpa using further⟩
  · simp at read

/-- The name in a reference is reported without a quote. -/
theorem quote_of_readUrl {text : Text} {hit : Hit} (found : readUrl text = some hit) : hit.quote = none := by
  simp only [readUrl, Option.bind_eq_bind, Option.bind_eq_some_iff] at found
  obtain ⟨⟨lead, begun⟩, _, second⟩ := found
  simp only at second
  split at second
  · simp at second
  · obtain ⟨⟨tail, rest⟩, _, last⟩ := Option.bind_eq_some_iff.mp second
    obtain rfl := Option.some.inj last
    rfl

/-- So is the name of a selector. -/
theorem quote_of_readSelector {place : Place} {text : Text} {hit : Hit} (found : readSelector place text = some hit) :
    hit.quote = none := by
  cases text with
  | nil => simp [readSelector] at found
  | cons sigil text =>
    simp only [readSelector] at found
    split at found
    · obtain rfl := Option.some.inj found
      rfl
    · simp at found

/-! ### What is found -/

/-- The matchers of values between quotes. -/
def quotedMatchers : List Matcher :=
  [classAttributes, idAttributes, fragmentAttributes, referenceAttributes, scriptAttributes]

/-- The matchers of values without quotes of their own. -/
def bareMatchers : List Matcher :=
  [urlReferences, styleBodies, selectors]

namespace Matcher

variable {matcher : Matcher} {text : Text} {finding : Finding}

theorem enclosed_of_run {place : Place} {hit : Hit} (quotes : matcher ∈ quotedMatchers)
    (found : matcher.run place text = some hit) : ∃ quote, hit.Enclosed quote := by
  simp only [quotedMatchers, List.mem_cons, List.not_mem_nil, or_false] at quotes
  rcases quotes with rfl | rfl | rfl | rfl | rfl
  · exact AttributeRule.enclosed_of_match found
  · exact AttributeRule.enclosed_of_match found
  · exact AttributeRule.enclosed_of_match found
  · exact AttributeRule.enclosed_of_match found
  · exact enclosed_of_readScript found

/-- **Values between quotes** are enclosed by them. -/
theorem exists_enclosed (quotes : matcher ∈ quotedMatchers) (member : finding ∈ (matcher.cut text).findings) :
    ∃ quote, finding.Enclosed text quote := by
  obtain ⟨before, place, hit, rfl, found, rfl⟩ := exists_match member
  obtain ⟨quote, enclosed⟩ := enclosed_of_run quotes found
  exact ⟨quote, enclosed.findingAt before⟩

/-- **Other values** are reported without a quote. -/
theorem quote_of_bare (bare : matcher ∈ bareMatchers) (member : finding ∈ (matcher.cut text).findings) :
    finding.quote = none := by
  obtain ⟨before, place, hit, rfl, found, rfl⟩ := exists_match member
  show hit.quote = none
  simp only [bareMatchers, List.mem_cons, List.not_mem_nil, or_false] at bare
  rcases bare with rfl | rfl | rfl
  · exact quote_of_readUrl found
  · exact (readStyle_some found).plain.1
  · exact quote_of_readSelector found

end Matcher

end Relabel
