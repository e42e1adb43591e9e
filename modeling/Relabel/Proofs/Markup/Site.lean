/-
**What stands around a captured value.**

The value of an attribute stands between two quotes, the first of them behind a name and an equals
sign; a reference between a number sign and a parenthesis; the body of a style element between a start
tag and an end tag. `Site` says so of the text before and behind a value.

* `Site`: the three kinds of surroundings.
* `site_of_run`: every match has such surroundings.
* `site_of_captures`: every captured value has them.
-/

import Relabel.Proofs.Markup.Marking
import Relabel.Proofs.Scan.AttributeChange
import Relabel.Proofs.Scan.ElementReplaced
import Relabel.Proofs.Scan.UrlChange

namespace Relabel

/-! ### Surfaces of attributes -/

/-- The rule of the attributes whose values stand on a surface. -/
def Surface.rule? : Surface → Option AttributeRule
  | .cls => some ⟨["class".toList], fun _ => true, false⟩
  | .id => some ⟨["id".toList], fun _ => true, false⟩
  | .fragment =>
    some ⟨["xlink:href".toList, "href".toList], fun value => value.head? = some '#', false⟩
  | .reference => some ⟨referenceNames, fun _ => true, true⟩
  | .url | .style => none

theorem Surface.matcher_of_rule {s : Surface} {rule : AttributeRule} (isRule : s.rule? = some rule) :
    s.matcher = rule.matcher := by
  cases s <;> first | (cases isRule; done) | (obtain rfl := Option.some.inj isRule; rfl)

/-! ### Surroundings -/

/-- Nothing or one quote. -/
def QuoteOrNone (text : Text) : Prop :=
  text = [] ∨ ∃ quote, isQuote quote = true ∧ text = [quote]

/-- What opens a reference: the word, a parenthesis, white space, perhaps a quote and a number sign. -/
def OpensUrl (lead : Text) : Prop :=
  ∃ word blanks opening, lead = word ++ blanks ++ opening ++ ['#'] ∧ Spells "url(" word
    ∧ (∀ b ∈ blanks, isBlank b = true) ∧ QuoteOrNone opening

/-- What closes a reference: perhaps a quote, white space and a parenthesis. -/
def EndsUrl (tail : Text) : Prop :=
  ∃ closing blanks, tail = closing ++ blanks ++ [')'] ∧ QuoteOrNone closing
    ∧ ∀ b ∈ blanks, isBlank b = true

/-- The text `x` before a value and the text `y` behind it, for each kind of surface. -/
inductive Site : (s : Surface) → (x value y : Text) → Prop
  | attr {s : Surface} {rule : AttributeRule} {name written sign value front rest : Text}
      {quote : Char} (isRule : s.rule? = some rule) (inNames : name ∈ rule.names)
      (spells : Spells name written) (assigns : Assigns sign) (quoted : isQuote quote = true)
      (unquoted : quote ∉ value) (accepted : rule.accepts value = true) :
      Site s (front ++ (written ++ sign ++ [quote])) value (quote :: rest)
  | url {word blanks opening value closing blanks' front rest : Text} (spells : Spells "url(" word)
      (blank : ∀ b ∈ blanks, isBlank b = true) (opens : QuoteOrNone opening) (nonempty : value ≠ [])
      (inName : ∀ d ∈ value, isUrlNameChar d = true) (closes : QuoteOrNone closing)
      (blank' : ∀ b ∈ blanks', isBlank b = true) :
      Site .url (front ++ (word ++ blanks ++ opening ++ ['#'])) value
        (closing ++ blanks' ++ ')' :: rest)
  | style {front value more tail rest : Text}
      (ended : readStyleEnd ('<' :: more) = some (tail, rest))
      (noEnd : NoEndTag value ('<' :: more)) :
      Site .style (front ++ ['>']) value ('<' :: more)

/-! ### Matches -/

theorem AttributeRule.site_of_read {rule : AttributeRule} {s : Surface} {text front : Text} {hit : Hit}
    (isRule : s.rule? = some rule) (found : rule.read text = some hit) :
    Site s (front ++ hit.lead) hit.value (hit.tail ++ hit.rest) := by
  obtain ⟨name, inNames, named⟩ := List.exists_of_findSome?_eq_some found
  simp only [readNamed, Option.bind_eq_bind, Option.bind_eq_some_iff] at named
  obtain ⟨⟨written, text₁⟩, first, ⟨sign, text₂⟩, second, ⟨quote, value, rest⟩, third, last⟩ := named
  split at last
  next accepted =>
    obtain rfl := Option.some.inj last
    obtain ⟨quoted, unquoted⟩ := readQuoted_eq_some third
    exact Site.attr isRule inNames (readWord_eq_some_iff.mp first).2
      (readAssignment_eq_some second).2 quoted unquoted accepted
  next => simp at last

theorem AttributeRule.site_of_match {rule : AttributeRule} {s : Surface} {place : Place}
    {text front : Text} {hit : Hit} (isRule : s.rule? = some rule)
    (found : rule.match? place text = some hit) :
    Site s (front ++ hit.lead) hit.value (hit.tail ++ hit.rest) := by
  rcases Option.or_eq_some_iff.mp found with unled | ⟨_, led⟩
  · split at unled
    · exact rule.site_of_read isRule unled
    · simp at unled
  · cases text with
    | nil => simp [readLed] at led
    | cons c text =>
      simp only [readLed] at led
      split at led
      · obtain ⟨inner, read, rfl⟩ := Option.map_eq_some_iff.mp led
        rw [show front ++ (inner.behind c).lead = front ++ [c] ++ inner.lead by simp [Hit.behind]]
        exact rule.site_of_read isRule read
      · simp at led

theorem quoteOrNone_readOptionalQuote (text : Text) : QuoteOrNone (readOptionalQuote text).1 := by
  cases text with
  | nil => exact Or.inl rfl
  | cons c text =>
    simp only [readOptionalQuote]
    split
    next quoted => exact Or.inr ⟨c, quoted, rfl⟩
    next => exact Or.inl rfl

theorem readUrlStart_eq_some {text lead rest : Text} (found : readUrlStart text = some (lead, rest)) :
    OpensUrl lead := by
  simp only [readUrlStart, Option.bind_eq_bind, Option.bind_eq_some_iff] at found
  obtain ⟨⟨word, behind⟩, first, second⟩ := found
  simp only at second
  split at second
  next begun _ =>
    obtain ⟨rfl, _⟩ := Prod.mk.inj (Option.some.inj second)
    exact ⟨word, behind.takeWhile isBlank, _, rfl, (readWord_eq_some_iff.mp first).2,
      fun b member => List.mem_takeWhile_imp member, quoteOrNone_readOptionalQuote _⟩
  next => simp at second

theorem readUrlEnd_eq_some {text tail rest : Text} (found : readUrlEnd text = some (tail, rest)) :
    EndsUrl tail := by
  simp only [readUrlEnd] at found
  split at found
  next =>
    obtain ⟨rfl, _⟩ := Prod.mk.inj (Option.some.inj found)
    exact ⟨_, _, rfl, quoteOrNone_readOptionalQuote _, fun b member => List.mem_takeWhile_imp member⟩
  next => simp at found

/-- The parts of a reference. -/
theorem readUrl_eq_some {text : Text} {hit : Hit} (found : readUrl text = some hit) :
    OpensUrl hit.lead ∧ hit.value ≠ [] ∧ (∀ d ∈ hit.value, isUrlNameChar d = true)
      ∧ EndsUrl hit.tail := by
  simp only [readUrl, Option.bind_eq_bind, Option.bind_eq_some_iff] at found
  obtain ⟨⟨lead, begun⟩, first, second⟩ := found
  simp only at second
  split at second
  next => simp at second
  next nonempty =>
    simp only [Option.bind_eq_some_iff] at second
    obtain ⟨⟨tail, rest⟩, closed, last⟩ := second
    obtain rfl := Option.some.inj last
    exact ⟨readUrlStart_eq_some first, nonempty, fun d member => List.mem_takeWhile_imp member,
      readUrlEnd_eq_some closed⟩

theorem site_of_readUrl {text front : Text} {hit : Hit} (found : readUrl text = some hit) :
    Site .url (front ++ hit.lead) hit.value (hit.tail ++ hit.rest) := by
  obtain ⟨⟨word, blanks, opening, lead, spells, blank, opens⟩, nonempty, inName, closing, blanks', tail,
    closes, blank'⟩ := readUrl_eq_some found
  rw [lead, tail, ← List.append_cons]
  exact Site.url spells blank opens nonempty inName closes blank'

/-- An end tag begins with its first character. -/
theorem readStyleEnd_eq_cons {text tail rest : Text}
    (found : readStyleEnd text = some (tail, rest)) : ∃ more, text = '<' :: more := by
  simp only [readStyleEnd, Option.bind_eq_bind, Option.bind_eq_some_iff] at found
  obtain ⟨⟨read, behind⟩, word, _⟩ := found
  obtain ⟨rfl, spells⟩ := readWord_eq_some_iff.mp word
  have spelt : Spells ('<' :: "/style".toList) read := spells
  obtain ⟨letter, letters, rfl, same, _⟩ := spelt.first
  obtain rfl : letter = '<' := eq_of_sameLetter (by decide) same
  exact ⟨letters ++ behind, rfl⟩

theorem site_of_readStyle {text front : Text} {hit : Hit} (found : readStyle text = some hit) :
    Site .style (front ++ hit.lead) hit.value (hit.tail ++ hit.rest) := by
  have matched := readStyle_some found
  obtain ⟨before, opened⟩ := matched.opened
  have ended := matched.ended
  have noEnd := matched.noEnd
  obtain ⟨more, closing⟩ := readStyleEnd_eq_cons ended
  rw [closing] at ended noEnd
  rw [opened, ← List.append_assoc, closing]
  exact Site.style ended noEnd

/-- Every match has the surroundings of its surface. -/
theorem site_of_run {s : Surface} {place : Place} {text front : Text} {hit : Hit}
    (found : s.matcher.run place text = some hit) :
    Site s (front ++ hit.lead) hit.value (hit.tail ++ hit.rest) := by
  cases isRule : s.rule? with
  | some rule =>
    rw [Surface.matcher_of_rule isRule] at found
    exact rule.site_of_match isRule found
  | none =>
    cases s with
    | url => exact site_of_readUrl found
    | style => exact site_of_readStyle found
    | cls | id | fragment | reference => simp [Surface.rule?] at isRule

/-- **Every captured value has the surroundings of its surface.** -/
theorem site_of_captures {s : Surface} {text x value y : Text}
    (captured : (s.matcher.cut text).Captures x value y) : Site s x value y := by
  obtain ⟨place, front, hit, found, rfl, rfl, rfl⟩ := Matcher.captures_cut captured
  exact site_of_run found

/-! ### The characters around a value -/

namespace Site

variable {s : Surface} {x v y : Text} {c : Char}

/-- What stands around the value of an attribute. -/
theorem of_rule (site : Site s x v y) {rule : AttributeRule} (isRule : s.rule? = some rule) :
    ∃ name written sign quote front rest, name ∈ rule.names ∧ Spells name written ∧ Assigns sign
      ∧ isQuote quote = true ∧ x = front ++ (written ++ sign) ++ [quote] ∧ y = quote :: rest := by
  cases site with
  | attr isRule' inNames spells assigns quoted unquoted accepted =>
    obtain rfl := Option.some.inj (isRule'.symm.trans isRule)
    exact ⟨_, _, _, _, _, _, inNames, spells, assigns, quoted, (List.append_assoc _ _ _).symm, rfl⟩
  | url | style => simp [Surface.rule?] at isRule

/-- The value of an attribute is one that its rule accepts. -/
theorem accepted (site : Site s x v y) {rule : AttributeRule} (isRule : s.rule? = some rule) :
    rule.accepts v = true := by
  cases site with
  | attr isRule' _ _ _ _ _ accepted =>
    obtain rfl := Option.some.inj (isRule'.symm.trans isRule)
    exact accepted
  | url | style => simp [Surface.rule?] at isRule

/-- What stands around the name of a reference. -/
theorem of_url (site : Site .url x v y) :
    ∃ word blanks opening front, Spells "url(" word ∧ (∀ b ∈ blanks, isBlank b = true)
      ∧ QuoteOrNone opening ∧ x = front ++ (word ++ blanks ++ opening) ++ ['#'] ∧ v ≠ [] := by
  cases site with
  | attr isRule => simp [Surface.rule?] at isRule
  | url spells blank opens nonempty => exact ⟨_, _, _, _, spells, blank, opens,
      (List.append_assoc _ _ _).symm, nonempty⟩

/-- What stands around the body of a style element. -/
theorem of_style (site : Site .style x v y) :
    ∃ front more, x = front ++ ['>'] ∧ y = '<' :: more := by
  cases site with
  | attr isRule => simp [Surface.rule?] at isRule
  | style => exact ⟨_, _, rfl, rfl⟩

/-- The text before a value ends with a quote, a number sign or the end of a tag. -/
theorem stopper (site : Site s x v y) : ∃ c ∈ ['"', '\'', '#', '>'], ∃ front, x = front ++ [c] := by
  cases site with
  | attr isRule inNames spells assigns quoted unquoted accepted =>
    refine ⟨_, ?_, _, (List.append_assoc _ _ _).symm⟩
    rcases eq_of_isQuote quoted with rfl | rfl <;> decide
  | url => exact ⟨'#', by decide, _, (List.append_assoc _ _ _).symm⟩
  | style => exact ⟨'>', by decide, _, rfl⟩

/-- The text behind a value is closed by a quote, a parenthesis or a tag, white space aside. -/
theorem closer (site : Site s x v y) :
    ∃ blanks, (∀ b ∈ blanks, isBlank b = true) ∧ ∃ e ∈ ['"', '\'', ')', '<'], ∃ rest,
      y = blanks ++ e :: rest := by
  have quoteCloses : ∀ quote rest, isQuote quote = true →
      ∃ blanks, (∀ b ∈ blanks, isBlank b = true) ∧ ∃ e ∈ ['"', '\'', ')', '<'], ∃ rest',
        quote :: rest = blanks ++ e :: rest' := by
    intro quote rest quoted
    refine ⟨[], by simp, quote, ?_, rest, rfl⟩
    rcases eq_of_isQuote quoted with rfl | rfl <;> decide
  cases site with
  | attr isRule inNames spells assigns quoted => exact quoteCloses _ _ quoted
  | url spells blank opens nonempty inName closes blank' =>
    rcases closes with rfl | ⟨quote, quoted, rfl⟩
    · exact ⟨_, blank', ')', by decide, _, rfl⟩
    · exact quoteCloses _ _ quoted
  | style => exact ⟨[], by simp, '<', by decide, _, rfl⟩

/-- A value behind a quote is that of an attribute. -/
theorem of_quote (site : Site s (x ++ [c]) v y) (quoted : isQuote c = true) :
    ∃ rule name written sign front rest, s.rule? = some rule ∧ name ∈ rule.names
      ∧ Spells name written ∧ Assigns sign ∧ x = front ++ (written ++ sign) ∧ c ∉ v
      ∧ rule.accepts v = true ∧ y = c :: rest := by
  generalize whole : x ++ [c] = before at site
  cases site with
  | attr isRule inNames spells assigns quoted' unquoted accepted =>
    rw [← List.append_assoc] at whole
    obtain ⟨rfl, rfl⟩ := List.append_singleton_inj.mp whole
    exact ⟨_, _, _, _, _, _, isRule, inNames, spells, assigns, rfl, unquoted, accepted, rfl⟩
  | url =>
    rw [← List.append_assoc] at whole
    obtain rfl := (List.append_singleton_inj.mp whole).2
    exact absurd quoted (by decide)
  | style =>
    obtain rfl := (List.append_singleton_inj.mp whole).2
    exact absurd quoted (by decide)

/-- A value behind a number sign is that of a reference. -/
theorem of_sharp (site : Site s (x ++ ['#']) v y) :
    s = .url ∧ v ≠ [] ∧ (∀ d ∈ v, isUrlNameChar d = true) ∧ y.takeWhile isUrlNameChar = [] := by
  generalize whole : x ++ ['#'] = before at site
  cases site with
  | attr isRule inNames spells assigns quoted =>
    rw [← List.append_assoc] at whole
    obtain rfl := (List.append_singleton_inj.mp whole).2
    exact absurd quoted (by decide)
  | url spells blank opens nonempty inName closes blank' =>
    refine ⟨rfl, nonempty, inName, ?_⟩
    rcases closes with rfl | ⟨quote, quoted, rfl⟩
    · rename_i blanks' _ _
      rcases blanks' with _ | ⟨b, blanks'⟩
      · rfl
      · exact List.takeWhile_cons_of_neg (by simp [isUrlNameChar, blank' b List.mem_cons_self])
    · exact List.takeWhile_cons_of_neg (by simp [isUrlNameChar, quoted])
  | style => exact absurd ((List.append_singleton_inj.mp whole).2) (by decide)

/-- A value behind the end of a tag is the body of a style element. -/
theorem of_tagEnd (site : Site s (x ++ ['>']) v y) :
    s = .style ∧ ∃ more tail rest, y = '<' :: more ∧ readStyleEnd y = some (tail, rest)
      ∧ NoEndTag v y := by
  generalize whole : x ++ ['>'] = before at site
  cases site with
  | attr isRule inNames spells assigns quoted =>
    rw [← List.append_assoc] at whole
    obtain rfl := (List.append_singleton_inj.mp whole).2
    exact absurd quoted (by decide)
  | url =>
    rw [← List.append_assoc] at whole
    exact absurd ((List.append_singleton_inj.mp whole).2) (by decide)
  | style ended noEnd => exact ⟨rfl, _, _, _, rfl, ended, noEnd⟩

end Site

end Relabel
