/-
**Attributes with quoted values, as a grammar.**

An attribute is written as a lead, its name up to case, an equals sign with white space around it and a quoted
value. The lead is a white space, a quote or a slash, and is missing only at the start of a text. Attributes may
overlap in this grammar: the closing quote of one value may be the lead of the next attribute, and an attribute
may be written within the value of another. A scan reports those of them that it meets first.

* `WrittenAttribute.OccursIn`: the attributes of a text.
* `AttributeRule.readNamed_iff`: what reads an attribute reads this grammar.
* `AttributeRule.exists_attribute`, `AttributeRule.taken_or_within`: what a scan takes, and what it passes over.
* `attributes_exact`: the scans for classes, ids and fragments.
-/

import Relabel.Proofs.Scan.AttributeNames
import Relabel.Proofs.Scan.Taken
import Relabel.Scan.Attribute

namespace Relabel

open Text (byteLength byteLength_append byteLength_cons byteLength_nil byteLength_pos)

/-! ### Attributes -/

/-- An attribute with a quoted value, with the text before it and behind it. -/
@[ext]
structure WrittenAttribute where
  before : Text
  lead : Text
  name : Text
  sign : Text
  quote : Char
  value : Text
  behind : Text

namespace WrittenAttribute

/-- The text from the lead up to the opening quote. -/
def opening (attr : WrittenAttribute) : Text :=
  attr.lead ++ (attr.name ++ attr.sign ++ [attr.quote])

/-- The text before the value. -/
def front (attr : WrittenAttribute) : Text :=
  attr.before ++ attr.opening

/-- The text up to the closing quote, with the quote. -/
def through (attr : WrittenAttribute) : Text :=
  attr.front ++ attr.value ++ [attr.quote]

/-- The byte offset of the lead. -/
def start (attr : WrittenAttribute) : Nat :=
  byteLength attr.before

/-- The byte offset just behind the closing quote. -/
def stop (attr : WrittenAttribute) : Nat :=
  byteLength attr.through

/-- The value with its byte range. -/
def finding (attr : WrittenAttribute) (reportsName : Bool) : Finding :=
  ⟨byteLength attr.front, byteLength attr.front + byteLength attr.value, attr.value,
    some attr.quote, if reportsName then some attr.name else none⟩

/-- The attribute as a match. -/
def hit (attr : WrittenAttribute) (reportsName : Bool) : Hit where
  lead := attr.opening
  value := attr.value
  tail := [attr.quote]
  rest := attr.behind
  quote := some attr.quote
  name := if reportsName then some attr.name else none

/-- **The attributes of a text** that have one of some names and a value that begins with a given text. -/
structure OccursIn (attr : WrittenAttribute) (names : List Text) (begins html : Text) : Prop where
  whole : html = attr.through ++ attr.behind
  led : (attr.lead = [] ∧ attr.before = []) ∨ ∃ c, attr.lead = [c] ∧ isLead c = true
  spelt : ∃ name ∈ names, Spells name attr.name
  assigns : Assigns attr.sign
  quoted : isQuote attr.quote = true
  closed : attr.quote ∉ attr.value
  begun : begins <+: attr.value

variable {attr : WrittenAttribute} {reportsName : Bool}

theorem findingAt_hit :
    (attr.hit reportsName).findingAt (byteLength attr.before) = attr.finding reportsName := by
  simp only [Hit.findingAt, hit, finding, front, byteLength_append]

theorem through_eq : attr.through = attr.before ++ (attr.hit reportsName).matched := by
  simp [through, front, hit, Hit.matched]

/-- The text from the lead on. -/
theorem OccursIn.ahead {names : List Text} {begins html : Text} (occurs : attr.OccursIn names begins html) :
    html = attr.before ++ (attr.lead
      ++ (attr.name ++ attr.sign ++ [attr.quote] ++ attr.value ++ attr.quote :: attr.behind)) := by
  rw [occurs.whole, through, front, opening]
  simp

end WrittenAttribute

/-! ### Names -/

/-- A name of letters that neither white space nor an equals sign nor a lead spells. -/
def IsAttributeName (name : Text) : Prop :=
  name ≠ [] ∧ name.all isPlainSmall = true ∧ ∀ c ∈ ['=', '"', '\'', '/'], Foreign name c

instance (name : Text) : Decidable (IsAttributeName name) :=
  inferInstanceAs (Decidable (_ ∧ _ ∧ _))

/-- What spells a name. -/
theorem Spells.of_mem {word read : Text} {c : Char} (spells : Spells word read) (member : c ∈ read) :
    ∃ small ∈ word, sameLetter small c = true := by
  induction spells with
  | nil => exact absurd member List.not_mem_nil
  | cons same spells ih =>
    rcases List.mem_cons.mp member with rfl | behind
    · exact ⟨_, List.mem_cons_self, same⟩
    · obtain ⟨small, inWord, same'⟩ := ih behind
      exact ⟨small, List.mem_cons_of_mem _ inWord, same'⟩

namespace IsAttributeName

variable {name written : Text} {c : Char}

theorem written_ne_nil (isName : IsAttributeName name) (spells : Spells name written) : written ≠ [] := by
  rintro rfl
  cases spells
  exact isName.1 rfl

theorem of_mem (isName : IsAttributeName name) (spells : Spells name written) (member : c ∈ written) :
    isBlank c = false ∧ c ≠ '=' ∧ isQuote c = false ∧ isLead c = false := by
  have other : ∀ d ∈ ['=', '"', '\'', '/'], c ≠ d := by
    rintro d inList rfl
    exact spells.not_mem (isName.2.2 c inList) member
  obtain ⟨small, inName, same⟩ := spells.of_mem member
  have solid := isBlank_of_sameLetter (List.all_eq_true.mp isName.2.1 small inName) same
  have unquoted : isQuote c = false := by simp [isQuote, other]
  exact ⟨solid, other '=' (by decide), unquoted, by simp [isLead, solid, unquoted, other]⟩

end IsAttributeName

/-- An equals sign and the white space around it. -/
theorem Assigns.of_mem {sign : Text} {c : Char} (assigns : Assigns sign) (member : c ∈ sign) :
    isBlank c = true ∨ c = '=' := by
  by_contra neither
  rw [not_or, Bool.not_eq_true] at neither
  exact assigns.not_mem neither.1 neither.2 member

theorem Assigns.ne_nil {sign : Text} (assigns : Assigns sign) : sign ≠ [] := by
  obtain ⟨before, behind, rfl, _⟩ := assigns
  simp

namespace WrittenAttribute

variable {attr attr' : WrittenAttribute} {names : List Text} {begins html : Text}

/-- The characters of the name. -/
theorem OccursIn.of_mem_name {c : Char} (occurs : attr.OccursIn names begins html)
    (areNames : ∀ name ∈ names, IsAttributeName name) (member : c ∈ attr.name) :
    isBlank c = false ∧ c ≠ '=' ∧ isQuote c = false ∧ isLead c = false := by
  obtain ⟨name, inNames, spells⟩ := occurs.spelt
  exact (areNames name inNames).of_mem spells member

theorem OccursIn.exists_name_cons (occurs : attr.OccursIn names begins html)
    (areNames : ∀ name ∈ names, IsAttributeName name) : ∃ c letters, attr.name = c :: letters := by
  obtain ⟨name, inNames, spells⟩ := occurs.spelt
  exact List.exists_cons_of_ne_nil ((areNames name inNames).written_ne_nil spells)

/-- A lead is missing where nothing stands before the attribute, and a lead begins no name. -/
theorem OccursIn.lead_eq {text text' : Text} (occurs : attr.OccursIn names begins html)
    (areNames : ∀ name ∈ names, IsAttributeName name) (occurs' : attr'.OccursIn names begins html)
    (same : attr.lead ++ (attr.name ++ text) = attr'.lead ++ (attr'.name ++ text')) : attr.lead = attr'.lead := by
  have unled : ∀ {attr : WrittenAttribute} {c : Char} {t t' : Text}, attr.OccursIn names begins html →
      isLead c = true → attr.name ++ t ≠ c :: t' := by
    intro attr c t t' occurs isLead parts
    obtain ⟨d, letters, spelt⟩ := occurs.exists_name_cons areNames
    rw [spelt] at parts
    obtain ⟨rfl, _⟩ := List.cons.inj parts
    have notLead := (occurs.of_mem_name areNames (c := d) (by simp [spelt])).2.2.2
    exact Bool.false_ne_true (notLead.symm.trans isLead)
  rcases occurs.led with ⟨noLead, _⟩ | ⟨c, isSingle, isLead⟩ <;>
    rcases occurs'.led with ⟨noLead', _⟩ | ⟨c', isSingle', isLead'⟩
  · rw [noLead, noLead']
  · rw [noLead, isSingle'] at same
    exact absurd same (unled occurs isLead')
  · rw [noLead', isSingle] at same
    exact absurd same.symm (unled occurs' isLead)
  · rw [isSingle, isSingle'] at same ⊢
    rw [(List.cons.inj same).1]

/-- A name ends where white space or an equals sign begins. -/
theorem OccursIn.name_eq {text text' : Text} (occurs : attr.OccursIn names begins html)
    (areNames : ∀ name ∈ names, IsAttributeName name) (occurs' : attr'.OccursIn names begins html)
    (same : attr.name ++ (attr.sign ++ text) = attr'.name ++ (attr'.sign ++ text')) : attr.name = attr'.name := by
  have read : ∀ {attr : WrittenAttribute} {t : Text}, attr.OccursIn names begins html →
      (attr.name ++ (attr.sign ++ t)).takeWhile (fun c => !isBlank c && c != '=') = attr.name := by
    intro attr t occurs
    refine (takeWhile_dropWhile_append (fun c member => ?_) fun c isHead => ?_).1
    · obtain ⟨solid, other, _⟩ := occurs.of_mem_name areNames member
      simp [solid, other]
    · rw [List.head?_append_of_ne_nil _ occurs.assigns.ne_nil] at isHead
      rcases occurs.assigns.of_mem (List.mem_of_mem_head? isHead) with blank | rfl
      · simp [blank]
      · simp
  rw [← read (t := text) occurs, same, read occurs']

/-- **At one place at most one attribute begins.** -/
theorem OccursIn.eq_of_before (occurs : attr.OccursIn names begins html)
    (areNames : ∀ name ∈ names, IsAttributeName name) (occurs' : attr'.OccursIn names begins html)
    (before : attr.before = attr'.before) : attr = attr' := by
  have whole : attr.before ++ _ = attr'.before ++ _ := occurs.ahead.symm.trans occurs'.ahead
  rw [before] at whole
  have same := List.append_cancel_left whole
  simp only [List.append_assoc, List.cons_append] at same
  have lead := occurs.lead_eq areNames occurs' same
  rw [lead] at same
  have named := List.append_cancel_left same
  have name := occurs.name_eq areNames occurs' named
  rw [name] at named
  have unquoted : ∀ {attr attr' : WrittenAttribute}, attr.OccursIn names begins html →
      attr'.OccursIn names begins html → attr'.quote ∉ attr.sign := fun occurs occurs' =>
    occurs.assigns.not_mem (not_isBlank_of_isQuote occurs'.quoted) (ne_sign_of_isQuote occurs'.quoted)
  obtain ⟨sign, quote, valued⟩ := append_cons_inj (unquoted occurs occurs') (unquoted occurs' occurs)
    (List.append_cancel_left named)
  obtain ⟨value, _, behind⟩ := append_cons_inj (quote ▸ occurs.closed) (quote ▸ occurs'.closed) valued
  exact WrittenAttribute.ext before lead name sign quote value behind

end WrittenAttribute

/-! ### Reading -/

/-- An equals sign is read up to a character that is no white space. -/
theorem Assigns.read {sign rest : Text} {c : Char} (assigns : Assigns sign) (solid : isBlank c = false) :
    readAssignment (sign ++ c :: rest) = some (sign, c :: rest) := by
  obtain ⟨before, behind, rfl, blankBefore, blankBehind⟩ := assigns
  have noBlank : isBlank '=' = false := by decide
  have whole : before ++ '=' :: behind ++ c :: rest = before ++ ('=' :: (behind ++ c :: rest)) := by simp
  have signed : ∀ d ∈ ('=' :: (behind ++ c :: rest)).head?, isBlank d = false := by simp [noBlank]
  have stops : ∀ d ∈ (c :: rest).head?, isBlank d = false := by simp [solid]
  obtain ⟨takes, drops⟩ := takeWhile_dropWhile_append blankBefore signed
  obtain ⟨takes', drops'⟩ := takeWhile_dropWhile_append blankBehind stops
  rw [whole, readAssignment, drops, takes]
  simp only [takes', drops']
  simp

namespace AttributeRule

variable {rule : AttributeRule} {name text : Text} {hit : Hit}

/-- **What reads an attribute reads the grammar.** -/
theorem readNamed_iff :
    rule.readNamed name text = some hit
      ↔ ∃ written sign quote value rest, text = written ++ sign ++ [quote] ++ value ++ quote :: rest
          ∧ Spells name written ∧ Assigns sign ∧ isQuote quote = true ∧ quote ∉ value
          ∧ rule.accepts value = true
          ∧ hit = ⟨written ++ sign ++ [quote], value, [quote], rest, some quote,
              if rule.reportsName then some written else none⟩ := by
  simp only [readNamed, Option.bind_eq_bind, Option.bind_eq_some_iff]
  constructor
  · rintro ⟨⟨written, text₁⟩, first, ⟨sign, text₂⟩, second, ⟨quote, value, rest⟩, third, last⟩
    split at last
    next accepted =>
      obtain ⟨rfl, spells⟩ := readWord_eq_some_iff.mp first
      obtain ⟨rfl, assigns⟩ := readAssignment_eq_some second
      obtain ⟨quoted, absent⟩ := readQuoted_eq_some third
      obtain rfl := readQuoted_eq third
      exact ⟨written, sign, quote, value, rest, by simp, spells, assigns, quoted, absent, accepted,
        (Option.some.inj last).symm⟩
    next => simp at last
  · rintro ⟨written, sign, quote, value, rest, rfl, spells, assigns, quoted, absent, accepted, rfl⟩
    refine ⟨(written, sign ++ quote :: (value ++ quote :: rest)), readWord_eq_some_iff.mpr ⟨by simp, spells⟩,
      (sign, quote :: (value ++ quote :: rest)), assigns.read (not_isBlank_of_isQuote quoted),
      (quote, value, rest), readQuoted_closed quoted absent, ?_⟩
    simp [accepted]

/-- An attribute with one of the names is read, if perhaps as one with another name. -/
theorem read_ne_none {written sign value : Text} {quote : Char} (spelt : ∃ name ∈ rule.names, Spells name written)
    (assigns : Assigns sign) (quoted : isQuote quote = true) (absent : quote ∉ value)
    (accepted : rule.accepts value = true) (rest : Text) :
    rule.read (written ++ sign ++ [quote] ++ value ++ quote :: rest) ≠ none := by
  obtain ⟨name, inNames, spells⟩ := spelt
  intro missed
  have reads := readNamed_iff.mpr ⟨written, sign, quote, value, rest, rfl, spells, assigns, quoted, absent,
    accepted, rfl⟩
  exact absurd (reads.symm.trans (List.findSome?_eq_none_iff.mp missed name inNames)) (by simp)

/-! ### What is taken -/

variable {begins html before : Text} {place : Place} {attr : WrittenAttribute}

/-- The rule is interested in the values that begin with a given text. -/
def AcceptsFrom (rule : AttributeRule) (begins : Text) : Prop :=
  ∀ value, rule.accepts value = true ↔ begins <+: value

/-- A match is an attribute of the text. -/
theorem exists_attribute_of_match (accepts : rule.AcceptsFrom begins) (behind : Matcher.PlaceBehind .start before place)
    (found : rule.match? place text = some hit) :
    ∃ attr : WrittenAttribute, attr.OccursIn rule.names begins (before ++ text)
      ∧ attr.before = before ∧ hit = attr.hit rule.reportsName := by
  have parts : ∀ {text hit}, rule.read text = some hit → ∀ lead,
      (lead = [] ∧ before = []) ∨ (∃ c, lead = [c] ∧ isLead c = true) →
      ∃ attr : WrittenAttribute, attr.OccursIn rule.names begins (before ++ (lead ++ text))
        ∧ attr.before = before
        ∧ { hit with lead := lead ++ hit.lead } = attr.hit rule.reportsName := by
    intro text hit read lead led
    obtain ⟨name, inNames, named⟩ := List.exists_of_findSome?_eq_some read
    obtain ⟨written, sign, quote, value, rest, rfl, spells, assigns, quoted, absent, accepted, rfl⟩ :=
      readNamed_iff.mp named
    refine ⟨⟨before, lead, written, sign, quote, value, rest⟩, ⟨?_, led, ⟨name, inNames, spells⟩, assigns, quoted,
      absent, (accepts value).mp accepted⟩, rfl, rfl⟩
    simp [WrittenAttribute.through, WrittenAttribute.front, WrittenAttribute.opening]
  rcases Option.or_eq_some_iff.mp found with unled | ⟨_, led⟩
  · split at unled
    next start =>
      have atStart : before = [] := by
        by_contra nonempty
        exact behind.2 nonempty start
      exact parts unled [] (Or.inl ⟨rfl, atStart⟩)
    next => simp at unled
  · cases text with
    | nil => simp [readLed] at led
    | cons c rest =>
      simp only [readLed] at led
      split at led
      next isLead =>
        obtain ⟨inner, read, rfl⟩ := Option.map_eq_some_iff.mp led
        exact parts read [c] (Or.inr ⟨c, rfl, isLead⟩)
      next => simp at led

/-- A taken match is an attribute of the text. -/
theorem exists_attribute (accepts : rule.AcceptsFrom begins) (takes : rule.matcher.Takes .start html before hit) :
    ∃ attr : WrittenAttribute, attr.OccursIn rule.names begins html
      ∧ attr.before = before ∧ hit = attr.hit rule.reportsName := by
  obtain ⟨rfl, reached, behind, found⟩ := takes.found
  exact exists_attribute_of_match accepts behind found

/-- Where an attribute is written, something is matched. -/
theorem match?_ne_none (accepts : rule.AcceptsFrom begins) (occurs : attr.OccursIn rule.names begins html)
    (behind : Matcher.PlaceBehind .start attr.before place) {ahead : Text}
    (whole : html = attr.before ++ ahead) : rule.match? place ahead ≠ none := by
  have same := List.append_cancel_left (whole.symm.trans occurs.ahead)
  have read := read_ne_none occurs.spelt occurs.assigns occurs.quoted occurs.closed
    ((accepts attr.value).mpr occurs.begun) attr.behind
  rw [same]
  intro missed
  obtain ⟨unled, led⟩ := Option.or_eq_none_iff.mp missed
  rcases occurs.led with ⟨noLead, atStart⟩ | ⟨c, isSingle, isLead⟩
  · rw [if_pos (behind.1 atStart), noLead] at unled
    exact read unled
  · rw [isSingle, List.singleton_append] at led
    simp only [readLed, isLead, if_true, Option.map_eq_none_iff] at led
    exact read led

/-- **An attribute is taken, or begins within one that is taken.** -/
theorem taken_or_within (accepts : rule.AcceptsFrom begins) (areNames : ∀ name ∈ rule.names, IsAttributeName name)
    (occurs : attr.OccursIn rule.names begins html) :
    rule.matcher.Takes .start html attr.before (attr.hit rule.reportsName)
      ∨ ∃ taken : WrittenAttribute, taken.OccursIn rule.names begins html
          ∧ rule.matcher.Takes .start html taken.before (taken.hit rule.reportsName)
          ∧ taken.before.length < attr.before.length ∧ attr.before.length < taken.through.length := by
  rcases rule.matcher.reaches .start occurs.ahead with
    ⟨reached, behind, missed | ⟨hit, takes⟩⟩ | ⟨before, hit, takes, first, second⟩
  · exact absurd missed (match?_ne_none accepts occurs behind occurs.ahead)
  · obtain ⟨taken, occurs', same, rfl⟩ := exists_attribute accepts takes
    obtain rfl := occurs'.eq_of_before areNames occurs same
    exact Or.inl takes
  · obtain ⟨taken, occurs', rfl, rfl⟩ := exists_attribute accepts takes
    exact Or.inr ⟨taken, occurs', takes, first, by rwa [WrittenAttribute.through_eq]⟩

theorem mem_findings_of_takes (takes : rule.matcher.Takes .start html attr.before (attr.hit rule.reportsName)) :
    attr.finding rule.reportsName ∈ (rule.matcher.cut html).findings :=
  Matcher.mem_findings_iff.mpr ⟨_, _, takes, WrittenAttribute.findingAt_hit.symm⟩

end AttributeRule

/-! ### What is reported -/

/-- A matcher reports the attributes of a text that it meets first: what it reports are attributes, and each of the
others begins behind the start of a reported one and before the end of it. -/
structure Matcher.ReportsAttributes (matcher : Matcher) (names : List Text) (begins : Text) (reportsName : Bool)
    (html : Text) : Prop where
  sound : ∀ finding ∈ (matcher.cut html).findings,
    ∃ attr : WrittenAttribute, attr.OccursIn names begins html ∧ finding = attr.finding reportsName
  complete : ∀ attr : WrittenAttribute, attr.OccursIn names begins html →
    attr.finding reportsName ∈ (matcher.cut html).findings
      ∨ ∃ earlier : WrittenAttribute, earlier.OccursIn names begins html
          ∧ earlier.finding reportsName ∈ (matcher.cut html).findings
          ∧ earlier.start < attr.start ∧ attr.start < earlier.stop

/-- **A rule reports its attributes.** -/
theorem AttributeRule.reportsAttributes {rule : AttributeRule} {begins : Text} (accepts : rule.AcceptsFrom begins)
    (areNames : ∀ name ∈ rule.names, IsAttributeName name) (html : Text) :
    rule.matcher.ReportsAttributes rule.names begins rule.reportsName html where
  sound finding member := by
    obtain ⟨before, hit, takes, rfl⟩ := Matcher.mem_findings_iff.mp member
    obtain ⟨attr, occurs, rfl, rfl⟩ := exists_attribute accepts takes
    exact ⟨attr, occurs, WrittenAttribute.findingAt_hit⟩
  complete attr occurs := by
    rcases taken_or_within accepts areNames occurs with takes | ⟨earlier, occurs', takes, first, second⟩
    · exact Or.inl (mem_findings_of_takes takes)
    · refine Or.inr ⟨earlier, occurs', mem_findings_of_takes takes, ?_, ?_⟩
      · exact byteLength_lt_of_length_lt (occurs'.ahead.symm.trans occurs.ahead) first
      · exact byteLength_lt_of_length_lt (occurs.ahead.symm.trans occurs'.whole) second

/-- **The scans for classes, ids and fragments report exactly their grammar**, for every document. -/
theorem attributes_exact (html : Text) :
    classAttributes.ReportsAttributes ["class".toList] [] false html
      ∧ idAttributes.ReportsAttributes ["id".toList] [] false html
      ∧ fragmentAttributes.ReportsAttributes ["xlink:href".toList, "href".toList] ['#'] false html := by
  have all : ∀ {names : List Text} {reportsName : Bool}, AttributeRule.AcceptsFrom ⟨names, fun _ => true, reportsName⟩ [] :=
    fun value => iff_of_true rfl (List.nil_prefix)
  have sharp : ∀ {names : List Text} {reportsName : Bool}, AttributeRule.AcceptsFrom
      ⟨names, fun value => value.head? = some '#', reportsName⟩ ['#'] := by
    intro names reportsName value
    cases value <;> simp [List.cons_prefix_iff, eq_comm]
  exact ⟨AttributeRule.reportsAttributes all (by decide) html, AttributeRule.reportsAttributes all (by decide) html,
    AttributeRule.reportsAttributes sharp (by decide) html⟩

end Relabel
