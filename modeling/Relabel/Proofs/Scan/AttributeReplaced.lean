/-
**Attributes whose values are replaced.**

An attribute that cannot be read ahead of a captured value fails for what stands before the quote that opens the
value, for the first character of its own value, or because its quote is not closed at all. None of these changes
with a new value that brings no new quotes. So the new text is cut where the old one is, however malformed it is.

* `AddsNoQuotes`: a text that has no other quotes than another.
* `AttributeRule.readNamed_none`: one name that is not read, before and after.
* `AttributeRule.ReadsAgain`: the match of an attribute, before and after.
* `AttributeRule.Renews`: what is asked of new values.
* `AttributeRule.Renews.steady`: cutting commutes with replacing values.
-/

import Relabel.Proofs.Scan.AttributeChange
import Relabel.Proofs.Scan.Replaced

namespace Relabel

/-! ### Quotes -/

/-- The quotes of a new text occur in the old one. -/
def AddsNoQuotes (old new : Text) : Prop :=
  ∀ q, isQuote q = true → q ∈ new → q ∈ old

namespace AddsNoQuotes

theorem refl (text : Text) : AddsNoQuotes text text :=
  fun _ _ member => member

theorem append {old new old' new' : Text} (first : AddsNoQuotes old new) (second : AddsNoQuotes old' new') :
    AddsNoQuotes (old ++ old') (new ++ new') := by
  intro q quoted member
  rcases List.mem_append.mp member with inFirst | inSecond
  · exact List.mem_append_left _ (first q quoted inFirst)
  · exact List.mem_append_right _ (second q quoted inSecond)

/-- New values that bring no new quotes bring none to the text. -/
theorem text_replaced {replace : Segment → Option Text}
    (adds : ∀ segment : Segment, AddsNoQuotes segment.value (segment.replaced replace).value) (segments : Segments) :
    AddsNoQuotes segments.text (segments.replaced replace).text := by
  rcases segments with ⟨found, rest⟩
  induction found with
  | nil => exact refl rest
  | cons segment found ih =>
    show AddsNoQuotes (Segments.text (Segments.push segment ⟨found, rest⟩))
      (Segments.text (Segments.push (segment.replaced replace) (Segments.replaced ⟨found, rest⟩ replace)))
    rw [Segments.text_push, Segments.text_push]
    exact ((refl segment.gap).append (adds segment)).append ih

end AddsNoQuotes

namespace AttributeRule

variable {rule : AttributeRule} {name p y y' : Text} {q : Char}

/-- No quote is a letter of a name, and the first character of a value decides whether the value is of interest. -/
structure Plain (rule : AttributeRule) : Prop where
  foreign : ∀ name ∈ rule.names, ∀ q, isQuote q = true → Foreign name q
  headed : ∀ d s t, rule.accepts (d :: s) = rule.accepts (d :: t)

/-! ### One name -/

/-- **An attribute that is not read** ahead of a quote is not read if what follows the quote changes, unless its
value begins right behind a quote. -/
theorem readNamed_none (headed : ∀ d s t, rule.accepts (d :: s) = rule.accepts (d :: t)) (foreign : Foreign name q)
    (quoted : isQuote q = true) (member : q ∈ p) (adds : AddsNoQuotes y y')
    (opened : ∀ written sign quote, isQuote quote = true → [quote] <:+ p →
      rule.close written sign quote [] y = none → rule.close written sign quote [] y' = none)
    (missed : rule.readNamed name (p ++ y) = none) : rule.readNamed name (p ++ y') = none := by
  rcases rule.readNamed_cases member foreign (not_isBlank_of_isQuote quoted) (ne_sign_of_isQuote quoted) with
    (never | ⟨hit, kept, _, always⟩) | ⟨written, sign, quote, begun, _, _, isQuote', _, parts, closes⟩
  · exact never y'
  · rw [always] at missed
    simp at missed
  · rw [closes] at missed ⊢
    cases begun with
    | nil => exact opened written sign quote isQuote' ⟨written ++ sign, parts.symm⟩ missed
    | cons d begun =>
      by_contra found
      obtain ⟨inNew, accepted⟩ := (close_ne_none_iff headed).mp found
      exact (close_ne_none_iff headed).mpr ⟨adds quote isQuote' inNew, accepted⟩ missed

/-- What the match of an attribute consists of. It is matched again with another value of interest and another text
behind it, if these bring no new quotes. -/
structure ReadsAgain (rule : AttributeRule) (read : Text → Option Hit) (quote : Char) (hit : Hit) : Prop where
  quoted : isQuote quote = true
  absent : quote ∉ hit.value
  accepted : rule.accepts hit.value = true
  opened : ∃ front, hit.lead = front ++ [quote]
  tail : hit.tail = [quote]
  again : ∀ value rest, AddsNoQuotes hit.value value → rule.accepts value = true → AddsNoQuotes hit.rest rest →
    read (hit.lead ++ value ++ hit.tail ++ rest) = some { hit with value, rest }

/-- **The match of one name.** -/
theorem readNamed_some {text : Text} {hit : Hit} (found : rule.readNamed name text = some hit) :
    ∃ quote, rule.ReadsAgain (rule.readNamed name) quote hit := by
  simp only [readNamed, Option.bind_eq_bind, Option.bind_eq_some_iff] at found
  obtain ⟨⟨written, text₁⟩, first, ⟨sign, text₂⟩, second, ⟨quote, value, rest⟩, third, last⟩ := found
  obtain ⟨rfl, spells⟩ := readWord_eq_some_iff.mp first
  obtain ⟨quoted, absent⟩ := readQuoted_eq_some third
  obtain rfl := readQuoted_eq third
  split at last
  next accepted =>
    obtain rfl := Option.some.inj last
    -- The equals sign is read before the quote, whatever follows.
    obtain ⟨rfl, signed⟩ := readAssignment_until_quote quoted second
    refine ⟨quote, quoted, absent, accepted, ⟨written ++ sign, rfl⟩, rfl, fun value' rest' adds accepted' _ => ?_⟩
    have absent' : quote ∉ value' := fun inNew => absent (adds quote quoted inNew)
    have word : readWord name (written ++ (sign ++ ([quote] ++ (value' ++ quote :: rest')))) = some (written, _) :=
      readWord_eq_some_iff.mpr ⟨rfl, spells⟩
    have whole : written ++ sign ++ [quote] ++ value' ++ [quote] ++ rest'
        = written ++ (sign ++ ([quote] ++ (value' ++ quote :: rest'))) := by simp
    rw [whole]
    simp only [readNamed, word, signed, readQuoted_closed quoted absent', Option.bind_eq_bind, Option.bind_some,
      if_pos accepted']
  next => simp at last

/-! ### In front of a match -/

namespace ReadsAgain

variable {read : Text → Option Hit} {quote : Char} {hit : Hit}

/-- The value of a match is closed, whatever stands between the name and the quote that opens it. -/
theorem close_ne_none (matched : rule.ReadsAgain read quote hit) {front written sign : Text}
    (last : [q] <:+ front ++ hit.lead) :
    rule.close written sign q [] (hit.value ++ (hit.tail ++ hit.rest)) ≠ none := by
  obtain ⟨before, opened⟩ := matched.opened
  rw [opened, ← List.append_assoc] at last
  obtain ⟨_, parts⟩ := last
  obtain rfl := (List.append_singleton_inj.mp parts).2
  rw [matched.tail, List.singleton_append, close_of_not_mem matched.absent]
  simp [accept, matched.accepted]

section Before

variable (matched : rule.ReadsAgain read quote hit) (plain : rule.Plain)
  (adds : AddsNoQuotes (hit.value ++ (hit.tail ++ hit.rest)) y')

include matched plain adds

/-- A name is not read in front of a match after the change if it was not read before. -/
theorem unread (front : Text) (inNames : name ∈ rule.names)
    (missed : rule.readNamed name (front ++ hit.lead ++ (hit.value ++ (hit.tail ++ hit.rest))) = none) :
    rule.readNamed name (front ++ hit.lead ++ y') = none := by
  obtain ⟨before, opened⟩ := matched.opened
  have member : quote ∈ front ++ hit.lead := by simp [opened]
  refine readNamed_none plain.headed (plain.foreign name inNames quote matched.quoted) matched.quoted member adds
    (fun written sign q _ last closed => ?_) missed
  exact absurd closed (matched.close_ne_none last)

theorem read_none (front : Text)
    (missed : rule.read (front ++ hit.lead ++ (hit.value ++ (hit.tail ++ hit.rest))) = none) :
    rule.read (front ++ hit.lead ++ y') = none := by
  rw [AttributeRule.read, List.findSome?_eq_none_iff] at missed ⊢
  exact fun name inNames => matched.unread plain adds front inNames (missed name inNames)

theorem readLed_none (front : Text) {c : Char}
    (missed : rule.readLed (c :: (front ++ hit.lead ++ (hit.value ++ (hit.tail ++ hit.rest)))) = none) :
    rule.readLed (c :: (front ++ hit.lead ++ y')) = none := by
  simp only [readLed] at missed ⊢
  split at missed
  next lead =>
    rw [if_pos lead]
    exact Option.map_eq_none_iff.mpr (matched.read_none plain adds front (Option.map_eq_none_iff.mp missed))
  next noLead => rw [if_neg noLead]

theorem match?_none (front : Text) {place : Place} {c : Char}
    (missed : rule.match? place (c :: (front ++ hit.lead ++ (hit.value ++ (hit.tail ++ hit.rest)))) = none) :
    rule.match? place (c :: (front ++ hit.lead ++ y')) = none := by
  unfold match? at missed ⊢
  obtain ⟨unled, led⟩ := Option.or_eq_none_iff.mp missed
  refine Option.or_eq_none_iff.mpr ⟨?_, matched.readLed_none plain adds front led⟩
  split at unled
  next start =>
    rw [if_pos start]
    exact matched.read_none plain adds (c :: front) unled
  next inside => rw [if_neg inside]

end Before

end ReadsAgain

/-! ### All names -/

section Matches

variable (plain : rule.Plain) {text : Text} {hit : Hit}

include plain

/-- **The match of one of the names.** The names before it are not read again either. -/
theorem read_some (found : rule.read text = some hit) : ∃ quote, rule.ReadsAgain rule.read quote hit := by
  obtain ⟨earlier, name, later, names, named, missed⟩ := List.findSome?_eq_some_iff.mp found
  obtain ⟨quote, matched⟩ := readNamed_some named
  obtain rfl := (rule.readNamed_eq named).1
  refine ⟨quote, matched.quoted, matched.absent, matched.accepted, matched.opened, matched.tail, ?_⟩
  intro value rest addsValue accepted addsRest
  have adds := addsValue.append ((AddsNoQuotes.refl hit.tail).append addsRest)
  refine List.findSome?_eq_some_iff.mpr
    ⟨earlier, name, later, names, matched.again value rest addsValue accepted addsRest, fun other inEarlier => ?_⟩
  have inNames : other ∈ rule.names := by simp [names, inEarlier]
  have missed' : rule.readNamed other (hit.lead ++ (hit.value ++ (hit.tail ++ hit.rest))) = none := by
    simpa [Hit.text] using missed other inEarlier
  simpa using matched.unread plain adds [] inNames missed'

/-- **The match of an attribute with its lead.** -/
theorem readLed_some (found : rule.readLed text = some hit) : ∃ quote, rule.ReadsAgain rule.readLed quote hit := by
  cases text with
  | nil => simp [readLed] at found
  | cons c text =>
    simp only [readLed] at found
    split at found
    next lead =>
      obtain ⟨inner, read, rfl⟩ := Option.map_eq_some_iff.mp found
      obtain ⟨quote, quoted, absent, accepted, ⟨front, opened⟩, tail, again⟩ := read_some plain read
      refine ⟨quote, quoted, absent, accepted, ⟨c :: front, congrArg (c :: ·) opened⟩, tail, ?_⟩
      intro value rest addsValue accepted addsRest
      have read' := again value rest addsValue accepted addsRest
      simp only [Hit.behind, List.cons_append, readLed, if_pos lead, read']
      rfl
    next => simp at found

/-- **The match of an attribute.** -/
theorem match?_some {place : Place} (found : rule.match? place text = some hit) :
    ∃ quote, rule.ReadsAgain (rule.match? place) quote hit := by
  have whole := (rule.match?_eq found).1
  rcases Option.or_eq_some_iff.mp found with unled | ⟨missed, led⟩
  · split at unled
    next start =>
      obtain ⟨quote, quoted, absent, accepted, opened, tail, again⟩ := read_some plain unled
      refine ⟨quote, quoted, absent, accepted, opened, tail, ?_⟩
      intro value rest addsValue accepted addsRest
      rw [match?, if_pos start, again value rest addsValue accepted addsRest, Option.some_or]
    next => simp at unled
  · obtain ⟨quote, matched⟩ := readLed_some plain led
    refine ⟨quote, matched.quoted, matched.absent, matched.accepted, matched.opened, matched.tail, ?_⟩
    intro value rest addsValue accepted addsRest
    have adds := addsValue.append ((AddsNoQuotes.refl hit.tail).append addsRest)
    have unled : (if place = .start then rule.read (hit.lead ++ value ++ hit.tail ++ rest) else none) = none := by
      split at missed
      next start =>
        rw [if_pos start]
        have missed' : rule.read (hit.lead ++ (hit.value ++ (hit.tail ++ hit.rest))) = none := by
          simpa [whole, Hit.text] using missed
        simpa using matched.read_none plain adds [] missed'
      next inside => rw [if_neg inside]
    rw [match?, unled, Option.none_or]
    exact matched.again value rest addsValue accepted addsRest

end Matches

/-! ### Whole texts -/

/-- What is asked of new values for the attributes of a rule. -/
structure Renews (rule : AttributeRule) (replace : Segment → Option Text) : Prop where
  careless : Careless replace
  plain : rule.Plain
  adds : ∀ segment : Segment, AddsNoQuotes segment.value (segment.replaced replace).value
  accepted : ∀ segment : Segment, rule.accepts segment.value = true →
    rule.accepts (segment.replaced replace).value = true

/-- **Cutting at attributes commutes with replacing values.** -/
theorem Renews.steady {replace : Segment → Option Text} (renews : rule.Renews replace) :
    rule.matcher.Steady replace where
  careless := renews.careless
  missed place c rest missed := by
    rcases rule.matcher.replaced_cases replace (.after c) rest with same |
      ⟨segment, later, place', front, hit, ran, gap, value, behind, old, new⟩
    · rw [same]
      exact missed
    · obtain ⟨quote, matched⟩ := match?_some renews.plain ran
      have adds : AddsNoQuotes (hit.value ++ (hit.tail ++ hit.rest))
          ((segment.replaced replace).value ++ (later.replaced replace).text) := by
        rw [← value, ← behind]
        exact (renews.adds segment).append (AddsNoQuotes.text_replaced renews.adds later)
      rw [new, gap]
      refine matched.match?_none renews.plain adds front ?_
      rw [← gap, ← value, ← behind, ← old]
      exact missed
  again place text hit ran := by
    obtain ⟨quote, matched⟩ := match?_some renews.plain ran
    refine matched.again _ _ (renews.adds ⟨hit.lead, hit.value, hit.quote, hit.name⟩)
      (renews.accepted ⟨hit.lead, hit.value, hit.quote, hit.name⟩ matched.accepted) ?_
    have adds := AddsNoQuotes.text_replaced renews.adds (rule.matcher.cutFrom .joined [] hit.rest)
    rwa [Matcher.text_cutFrom_nil] at adds

end AttributeRule

end Relabel
