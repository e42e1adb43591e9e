/-
**Filling a hole anew.**

New text in a hole leaves all matchers undisturbed if it adds no quotes, no equals sign and nothing that
could begin or end a construct. `Refill` lists what that means on each surface. It asks about the old
and the new text only, not about the document around them.

* `Surface.admits`: the values of a surface that are kept apart from all others.
* `Refill`: what is asked of new text.
* `Site.stable`: filling a hole anew commutes with cutting at every surface.
-/

import Relabel.Proofs.Markup.Site
import Relabel.Proofs.Scan.AttributeNames

namespace Relabel

/-! ### Values and new text -/

/-- Whether a value of a surface holds none of the characters that could make constructs overlap. -/
def Surface.admits (s : Surface) (value : Text) : Prop :=
  match s with
  | .style => '=' ∉ value
  | .url => '=' ∉ value ∧ '<' ∉ value ∧ '>' ∉ value
  | _ => '=' ∉ value ∧ '<' ∉ value ∧ '>' ∉ value ∧ '(' ∉ value

instance (s : Surface) (value : Text) : Decidable (s.admits value) :=
  match s with
  | .style => inferInstanceAs (Decidable (_ ∉ _))
  | .url => inferInstanceAs (Decidable (_ ∧ _))
  | .cls | .id | .fragment | .reference => inferInstanceAs (Decidable (_ ∧ _))

/-- What is asked of the text `v'` that takes the place of the value `v` of a surface. -/
structure Refill (s : Surface) (v v' : Text) : Prop where
  admitted : s.admits v'
  /-- No quotes are added. -/
  quotes : ∀ q, isQuote q = true → q ∈ v' → q ∈ v
  /-- An attribute keeps being one that its rule accepts. -/
  accepted : ∀ rule, s.rule? = some rule → rule.accepts v' = true
  /-- The value of an attribute does not become the end of a reference. -/
  closes : s.rule? ≠ none → ∀ q rest, isQuote q = true → ClosesUrl (v' ++ q :: rest) →
    ClosesUrl (v ++ q :: rest)
  /-- A reference keeps having a name. -/
  named : s = .url → v' ≠ [] ∧ ∀ d ∈ v', isUrlNameChar d = true
  /-- A body gets no end tag. -/
  ended : s = .style → ∀ more, NoEndTag v ('<' :: more) → NoEndTag v' ('<' :: more)

/-- What is asked of the text `v'` that takes the place of the body `v` of a style element, so that it
neither begins nor ends a reference. -/
structure UrlRefill (v v' : Text) : Prop where
  named : ∀ more, readUrlEnd ((v' ++ '<' :: more).dropWhile isUrlNameChar) ≠ none →
    readUrlEnd ((v ++ '<' :: more).dropWhile isUrlNameChar) ≠ none
  idle : ∀ more, urlReferences.Idle v ('<' :: more) → urlReferences.Idle v' ('<' :: more)

theorem Surface.noSign_of_admits {s : Surface} {value : Text} (admitted : s.admits value) :
    '=' ∉ value := by
  cases s with
  | style => exact admitted
  | _ => exact admitted.1

theorem Surface.noTag_of_admits {s : Surface} {value : Text} (admitted : s.admits value)
    (other : s ≠ .style) : '<' ∉ value ∧ '>' ∉ value := by
  cases s with
  | style => exact absurd rfl other
  | url => exact admitted.2
  | _ => exact ⟨admitted.2.1, admitted.2.2.1⟩

theorem Surface.noParen_of_admits {s : Surface} {value : Text} {rule : AttributeRule}
    (admitted : s.admits value) (isRule : s.rule? = some rule) : '(' ∉ value := by
  cases s with
  | style | url => simp [rule?] at isRule
  | _ => exact admitted.2.2.2

/-! ### Names of attributes -/

/-- The names of all attributes of interest. -/
def attributeNames : List Text :=
  ["class".toList, "id".toList, "xlink:href".toList, "href".toList] ++ referenceNames

theorem Surface.mem_attributeNames {s : Surface} {rule : AttributeRule} (isRule : s.rule? = some rule)
    {name : Text} (inNames : name ∈ rule.names) : name ∈ attributeNames := by
  have listed : ∀ s : Surface, ∀ rule ∈ s.rule?, ∀ name ∈ rule.names, name ∈ attributeNames := by
    intro s
    cases s <;> decide
  exact listed s rule isRule name inNames

theorem plain_of_mem_attributeNames {name : Text} (inNames : name ∈ attributeNames) :
    name.all isPlainSmall = true ∧ name ≠ [] := by
  have listed : ∀ name ∈ attributeNames, name.all isPlainSmall = true ∧ name ≠ [] := by decide
  exact listed name inNames

/-- No name of one surface is the end of a name of another. -/
theorem Surface.not_suffix {s s' : Surface} (different : s ≠ s') {rule rule' : AttributeRule}
    (isRule : s.rule? = some rule) (isRule' : s'.rule? = some rule') {name name' : Text}
    (inNames : name ∈ rule.names) (inNames' : name' ∈ rule'.names) : ¬ name <:+ name' := by
  have listed : ∀ s s' : Surface, s ≠ s' → ∀ rule ∈ s.rule?, ∀ rule' ∈ s'.rule?,
      ∀ name ∈ rule.names, ∀ name' ∈ rule'.names, ¬ name <:+ name' := by
    intro s s'
    cases s <;> cases s' <;> decide
  exact listed s s' different rule isRule rule' isRule' name inNames name' inNames'

/-- At most one of two surfaces has its name, equals sign and quote at the end of a text. -/
theorem Surface.not_both_opened {s s' : Surface} (different : s ≠ s') {rule rule' : AttributeRule}
    (isRule : s.rule? = some rule) (isRule' : s'.rule? = some rule') {name name' : Text}
    (inNames : name ∈ rule.names) (inNames' : name' ∈ rule'.names) {written written' sign sign' : Text}
    (spells : Spells name written) (spells' : Spells name' written') (assigns : Assigns sign)
    (assigns' : Assigns sign') {c : Char} {text : Text} (suffix : written ++ sign ++ [c] <:+ text) :
    ¬ written' ++ sign' ++ [c] <:+ text := by
  intro suffix'
  obtain ⟨plain, nonempty⟩ := plain_of_mem_attributeNames (mem_attributeNames isRule inNames)
  obtain ⟨plain', nonempty'⟩ := plain_of_mem_attributeNames (mem_attributeNames isRule' inNames')
  rcases names_suffix plain plain' nonempty nonempty' spells spells' assigns assigns' suffix suffix'
    with first | second
  · exact not_suffix different isRule isRule' inNames inNames' first
  · exact not_suffix (Ne.symm different) isRule' isRule inNames' inNames second

/-- The first character of a value decides whether a rule accepts it. -/
theorem Surface.headed {s : Surface} {rule : AttributeRule} (isRule : s.rule? = some rule)
    (d : Char) (first second : Text) : rule.accepts (d :: first) = rule.accepts (d :: second) := by
  cases s with
  | style | url => simp [rule?] at isRule
  | _ =>
    obtain rfl := Option.some.inj isRule
    simp

/-! ### Stoppers -/

/-- What holds of the characters right before a value. -/
theorem stopper_facts {c : Char} (stopper : c ∈ ['"', '\'', '#', '>']) :
    isBlank c = false ∧ c ≠ '=' ∧ (∀ name ∈ attributeNames, Foreign name c) ∧ Foreign "url(" c
      ∧ Foreign "<style" c ∧ Foreign "</style" c := by
  have listed : ∀ c ∈ ['"', '\'', '#', '>'], isBlank c = false ∧ c ≠ '='
      ∧ (∀ name ∈ attributeNames, Foreign name c) ∧ Foreign "url(" c ∧ Foreign "<style" c
      ∧ Foreign "</style" c := by decide
  exact listed c stopper

/-- What holds of the characters behind a value, white space aside. -/
theorem closer_facts {e : Char} (closer : e ∈ ['"', '\'', ')', '<']) :
    isBlank e = false ∧ e ≠ '=' ∧ (∀ name ∈ attributeNames, Foreign name e) ∧ Foreign "url(" e := by
  have listed : ∀ e ∈ ['"', '\'', ')', '<'], isBlank e = false ∧ e ≠ '='
      ∧ (∀ name ∈ attributeNames, Foreign name e) ∧ Foreign "url(" e := by decide
  exact listed e closer

/-- What opens a reference holds no beginning of a tag. -/
theorem noTag_of_readUrl {text : Text} {hit : Hit} (found : readUrl text = some hit) :
    '<' ∉ hit.lead := by
  obtain ⟨⟨word, blanks, opening, lead, spells, blank, opens⟩, _⟩ := readUrl_eq_some found
  rw [lead]
  simp only [List.mem_append, not_or]
  refine ⟨⟨⟨spells.not_mem (by decide), fun member => ?_⟩, ?_⟩, by decide⟩
  · exact absurd (blank '<' member) (by decide)
  · rcases opens with rfl | ⟨quote, quoted, rfl⟩
    · exact List.not_mem_nil
    · rcases eq_of_isQuote quoted with rfl | rfl <;> decide

/-- What opens a reference cannot reach the end tag. -/
theorem lead_le_of_readUrl {r more : Text} {hit : Hit} (found : readUrl (r ++ '<' :: more) = some hit) :
    hit.lead.length ≤ r.length := by
  have parts := (readUrl_eq found).1
  simp only [Hit.text, List.append_assoc] at parts
  rcases List.append_eq_append_iff.mp parts with ⟨reached, lead, behind⟩ | ⟨_, lead, _⟩
  · rcases reached with _ | ⟨d, reached⟩
    · simp [lead]
    · obtain rfl := (List.cons.inj behind).1
      exact absurd (lead ▸ List.mem_append_right r List.mem_cons_self) (noTag_of_readUrl found)
  · simp [lead]

/-- An end tag that is found behind text without one does not begin in that text. -/
theorem readStyleBody_ne_none_append {first second y : Text} (noTag : '<' ∉ second)
    (found : readStyleBody [] (second ++ y) ≠ none) : readStyleBody [] (first ++ y) ≠ none := by
  obtain ⟨r, ⟨front, parts⟩, ended⟩ := readStyleBody_ne_none_iff.mp found
  refine readStyleBody_ne_none_iff.mpr ⟨r, ?_, ended⟩
  obtain ⟨⟨tail, rest⟩, ended⟩ := Option.ne_none_iff_exists'.mp ended
  obtain ⟨more, rfl⟩ := readStyleEnd_eq_cons ended
  rcases List.append_eq_append_iff.mp parts with ⟨_ | ⟨d, inSecond⟩, region, behind⟩ |
    ⟨inRest, _, behind⟩
  · rw [behind]
    exact List.suffix_append first y
  · obtain ⟨rfl, _⟩ := List.cons.inj behind
    exact absurd (region ▸ List.mem_append_right front List.mem_cons_self) noTag
  · rw [behind, ← List.append_assoc]
    exact List.suffix_append (first ++ inRest) _

namespace Site

variable {s s' : Surface} {x v v' y : Text}

/-- Filling a hole anew, at the attributes of any surface. -/
theorem attributeChange (site : Site s x v y) (admitted : s.admits v) (refill : Refill s v v')
    {rule' : AttributeRule} (isRule' : s'.rule? = some rule') : ∃ c, rule'.Change c x v v' y := by
  obtain ⟨c, isStopper, front, rfl⟩ := site.stopper
  obtain ⟨solid, noSign, foreign, _⟩ := stopper_facts isStopper
  obtain ⟨blanks, allBlank, e, isCloser, rest, follows⟩ := site.closer
  obtain ⟨solid', noSign', foreign', _⟩ := closer_facts isCloser
  have inNames : ∀ name ∈ rule'.names, name ∈ attributeNames :=
    fun name member => Surface.mem_attributeNames isRule' member
  refine ⟨c, {
    last := ⟨front, rfl⟩
    solid, noSign
    foreign := fun name member => foreign name (inNames name member)
    headed := fun d first second => Surface.headed isRule' d first second
    quotes := refill.quotes
    quoted := ?_
    accepted := ?_
    oldSigns := Surface.noSign_of_admits admitted
    newSigns := Surface.noSign_of_admits refill.admitted
    follows := ⟨blanks, e, rest, follows, allBlank, solid', noSign',
      fun name member => foreign' name (inNames name member)⟩ }⟩
  · intro quoted
    obtain ⟨_, _, _, _, _, rest, _, _, _, _, _, unquoted, _, closed⟩ := site.of_quote quoted
    exact ⟨unquoted, rest, closed⟩
  · intro quoted name' member' written' sign' spells' assigns' suffix'
    obtain ⟨rule, name, written, sign, front, rest, isRule, member, spells, assigns, rfl, _, accepted,
      _⟩ := site.of_quote quoted
    by_cases same : s = s'
    · subst same
      obtain rfl := Option.some.inj (isRule.symm.trans isRule')
      rw [accepted, refill.accepted rule isRule]
    · -- The attribute that is opened here is one of the other surface.
      have suffix : written ++ sign ++ [c] <:+ front ++ (written ++ sign) ++ [c] := ⟨front, by simp⟩
      exact absurd suffix' (Surface.not_both_opened same isRule isRule' member member' spells spells'
        assigns assigns' suffix)

/-- Without an opening parenthesis, no reference begins in a value. -/
theorem noUrl_within (site : Site s x v y) {r : Text} (noParen : '(' ∉ r) :
    readUrl (r ++ y) = none := by
  obtain ⟨blanks, allBlank, e, isCloser, rest, rfl⟩ := site.closer
  obtain ⟨_, _, _, foreign⟩ := closer_facts isCloser
  exact readUrl_region noParen allBlank foreign

/-- Filling the value of an attribute anew, at references: none begins in the value. -/
theorem urlChange_of_quote {front : Text} {c : Char} (site : Site s (front ++ [c]) v y)
    (quoted : isQuote c = true) (admitted : s.admits v) (refill : Refill s v v') :
    UrlChange (s = .url) c (front ++ [c]) v v' y := by
  obtain ⟨_, isStopper, _, last⟩ := site.stopper
  obtain rfl := (List.append_singleton_inj.mp last).2
  obtain ⟨solid, _, _, foreign, _⟩ := stopper_facts isStopper
  obtain ⟨rule, _, written, _, before, rest, isRule, _, _, ⟨blanks, blanks', rfl, _, blank⟩, rfl, _, _,
    rfl⟩ := site.of_quote quoted
  have isAttribute : s.rule? ≠ none := by simp [isRule]
  have noParen : ∀ {value r : Text}, s.admits value → r <:+ value → '(' ∉ r :=
    fun admitted suffix member => Surface.noParen_of_admits admitted isRule (suffix.subset member)
  refine { last := ⟨_, rfl⟩, solid, foreign, quoted := fun _ => ?_, named := ?_, sharp := ?_,
           short := ?_, idle := ?_ }
  · exact ⟨⟨before ++ written ++ blanks, blanks', by simp, blank⟩,
      refill.closes isAttribute c rest quoted⟩
  · intro nameChar
    simp [isUrlNameChar, quoted] at nameChar
  · rintro rfl
    exact absurd quoted (by decide)
  · intro _ r hit _ suffix found
    rw [site.noUrl_within (noParen admitted suffix)] at found
    simp at found
  · intro _ _ place r _ _ suffix
    exact site.noUrl_within (noParen refill.admitted suffix)

/-- Filling the name of a reference anew, at references: the new name is one. -/
theorem urlChange_of_sharp {front : Text} (site : Site s (front ++ ['#']) v y)
    (refill : Refill s v v') : UrlChange (s = .url) '#' (front ++ ['#']) v v' y := by
  obtain ⟨_, _, _, foreign, _⟩ := stopper_facts (c := '#') (by decide)
  obtain ⟨isUrl, nonempty, oldName, stops⟩ := site.of_sharp
  obtain ⟨nonempty', newName⟩ := refill.named isUrl
  refine { last := ⟨front, rfl⟩, solid := by decide, foreign, quoted := fun quoted => ?_,
           named := fun _ => ?_, sharp := fun _ => ⟨nonempty, nonempty', oldName, newName, stops⟩,
           short := fun notUrl => absurd isUrl notUrl, idle := fun notUrl => absurd isUrl notUrl }
  · exact absurd quoted (by decide)
  · rw [List.dropWhile_append_of_pos oldName, List.dropWhile_append_of_pos newName]
    exact id

/-- Filling the body of a style element anew, at references. -/
theorem urlChange_of_tagEnd {front : Text} (site : Site s (front ++ ['>']) v y)
    (calm : s = .style → UrlRefill v v') : UrlChange (s = .url) '>' (front ++ ['>']) v v' y := by
  obtain ⟨_, _, _, foreign, _⟩ := stopper_facts (c := '>') (by decide)
  obtain ⟨isStyle, more, _, _, rfl, _⟩ := site.of_tagEnd
  exact {
    last := ⟨front, rfl⟩
    solid := by decide
    foreign
    quoted := fun quoted => absurd quoted (by decide)
    named := fun _ => (calm isStyle).named more
    sharp := fun sharp => absurd sharp (by decide)
    short := fun _ _ _ _ _ found => lead_le_of_readUrl found
    idle := fun _ => (calm isStyle).idle more }

/-- Filling a hole anew, at references. -/
theorem urlChange (site : Site s x v y) (admitted : s.admits v) (refill : Refill s v v')
    (calm : s = .style → UrlRefill v v') : ∃ c, UrlChange (s = .url) c x v v' y := by
  obtain ⟨c, isStopper, front, rfl⟩ := site.stopper
  have kinds : isQuote c = true ∨ c = '#' ∨ c = '>' := by
    fin_cases isStopper <;> decide
  rcases kinds with quoted | rfl | rfl
  · exact ⟨c, site.urlChange_of_quote quoted admitted refill⟩
  · exact ⟨'#', site.urlChange_of_sharp refill⟩
  · exact ⟨'>', site.urlChange_of_tagEnd calm⟩

/-- The value behind the end of a start tag is a body, and no other value is. -/
theorem tagEnd_iff {front : Text} {c : Char} (site : Site s (front ++ [c]) v y) :
    c = '>' ↔ s = .style := by
  constructor
  · rintro rfl
    exact site.of_tagEnd.1
  · rintro rfl
    generalize whole : front ++ [c] = before at site
    cases site with
    | attr isRule => simp [Surface.rule?] at isRule
    | style => exact (List.append_singleton_inj.mp whole).2

/-- Filling a body anew, at the bodies of style elements: the new text is one. -/
theorem elementChange_of_tagEnd {front : Text} (site : Site s (front ++ ['>']) v y)
    (refill : Refill s v v') : ElementChange (s = .style) '>' (front ++ ['>']) v v' y := by
  obtain ⟨_, _, _, _, foreign, foreign'⟩ := stopper_facts (c := '>') (by decide)
  obtain ⟨isStyle, more, tail, rest, rfl, ended, noEnd⟩ := site.of_tagEnd
  have old : readStyleBody [] (v ++ '<' :: more) = some (v, tail, rest) :=
    readStyleBody_eq_some_iff.mpr ⟨_, rfl, ended, noEnd⟩
  have new : readStyleBody [] (v' ++ '<' :: more) = some (v', tail, rest) :=
    readStyleBody_eq_some_iff.mpr ⟨_, rfl, ended, refill.ended isStyle more noEnd⟩
  exact {
    last := ⟨front, rfl⟩
    solid := by decide
    foreign
    foreign'
    ended := fun _ => by simp [old]
    body := fun _ => ⟨tail, rest, old, new⟩
    inTag := fun different => absurd rfl different
    short := fun notStyle => absurd isStyle notStyle
    idle := fun notStyle => absurd isStyle notStyle }

/-- Filling another value anew, at the bodies of style elements: no tag begins or ends in it. -/
theorem elementChange_of_ne {front : Text} {c : Char} (site : Site s (front ++ [c]) v y)
    (notStyle : s ≠ .style) (admitted : s.admits v) (refill : Refill s v v') :
    ElementChange (s = .style) c (front ++ [c]) v v' y := by
  obtain ⟨_, isStopper, _, last⟩ := site.stopper
  obtain rfl := (List.append_singleton_inj.mp last).2
  obtain ⟨solid, _, _, _, foreign, foreign'⟩ := stopper_facts isStopper
  obtain ⟨noTag, noEnd⟩ := Surface.noTag_of_admits admitted notStyle
  obtain ⟨noTag', noEnd'⟩ := Surface.noTag_of_admits refill.admitted notStyle
  refine { last := ⟨_, rfl⟩, solid, foreign, foreign', ended := readStyleBody_ne_none_append noTag',
           body := fun tagEnd => absurd (site.tagEnd_iff.mp tagEnd) notStyle,
           inTag := fun _ => ⟨noEnd, noEnd'⟩, short := ?_, idle := ?_ }
  · intro _ r hit nonempty suffix found
    rw [readStyle_region (fun member => noTag (suffix.subset member)) nonempty] at found
    simp at found
  · intro _ _ place r _ nonempty suffix
    exact readStyle_region (fun member => noTag' (suffix.subset member)) nonempty

/-- Filling a hole anew, at the bodies of style elements. -/
theorem elementChange (site : Site s x v y) (admitted : s.admits v) (refill : Refill s v v') :
    ∃ c, ElementChange (s = .style) c x v v' y := by
  obtain ⟨c, _, front, rfl⟩ := site.stopper
  by_cases isStyle : s = .style
  · obtain rfl := site.tagEnd_iff.mpr isStyle
    exact ⟨'>', site.elementChange_of_tagEnd refill⟩
  · exact ⟨c, site.elementChange_of_ne isStyle admitted refill⟩

/-- **Filling a hole anew commutes with cutting at every surface.** -/
theorem stable (site : Site s x v y) (admitted : s.admits v) (refill : Refill s v v')
    (calm : s = .style → s' = .url → UrlRefill v v') :
    s'.matcher.Stable (s = s') s'.admits x v v' y := by
  cases isRule' : s'.rule? with
  | some rule' =>
    obtain ⟨c, change⟩ := site.attributeChange admitted refill isRule'
    rw [Surface.matcher_of_rule isRule']
    exact change.stable (s = s') s'.admits
  | none =>
    cases s' with
    | url =>
      obtain ⟨c, change⟩ := site.urlChange admitted refill fun isStyle => calm isStyle rfl
      exact change.stable fun value good => good.1
    | style =>
      obtain ⟨c, change⟩ := site.elementChange admitted refill
      exact change.stable Surface.style.admits
    | cls | id | fragment | reference => simp [Surface.rule?] at isRule'

end Site

end Relabel
