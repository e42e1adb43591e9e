/-
**Attributes before and after a change.**

An attribute that begins before the region either ends before it, or has its value opened by a quote
that is not closed before it. In the latter case a match would capture the region and some text before
it, so there is none; unless the quote is the very last character before the region, and then the region
is the value.

* `AttributeRule.readNamed_cases`: what can be found at a place before a stopper.
* `AttributeRule.Change`: what is asked of a change.
* `AttributeRule.Change.stable`: cutting at attributes commutes with the change.
-/

import Relabel.Proofs.Scan.Cut
import Relabel.Proofs.Scan.Reading
import Relabel.Scan.Attribute

namespace Relabel

namespace AttributeRule

variable {rule : AttributeRule} {name p v v' x y : Text} {c : Char}

/-! ### One name -/

/-- The match of an attribute all of whose parts have been read. -/
def accept (rule : AttributeRule) (written sign : Text) (quote : Char) (value rest : Text) :
    Option Hit :=
  if rule.accepts value then
    some {
      lead := written ++ sign ++ [quote], value, tail := [quote], rest, quote := some quote,
      name := if rule.reportsName then some written else none }
  else none

theorem accept_eq_some {written sign value rest : Text} {quote : Char} {hit : Hit}
    (found : rule.accept written sign quote value rest = some hit) :
    hit.lead = written ++ sign ++ [quote] ∧ hit.value = value ∧ hit.tail = [quote]
      ∧ hit.rest = rest ∧ rule.accepts value = true := by
  unfold accept at found
  split at found
  next accepted =>
    obtain rfl := Option.some.inj found
    exact ⟨rfl, rfl, rfl, rfl, accepted⟩
  next => simp at found

/-- The match of an attribute whose name, equals sign and quote have been read, and of whose value
`begun` has been read. -/
def close (rule : AttributeRule) (written sign : Text) (quote : Char) (begun text : Text) :
    Option Hit :=
  match text.dropWhile (· != quote) with
  | [] => none
  | _ :: rest => rule.accept written sign quote (begun ++ text.takeWhile (· != quote)) rest

/-- A value that is closed is read before whatever follows. -/
theorem readQuoted_append {quote : Char} {begun : Text} (quoted : isQuote quote = true)
    (closed : quote ∈ begun) :
    ∃ kept, ∀ t, readQuoted (quote :: begun ++ t)
      = some (quote, begun.takeWhile (· != quote), kept ++ t) := by
  have stops : (quote != quote) = false := by simp
  have inRest := mem_dropWhile_of_stop (f := (· != quote)) closed stops
  obtain ⟨q, kept, split⟩ := List.exists_cons_of_ne_nil (List.ne_nil_of_mem inRest)
  refine ⟨kept, fun t => ?_⟩
  have drops := dropWhile_append_of_stop (t := t) (f := (· != quote)) closed stops
  have takes := takeWhile_append_of_stop (t := t) (f := (· != quote)) closed stops
  simp only [List.cons_append, readQuoted, quoted, if_true, drops, takes, split]

/-- The match of an attribute whose name and equals sign have been read. -/
def acceptQuoted (rule : AttributeRule) (written sign text : Text) : Option Hit :=
  (readQuoted text).bind fun (quote, value, rest) => rule.accept written sign quote value rest

/-- A value that has begun and is not closed yet goes on. -/
theorem acceptQuoted_begun {written sign begun : Text} {quote : Char} (quoted : isQuote quote = true)
    (opened : quote ∉ begun) (t : Text) :
    rule.acceptQuoted written sign (quote :: begun ++ t)
      = rule.close written sign quote begun t := by
  have passes : ∀ d ∈ begun, (d != quote) = true := by
    intro d inBegun
    have different : d ≠ quote := fun same => opened (same ▸ inBegun)
    simpa using different
  simp only [acceptQuoted, List.cons_append, readQuoted, quoted, if_true,
    List.dropWhile_append_of_pos passes, List.takeWhile_append_of_pos passes, close]
  cases t.dropWhile (· != quote) <;> rfl

/-- A name and an equals sign are read before a stopper or not at all. -/
theorem readNamed_opens (rule : AttributeRule) (member : c ∈ p) (foreign : Foreign name c)
    (solid : isBlank c = false) (other : c ≠ '=') :
    (∀ t, rule.readNamed name (p ++ t) = none)
      ∨ ∃ written sign rest, Spells name written ∧ Assigns sign ∧ rest ≠ []
          ∧ p = written ++ sign ++ rest
          ∧ ∀ t, rule.readNamed name (p ++ t) = rule.acceptQuoted written sign (rest ++ t) := by
  cases word : readWord name p with
  | none =>
    refine Or.inl fun t => ?_
    simp [readNamed, readWord_append member foreign, word]
  | some parts =>
    obtain ⟨written, p₁⟩ := parts
    obtain ⟨rfl, spells⟩ := readWord_eq_some_iff.mp word
    have member₁ := mem_of_readWord member foreign word
    have first : ∀ t, readWord name (written ++ p₁ ++ t) = some (written, p₁ ++ t) := by
      intro t
      rw [readWord_append member foreign, word]
      rfl
    have second (t : Text) := readAssignment_append (t := t) member₁ solid other
    cases equals : readAssignment p₁ with
    | none =>
      refine Or.inl fun t => ?_
      simp only [readNamed, first, second, equals, Option.bind_eq_bind, Option.bind_some,
        Option.map_none, Option.bind_none]
    | some parts =>
      obtain ⟨sign, rest⟩ := parts
      obtain ⟨rfl, assigns⟩ := readAssignment_eq_some equals
      have inRest := mem_of_readAssignment member₁ solid other equals
      refine Or.inr ⟨written, sign, rest, spells, assigns, List.ne_nil_of_mem inRest, by simp,
        fun t => ?_⟩
      simp only [readNamed, first, second, equals, Option.bind_eq_bind, Option.bind_some,
        Option.map_some]
      rfl

/-- What can be found where a stopper is ahead: nothing; an attribute that ends before whatever
follows; or one whose value has begun. -/
theorem readNamed_cases (rule : AttributeRule) (member : c ∈ p) (foreign : Foreign name c)
    (solid : isBlank c = false) (other : c ≠ '=') :
    Settled (rule.readNamed name) p
      ∨ ∃ written sign quote begun, Spells name written ∧ Assigns sign ∧ isQuote quote = true
          ∧ quote ∉ begun ∧ p = written ++ sign ++ quote :: begun
          ∧ ∀ t, rule.readNamed name (p ++ t) = rule.close written sign quote begun t := by
  rcases rule.readNamed_opens member foreign solid other with misses |
    ⟨written, sign, rest, spells, assigns, nonempty, parts, opens⟩
  · exact Or.inl (Or.inl misses)
  obtain ⟨quote, begun, rfl⟩ := List.exists_cons_of_ne_nil nonempty
  by_cases quoted : isQuote quote = true
  · by_cases closed : quote ∈ begun
    · obtain ⟨kept, reads⟩ := readQuoted_append quoted closed
      left
      by_cases accepted : rule.accepts (begun.takeWhile (· != quote)) = true
      · refine Or.inr ⟨⟨written ++ sign ++ [quote], begun.takeWhile (· != quote), [quote], [],
          some quote, if rule.reportsName then some written else none⟩, kept, by simp, fun t => ?_⟩
        simp only [opens, acceptQuoted, reads, Option.bind_some, accept, if_pos accepted]
      · refine Or.inl fun t => ?_
        simp only [opens, acceptQuoted, reads, Option.bind_some, accept, if_neg accepted]
    · exact Or.inr ⟨written, sign, quote, begun, spells, assigns, quoted, closed, parts,
        fun t => (opens t).trans (acceptQuoted_begun quoted closed t)⟩
  · refine Or.inl (Or.inl fun t => ?_)
    simp only [opens, acceptQuoted, List.cons_append, readQuoted, if_neg quoted, Option.bind_none]

/-- The parts of the match of an attribute whose value has begun. -/
theorem close_eq_some {written sign begun text : Text} {quote : Char} {hit : Hit}
    (found : rule.close written sign quote begun text = some hit) :
    hit.lead = written ++ sign ++ [quote] ∧ ∃ more, hit.value = begun ++ more := by
  unfold close at found
  split at found
  · simp at found
  · obtain ⟨lead, value, _⟩ := accept_eq_some found
    exact ⟨lead, _, value⟩

/-- A value is closed by the first quote of the kind that opened it. -/
theorem close_of_not_mem {written sign begun text rest : Text} {quote : Char}
    (notMem : quote ∉ text) :
    rule.close written sign quote begun (text ++ quote :: rest)
      = rule.accept written sign quote (begun ++ text) rest := by
  have passes : ∀ d ∈ text, (d != quote) = true := by
    intro d inText
    have different : d ≠ quote := fun same => notMem (same ▸ inText)
    simpa using different
  simp [close, List.dropWhile_append_of_pos passes, List.takeWhile_append_of_pos passes]

/-- If the first character of a value decides whether it is accepted, then a value that has begun is
matched exactly if it is closed at all. -/
theorem close_ne_none_iff (headed : ∀ d s t, rule.accepts (d :: s) = rule.accepts (d :: t))
    {written sign s text : Text} {quote d : Char} :
    rule.close written sign quote (d :: s) text ≠ none
      ↔ quote ∈ text ∧ rule.accepts (d :: s) = true := by
  have sameAcceptance : ∀ more, rule.accepts (d :: s ++ more) = rule.accepts (d :: s) :=
    fun more => headed d (s ++ more) s
  have closing : quote ∈ text ↔ text.dropWhile (· != quote) ≠ [] := by
    rw [Ne, List.dropWhile_eq_nil_iff]
    simp
  rw [closing]
  unfold close
  cases text.dropWhile (· != quote) with
  | nil => simp
  | cons q rest =>
    simp only [accept, sameAcceptance]
    split <;> simp_all

/-! ### Changes -/

/-- What is asked of a change of `x ++ v ++ y` to `x ++ v' ++ y` for cutting at the attributes of a rule.
The text before the region ends with the stopper `c`. -/
structure Change (rule : AttributeRule) (c : Char) (x v v' y : Text) : Prop where
  last : ∃ front, x = front ++ [c]
  solid : isBlank c = false
  noSign : c ≠ '='
  foreign : ∀ name ∈ rule.names, Foreign name c
  headed : ∀ d s t, rule.accepts (d :: s) = rule.accepts (d :: t)
  /-- The change adds no quotes. -/
  quotes : ∀ q, isQuote q = true → q ∈ v' → q ∈ v
  /-- If the stopper is a quote, then it also closes the region. -/
  quoted : isQuote c = true → c ∉ v ∧ ∃ rest, y = c :: rest
  /-- An attribute of the rule that is opened by the stopper is accepted before and after the change or
  not at all. -/
  accepted : isQuote c = true → ∀ name ∈ rule.names, ∀ written sign, Spells name written →
    Assigns sign → written ++ sign ++ [c] <:+ x → rule.accepts v = rule.accepts v'
  oldSigns : '=' ∉ v
  newSigns : '=' ∉ v'
  /-- What follows the region is no equals sign, white space aside. -/
  follows : ∃ blanks e rest, y = blanks ++ e :: rest ∧ (∀ b ∈ blanks, isBlank b = true)
    ∧ isBlank e = false ∧ e ≠ '=' ∧ ∀ name ∈ rule.names, Foreign name e

namespace Change

section Begun

variable {written sign begun : Text} {quote : Char}

/-- An attribute whose value is the region. -/
theorem tracks_opened (change : rule.Change c x v v' y) (quoted : isQuote c = true)
    (alike : rule.accepts v = rule.accepts v') :
    Tracks (written ++ sign ++ [c]) v v' y (rule.close written sign c [] (v ++ y))
      (rule.close written sign c [] (v' ++ y)) := by
  obtain ⟨notInOld, rest, rfl⟩ := change.quoted quoted
  have notInNew : c ∉ v' := fun inNew => notInOld (change.quotes c quoted inNew)
  rw [close_of_not_mem notInOld, close_of_not_mem notInNew]
  simp only [accept, List.nil_append, ← alike]
  split
  · exact Tracks.filled ⟨written ++ sign ++ [c], v, [c], rest, some c, _⟩
  · exact Tracks.missed

/-- An attribute whose value would reach the region: a match would capture the region and some text
before it. -/
theorem tracks_begun (change : rule.Change c x v v' y) (quoted : isQuote quote = true)
    (nonempty : begun ≠ [])
    (respects : ∀ hit, rule.close written sign quote begun (v ++ y) = some hit →
      hit.Respects (written ++ sign ++ [quote] ++ begun) v) :
    Tracks (written ++ sign ++ [quote] ++ begun) v v' y (rule.close written sign quote begun (v ++ y))
      (rule.close written sign quote begun (v' ++ y)) := by
  obtain ⟨d, begun, rfl⟩ := List.exists_cons_of_ne_nil nonempty
  refine Tracks.begun nonempty (fun hit found => close_eq_some found) respects fun found => ?_
  obtain ⟨inNew, accepted⟩ := (close_ne_none_iff change.headed).mp found
  have inOld : quote ∈ v ++ y := by
    rcases List.mem_append.mp inNew with inRegion | behind
    · exact List.mem_append_left y (change.quotes quote quoted inRegion)
    · exact List.mem_append_right v behind
  exact (close_ne_none_iff change.headed).mpr ⟨inOld, accepted⟩

end Begun

/-- One name before the region. -/
theorem tracks_named (change : rule.Change c x v v' y) (inNames : name ∈ rule.names)
    (nonempty : p ≠ []) (suffix : p <:+ x)
    (respects : ∀ hit, rule.readNamed name (p ++ v ++ y) = some hit → hit.Respects p v) :
    Tracks p v v' y (rule.readNamed name (p ++ v ++ y)) (rule.readNamed name (p ++ v' ++ y)) := by
  obtain ⟨front, ends⟩ := ends_of_suffix change.last nonempty suffix
  have member : c ∈ p := by simp [ends]
  rcases rule.readNamed_cases member (change.foreign name inNames) change.solid change.noSign with
    settled | ⟨written, sign, quote, begun, spells, assigns, quoted, unclosed, parts, opens⟩
  · exact settled.tracks v v' y
  · rw [List.append_assoc, opens] at respects
    rw [List.append_assoc, List.append_assoc, opens, opens]
    by_cases empty : begun = []
    · subst empty
      obtain rfl : quote = c :=
        (List.append_singleton_inj.mp (parts.symm.trans ends)).2
      have alike := change.accepted quoted name inNames written sign spells assigns (parts ▸ suffix)
      rw [parts]
      exact change.tracks_opened quoted alike
    · obtain rfl : p = written ++ sign ++ [quote] ++ begun := by simp [parts]
      exact change.tracks_begun quoted empty respects

/-- All names before the region. -/
theorem tracks_read (change : rule.Change c x v v' y) (nonempty : p ≠ []) (suffix : p <:+ x)
    (respects : ∀ hit, rule.read (p ++ v ++ y) = some hit → hit.Respects p v) :
    Tracks p v v' y (rule.read (p ++ v ++ y)) (rule.read (p ++ v' ++ y)) := by
  have general : ∀ names : List Text, (∀ name ∈ names, name ∈ rule.names) →
      (∀ hit, names.findSome? (rule.readNamed · (p ++ v ++ y)) = some hit → hit.Respects p v) →
      Tracks p v v' y (names.findSome? (rule.readNamed · (p ++ v ++ y)))
        (names.findSome? (rule.readNamed · (p ++ v' ++ y))) := by
    intro names inNames respects
    induction names with
    | nil => exact Tracks.missed
    | cons name names ih =>
      have step : ∀ text, (name :: names).findSome? (rule.readNamed · text)
          = (rule.readNamed name text).or (names.findSome? (rule.readNamed · text)) := by
        intro text
        rw [List.findSome?_cons]
        cases rule.readNamed name text <;> rfl
      rw [step] at respects
      rw [step, step]
      refine Tracks.or ?_ fun missed => ?_
      · exact change.tracks_named (inNames name List.mem_cons_self) nonempty suffix
          fun hit found => respects hit (by rw [found]; rfl)
      · exact ih (fun name member => inNames name (List.mem_cons_of_mem _ member))
          fun hit found => respects hit (by rw [missed]; exact found)
  exact general rule.names (fun _ member => member) respects

/-- Without an equals sign in the region, no attribute begins in it. -/
theorem read_region (change : rule.Change c x v v' y) {r : Text} (noSign : '=' ∉ r) :
    rule.read (r ++ y) = none := by
  obtain ⟨blanks, e, rest, rfl, allBlank, solid, other, foreign⟩ := change.follows
  rw [read, List.findSome?_eq_none_iff]
  intro name inNames
  by_contra found
  obtain ⟨hit, found⟩ := Option.ne_none_iff_exists'.mp found
  simp only [readNamed, Option.bind_eq_bind, Option.bind_eq_some_iff] at found
  obtain ⟨⟨written, text₁⟩, first, ⟨sign, text₂⟩, second, _⟩ := found
  obtain ⟨parts, spells⟩ := readWord_eq_some_iff.mp first
  obtain ⟨rfl, before, behind, rfl, blankBefore, _⟩ := readAssignment_eq_some second
  have notBlank : ∀ texts : Text, (∀ b ∈ texts, isBlank b = true) → e ∉ texts := by
    intro texts blank member
    simp [blank e member] at solid
  have signBlank : '=' ∉ blanks := fun member =>
    absurd (allBlank '=' member) (by decide)
  have clash := append_cons_ne (a := r ++ blanks) (b := written ++ before) (c := e) (d := '=')
    (s := rest) (t := behind ++ text₂)
    (fun member => (List.mem_append.mp member).elim noSign signBlank)
    (fun member => (List.mem_append.mp member).elim (spells.not_mem (foreign name inNames))
      (notBlank before blankBefore))
    other
  exact clash (by simpa using parts)

end Change

end AttributeRule

/-! ### Leads -/

theorem Hit.Respects.of_behind {hit : Hit} {p v : Text} {d : Char}
    (respects : (hit.behind d).Respects (d :: p) v) : hit.Respects p v := by
  rcases respects with within | ⟨lead, value⟩ | behind
  · refine Or.inl ?_
    simp only [Hit.behind, List.length_cons] at within
    omega
  · exact Or.inr (Or.inl ⟨(List.cons.inj lead).2, value⟩)
  · refine Or.inr (Or.inr ?_)
    simp only [Hit.behind, List.length_cons] at behind
    omega

theorem Tracks.behind {p v v' y : Text} {old new : Option Hit} (tracks : Tracks p v v' y old new)
    (d : Char) :
    Tracks (d :: p) v v' y (old.map (·.behind d)) (new.map (·.behind d)) := by
  cases tracks with
  | missed => exact Tracks.missed
  | passed hit kept closed => exact Tracks.passed (hit.behind d) kept closed
  | within hit behind nonempty => exact Tracks.within hit behind nonempty
  | filled hit => exact Tracks.filled hit

namespace AttributeRule.Change

variable {rule : AttributeRule} {p v v' x y : Text} {c : Char}

/-- An attribute with its lead before the region. -/
theorem tracks_readLed (change : rule.Change c x v v' y) (nonempty : p ≠ []) (suffix : p <:+ x)
    (respects : ∀ hit, rule.readLed (p ++ v ++ y) = some hit → hit.Respects p v) :
    Tracks p v v' y (rule.readLed (p ++ v ++ y)) (rule.readLed (p ++ v' ++ y)) := by
  obtain ⟨d, p, rfl⟩ := List.exists_cons_of_ne_nil nonempty
  simp only [List.cons_append, readLed] at respects ⊢
  by_cases lead : isLead d = true
  · simp only [lead, if_true] at respects ⊢
    by_cases empty : p = []
    · subst empty
      rw [List.nil_append, List.nil_append, change.read_region change.oldSigns,
        change.read_region change.newSigns]
      exact Tracks.missed
    · refine Tracks.behind (change.tracks_read empty ((List.suffix_cons d p).trans suffix) ?_) d
      exact fun hit found => (respects _ (by rw [found]; rfl)).of_behind
  · simp only [lead]
    exact Tracks.missed

/-- No attribute begins at a character of the region. -/
theorem run_region (change : rule.Change c x v v' y) {r : Text} (noSign : '=' ∉ r)
    (nonempty : r ≠ []) {place : Place} (inside : place ≠ .start) :
    rule.matcher.run place (r ++ y) = none := by
  obtain ⟨d, r, rfl⟩ := List.exists_cons_of_ne_nil nonempty
  have noSignBehind : '=' ∉ r := fun member => noSign (List.mem_cons_of_mem d member)
  show rule.match? place (d :: r ++ y) = none
  simp [match?, inside, readLed, change.read_region noSignBehind]

/-- **Cutting at the attributes of a rule commutes with the change.** -/
theorem stable (change : rule.Change c x v v' y) (exact : Prop) (good : Text → Prop) :
    rule.matcher.Stable exact good x v v' y where
  placeless place place' text inside inside' := by
    show rule.match? place text = rule.match? place' text
    simp [match?, inside, inside']
  tracks place p nonempty suffix respects := by
    have respectsHit : ∀ hit, rule.match? place (p ++ v ++ y) = some hit → hit.Respects p v :=
      fun hit found => (respects hit found).1
    show Tracks p v v' y (rule.match? place (p ++ v ++ y)) (rule.match? place (p ++ v' ++ y))
    by_cases start : place = .start
    · simp only [match?, start, if_true] at respectsHit ⊢
      refine Tracks.or ?_ fun missed => ?_
      · exact change.tracks_read nonempty suffix
          fun hit found => respectsHit hit (by rw [found]; rfl)
      · exact change.tracks_readLed nonempty suffix
          fun hit found => respectsHit hit (by rw [missed]; exact found)
    · simp only [match?, start, if_false, Option.none_or] at respectsHit ⊢
      exact change.tracks_readLed nonempty suffix respectsHit
  short _ place r hit inside nonempty suffix found := by
    have noSign : '=' ∉ r := fun member => change.oldSigns (suffix.subset member)
    rw [change.run_region noSign nonempty inside] at found
    simp at found
  idle _ _ place r inside nonempty suffix :=
    change.run_region (fun member => change.newSigns (suffix.subset member)) nonempty inside

end AttributeRule.Change

end Relabel
