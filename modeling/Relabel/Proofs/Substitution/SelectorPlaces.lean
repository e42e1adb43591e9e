/-
**Where the selectors of a stylesheet are.**

A selector is reported where its name is captured. Text in front of it, if it does not end within a name,
changes nothing but the place.

* `mem_locatedSelectors`: the reported selectors are the segments of the cut.
* `Segments.append`: the segments of a text behind those of the text before it.
* `selectors_cut_append`: a stylesheet in two parts is cut part by part.
* `mem_locatedSelectors_iff`: whether a name behind a sigil is reported.
-/

import Relabel.Proofs.Markup.Captures
import Relabel.Proofs.Substitution.Selectors

namespace Relabel

open Text (append_inj_of_byteLength byteLength byteLength_append)

/-! ### Findings -/

/-- The sigil of a kind of selector. -/
def Kind.sigil : Kind → Char
  | .cls => '.'
  | .id => '#'

theorem kindOfSigil?_sigil (kind : Kind) : kindOfSigil? kind.sigil = some kind := by
  cases kind <;> rfl

theorem isSome_kindOfSigil? (kind : Kind) : (kindOfSigil? kind.sigil).isSome = true := by
  rw [kindOfSigil?_sigil]
  rfl

/-- A sigil takes one byte. -/
theorem byteLength_append_sigil (front : Text) (kind : Kind) :
    byteLength (front ++ [kind.sigil]) = byteLength front + 1 := by
  rw [byteLength_append]
  cases kind <;> rfl

/-- The finding of a segment that begins at byte `offset`. -/
def Segment.findingAt (offset : Nat) (segment : Segment) : Finding :=
  ⟨offset + byteLength segment.gap, offset + byteLength segment.gap + byteLength segment.value,
    segment.value, segment.quote, segment.name⟩

namespace Segments

/-- The text of a list of segments and what follows them. -/
theorem text_eq_append (found : List Segment) (rest : Text) :
    text ⟨found, rest⟩ = text ⟨found, []⟩ ++ rest := by
  simp [text]

/-- The findings of a list of segments, with what `label` says of each of them. -/
theorem mem_zip_findingsFrom {κ : Type} (label : Segment → κ) {found : List Segment} {offset : Nat}
    {entry : κ × Finding} :
    entry ∈ (found.map label).zip (findingsFrom offset found)
      ↔ ∃ before segment later, found = before ++ segment :: later
          ∧ entry = (label segment, segment.findingAt (offset + byteLength (text ⟨before, []⟩))) := by
  induction found generalizing offset with
  | nil => simp
  | cons first found ih =>
    rw [List.map_cons, findingsFrom, List.zip_cons_cons, List.mem_cons, ih]
    constructor
    · rintro (rfl | ⟨before, segment, later, rfl, rfl⟩)
      · exact ⟨[], first, found, rfl, by simp [text, Segment.findingAt]⟩
      · exact ⟨first :: before, segment, later, rfl, by simp [text, Nat.add_assoc]⟩
    · rintro ⟨before, segment, later, parts, rfl⟩
      cases before with
      | nil =>
        obtain ⟨rfl, rfl⟩ := List.cons.inj parts
        exact Or.inl (by simp [text, Segment.findingAt])
      | cons second before =>
        obtain ⟨rfl, rfl⟩ := List.cons.inj parts
        exact Or.inr ⟨before, segment, later, rfl, by simp [text, Nat.add_assoc]⟩

/-- Each segment captures its value. -/
theorem captures_of_found {segments : Segments} {before later : List Segment} {segment : Segment}
    (parts : segments.found = before ++ segment :: later) :
    segments.Captures (text ⟨before, segment.gap⟩) segment.value (text ⟨later, segments.rest⟩) := by
  rcases segments with ⟨found, rest⟩
  obtain rfl : found = before ++ segment :: later := parts
  induction before with
  | nil => exact Or.inl ⟨rfl, rfl, rfl⟩
  | cons first before ih =>
    refine Or.inr ⟨text ⟨before, segment.gap⟩, ?_, ih⟩
    exact List.append_assoc _ _ _

/-- The segments of a text behind those of the text before it. -/
def append (first second : Segments) : Segments :=
  { second.prepend first.rest with found := first.found ++ (second.prepend first.rest).found }

theorem append_prepend (front : Text) (first second : Segments) :
    (first.prepend front).append second = (first.append second).prepend front := by
  rcases first with ⟨_ | ⟨segment, found⟩, rest⟩
  · show (second.prepend (front ++ rest)) = (second.prepend rest).prepend front
    rw [prepend_prepend]
  · rfl

theorem append_push (segment : Segment) (first second : Segments) :
    (first.push segment).append second = (first.append second).push segment :=
  rfl

end Segments

/-- **The reported selectors** are the segments of the cut. -/
theorem mem_locatedSelectors {css : Text} {entry : Kind × Finding} :
    entry ∈ locatedSelectors css
      ↔ ∃ before segment later, (selectors.cut css).found = before ++ segment :: later
          ∧ entry = (segment.kind, segment.findingAt (byteLength (Segments.text ⟨before, []⟩))) := by
  show entry ∈ ((selectors.cut css).found.map (·.kind)).zip
    (Segments.findingsFrom 0 (selectors.cut css).found) ↔ _
  rw [Segments.mem_zip_findingsFrom]
  simp only [Nat.zero_add]

/-- A reported name is captured where it is reported. -/
theorem captures_of_mem_locatedSelectors {css : Text} {entry : Kind × Finding}
    (reported : entry ∈ locatedSelectors css) :
    ∃ before behind, (selectors.cut css).Captures before entry.2.value behind
      ∧ entry.2.start = byteLength before := by
  obtain ⟨before, segment, later, parts, rfl⟩ := mem_locatedSelectors.mp reported
  refine ⟨_, _, Segments.captures_of_found parts, ?_⟩
  rw [Segments.text_eq_append before segment.gap, byteLength_append]
  rfl

/-! ### Two parts -/

/-- Whether a name begins at the front of a text is decided before a character that is part of no name. -/
theorem beginsName_append {text : Text} {c : Char} (member : c ∈ text) (stops : isNameChar c = false)
    (more : Text) : beginsName (text ++ more) = beginsName text := by
  rcases text with _ | ⟨d, _ | ⟨e, text⟩⟩
  · exact absurd member List.not_mem_nil
  · obtain rfl := List.mem_singleton.mp member
    have notHyphen : c ≠ '-' := by
      rintro rfl
      exact absurd stops (by decide)
    simp [beginsName, notHyphen]
  · by_cases hyphen : d = '-'
    · subst hyphen
      rfl
    · simp [beginsName, hyphen]

/-- No selector is read where none was read before, if the text ahead ends outside any name. -/
theorem readSelector_append_eq_none {place : Place} {d : Char} {text more : Text} {c : Char}
    (missed : readSelector place (d :: text) = none) (stops : isNameChar c = false)
    (unbegun : beginsName more = false) (inText : text ≠ [] → c ∈ text) :
    readSelector place (d :: (text ++ more)) = none := by
  by_cases empty : text = []
  · subst empty
    simp only [List.nil_append, readSelector, unbegun, Bool.and_false, Bool.false_and]
    exact if_neg Bool.false_ne_true
  · have member := inText empty
    simp only [readSelector, takeWhile_append_of_stop member stops,
      beginsName_append member stops more] at missed ⊢
    split at missed
    · simp at missed
    next fails => rw [if_neg fails]

/-- **A stylesheet in two parts is cut part by part**, if the first part ends outside any name and the
second does not begin with one. The induction is on the cut of the first part. -/
theorem CutAtSelectors.append {place : Place} {c : Char} {text more : Text} {segments : Segments}
    (cut : CutAtSelectors place text segments) (stops : isNameChar c = false)
    (unbegun : beginsName more = false) (ends : ∀ d ∈ text.getLast?, d = c)
    (reached : text = [] → place = .after c) :
    CutAtSelectors place (text ++ more) (segments.append (selectors.cutFrom (.after c) [] more)) := by
  induction cut with
  | done place =>
    rw [reached rfl]
    show CutAtSelectors (.after c) more ((selectors.cutFrom (.after c) [] more).prepend [])
    rw [Segments.prepend_nil]
    exact cutAtSelectors_cutFrom (.after c) more
  | @skip place d text segments missed behind ih =>
    have endsBehind : ∀ e ∈ text.getLast?, e = c := by
      intro e isLast
      refine ends e ?_
      rw [List.getLast?_cons]
      simp [Option.mem_def.mp isLast]
    have inText : text ≠ [] → c ∈ text := by
      intro nonempty
      rw [← endsBehind _ (List.getLast?_eq_some_getLast nonempty)]
      exact List.getLast_mem nonempty
    have reachedBehind : text = [] → Place.after d = .after c := by
      rintro rfl
      rw [ends d rfl]
    rw [Segments.append_prepend]
    exact skip (readSelector_append_eq_none missed stops unbegun inText) (ih endsBehind reachedBehind)
  | @select place sigil name text segments isSigil opens begins nonempty inName named stopsName behind ih =>
    have notEmpty : text ≠ [] := by
      rintro rfl
      have inLast := inName _ (List.getLast_mem nonempty)
      rw [ends (name.getLast nonempty) (by simp [List.getLast?_cons, List.getLast?_eq_some_getLast nonempty]), stops] at inLast
      exact absurd inLast (by decide)
    have endsBehind : ∀ e ∈ text.getLast?, e = c := by
      intro e isLast
      refine ends e ?_
      rw [← List.cons_append, List.getLast?_append_of_ne_nil _ notEmpty]
      exact isLast
    have sameHead : (text ++ more).head? = text.head? := List.head?_append_of_ne_nil _ notEmpty
    rw [Segments.append_push, List.cons_append, List.append_assoc]
    exact select isSigil opens ((beginsName_congr nonempty sameHead).trans begins) nonempty inName named
      (fun d isHead => stopsName d (sameHead ▸ isHead)) (ih endsBehind fun empty => absurd empty notEmpty)

/-- The cut of a stylesheet whose first part ends outside any name. -/
theorem selectors_cut_append {before more : Text}
    (closed : ∀ c ∈ before.getLast?, isNameChar c = false) (unbegun : beginsName more = false) :
    ∃ place, place.opensSelector = true
      ∧ selectors.cut (before ++ more) = (selectors.cut before).append (selectors.cutFrom place [] more) := by
  by_cases empty : before = []
  · subst empty
    refine ⟨.start, rfl, ?_⟩
    show selectors.cut more = Segments.append (selectors.cutFrom .start [] []) (selectors.cut more)
    rw [Matcher.cutFrom]
    exact (Segments.prepend_nil _).symm
  · have isLast := List.getLast?_eq_some_getLast empty
    have stops := closed _ isLast
    refine ⟨.after (before.getLast empty), by simp [Place.opensSelector, stops], ?_⟩
    refine ((cutAtSelectors_cutFrom .start before).append stops unbegun ?_ fun none => absurd none empty).cutFrom_eq
    intro d isLast'
    exact Option.some.inj (isLast'.symm.trans isLast)

/-! ### Names behind sigils -/

/-- **Whether a name behind a sigil is reported** depends on the name alone, if it ends where it seems to
and the sigil does not stand right behind another name. -/
theorem mem_locatedSelectors_iff {kind : Kind} {before name behind : Text}
    (closed : ∀ c ∈ before.getLast?, isNameChar c = false) (inName : ∀ c ∈ name, isNameChar c = true)
    (stops : ∀ c ∈ behind.head?, isNameChar c = false) :
    (kind, ⟨byteLength before + 1, byteLength before + 1 + byteLength name, name, none, none⟩)
        ∈ locatedSelectors (before ++ kind.sigil :: (name ++ behind))
      ↔ beginsName (name ++ behind) = true ∧ isSelectorName name = true := by
  have isSigil := isSome_kindOfSigil? kind
  constructor
  · intro reported
    obtain ⟨ahead, follows, captured, start⟩ := captures_of_mem_locatedSelectors reported
    obtain ⟨_, front, hit, ran, _, value, rest⟩ := Matcher.captures_cut captured
    have read : readSelector _ hit.text = some hit := ran
    obtain ⟨_, text, _, _, _, begins, named, rfl⟩ := readSelector_eq_some read
    -- The captured value stands where the name stands, so that the same text follows both.
    have whole : (before ++ [kind.sigil]) ++ (name ++ behind) = ahead ++ (name ++ follows) := by
      rw [← List.append_assoc ahead, ← captured.text_eq, Matcher.text_cut, List.append_assoc,
        List.singleton_append]
    have size : byteLength (before ++ [kind.sigil]) = byteLength ahead := by
      rw [byteLength_append_sigil]
      exact start
    obtain ⟨_, same⟩ := append_inj_of_byteLength whole size
    have text_eq : name ++ behind = text := by
      rw [same, rest, show name = text.takeWhile isNameChar from value]
      exact List.takeWhile_append_dropWhile
    rw [text_eq, show name = text.takeWhile isNameChar from value]
    exact ⟨begins, named⟩
  · rintro ⟨begins, named⟩
    obtain ⟨_, _, notStart, notHyphen, _⟩ := sigil_facts isSigil
    have unbegun : beginsName (kind.sigil :: (name ++ behind)) = false := by
      unfold beginsName
      split <;> simp_all
    obtain ⟨place, opens, cut⟩ := selectors_cut_append closed unbegun
    rw [Matcher.cutFrom_some (readSelector_append isSigil opens begins inName named stops)] at cut
    refine mem_locatedSelectors.mpr ⟨(selectors.cut before).found, ⟨(selectors.cut before).rest ++ [kind.sigil], name, none, none⟩, _,
      congrArg Segments.found cut, ?_⟩
    have size : byteLength (Segments.text ⟨(selectors.cut before).found, []⟩)
        + byteLength (selectors.cut before).rest = byteLength before := by
      rw [← byteLength_append, ← Segments.text_eq_append, Matcher.text_cut]
    have place : byteLength before + 1 = byteLength (Segments.text ⟨(selectors.cut before).found, []⟩)
        + byteLength ((selectors.cut before).rest ++ [kind.sigil]) := by
      rw [byteLength_append_sigil, ← Nat.add_assoc, size]
    rw [Segment.findingAt, ← place]
    simp [Segment.kind, kindOfSigil?_sigil]

end Relabel
