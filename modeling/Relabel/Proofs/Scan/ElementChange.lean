/-
**Style elements before and after a change.**

A style element that begins before the region ends before it, or its body reaches the region, or its
start tag does. In the last case the region does not end the start tag, and the element stays what it
is.

* `readStyle_cases`: what can be found at a place before a stopper.
* `ElementChange`: what is asked of a change.
* `ElementChange.stable`: cutting at the bodies of style elements commutes with the change.
-/

import Relabel.Proofs.Scan.Cut
import Relabel.Proofs.Scan.Reading
import Relabel.Scan.Element

namespace Relabel

variable {p t v v' x y : Text} {c : Char}

/-! ### Tags -/

/-- The name of a tag is read before a stopper or not at all. -/
theorem readTagName_append {opening : Text} (member : c ∈ p) (foreign : Foreign opening c) :
    readTagName opening (p ++ t) = (readTagName opening p).map fun (read, rest) => (read, rest ++ t) := by
  simp only [readTagName, readWord_append member foreign]
  cases word : readWord opening p with
  | none => rfl
  | some parts =>
    obtain ⟨read, rest⟩ := parts
    have behind := mem_of_readWord member foreign word
    obtain ⟨d, rest, rfl⟩ := List.exists_cons_of_ne_nil (List.ne_nil_of_mem behind)
    have sameEnd : atWordEnd (d :: rest ++ t) = atWordEnd (d :: rest) := rfl
    simp only [Option.map_some, Option.bind_eq_bind, Option.bind_some, sameEnd]
    split <;> rfl

theorem mem_of_readTagName {opening read rest : Text} (member : c ∈ p) (foreign : Foreign opening c)
    (found : readTagName opening p = some (read, rest)) : p = read ++ rest ∧ c ∈ rest := by
  simp only [readTagName, Option.bind_eq_bind, Option.bind_eq_some_iff] at found
  obtain ⟨⟨read', rest'⟩, word, last⟩ := found
  split at last
  · obtain ⟨rfl, rfl⟩ := Prod.mk.inj (Option.some.inj last)
    exact ⟨readWord_eq word, mem_of_readWord member foreign word⟩
  · simp at last

/-- The name of a tag that is read before a stopper is read whatever follows the stopper. -/
theorem readTagName_before {opening read behind : Text} (member : c ∈ read ++ behind)
    (foreign : Foreign opening c) (found : readTagName opening (read ++ behind ++ y) = some (read, behind ++ y))
    (y' : Text) : readTagName opening (read ++ behind ++ y') = some (read, behind ++ y') := by
  rw [readTagName_append member foreign] at found ⊢
  obtain ⟨⟨read', behind'⟩, inner, same⟩ := Option.map_eq_some_iff.mp found
  simp only [Prod.mk.injEq] at same
  obtain ⟨rfl, same⟩ := same
  obtain rfl : behind' = behind := List.append_cancel_right same
  rw [inner]
  rfl

/-- An end tag is read before a stopper or not at all. -/
theorem readStyleEnd_append (member : c ∈ p) (foreign : Foreign "</style" c)
    (solid : isBlank c = false) :
    readStyleEnd (p ++ t) = (readStyleEnd p).map fun (tail, rest) => (tail, rest ++ t) := by
  simp only [readStyleEnd, readWord_append member foreign]
  cases word : readWord "</style" p with
  | none => rfl
  | some parts =>
    obtain ⟨read, rest⟩ := parts
    have behind := mem_of_readWord member foreign word
    have inRest := mem_dropWhile_of_stop behind solid
    simp only [Option.map_some, Option.bind_eq_bind, Option.bind_some,
      dropWhile_append_of_stop behind solid, takeWhile_append_of_stop behind solid]
    cases split : rest.dropWhile isBlank with
    | nil => simp [split] at inRest
    | cons d kept =>
      by_cases closing : d = '>'
      · subst closing
        rfl
      · simp [closing]

/-- An end tag ends with its angle bracket. -/
theorem mem_of_readStyleEnd {text tail rest : Text} (found : readStyleEnd text = some (tail, rest)) :
    '>' ∈ tail := by
  simp only [readStyleEnd, Option.bind_eq_bind, Option.bind_eq_some_iff] at found
  obtain ⟨⟨read, behind⟩, _, last⟩ := found
  simp only at last
  split at last
  · obtain ⟨rfl, _⟩ := Prod.mk.inj (Option.some.inj last)
    simp
  · simp at last

/-! ### Bodies -/

/-- A body with more text in front. -/
def bodyBehind (begun : Text) (body : Option (Text × Text × Text)) : Option (Text × Text × Text) :=
  body.map fun (value, tail, rest) => (begun ++ value, tail, rest)

theorem readStyleBody_eq_bodyBehind (passed text : Text) :
    readStyleBody passed text = bodyBehind passed.reverse (readStyleBody [] text) := by
  induction text generalizing passed with
  | nil => rfl
  | cons d text ih =>
    unfold readStyleBody
    cases readStyleEnd (d :: text) with
    | some closing => simp [bodyBehind]
    | none =>
      simp only [ih (d :: passed), ih [d], bodyBehind, Option.map_map]
      congr 1
      funext body
      simp

/-- Where no end tag is read, a character joins the body. -/
theorem readStyleBody_cons (d : Char) (text : Text) :
    readStyleBody [] (d :: text) = match readStyleEnd (d :: text) with
      | some (tail, rest) => some ([], tail, rest)
      | none => bodyBehind [d] (readStyleBody [] text) := by
  rw [readStyleBody]
  cases readStyleEnd (d :: text) with
  | some closing => rfl
  | none => exact readStyleBody_eq_bodyBehind [d] text

/-- No end tag begins at a character of `body` if `y` follows it. -/
def NoEndTag (body y : Text) : Prop :=
  ∀ r, r ≠ [] → r <:+ body → readStyleEnd (r ++ y) = none

theorem noEndTag_nil (y : Text) : NoEndTag [] y :=
  fun _ nonempty suffix => absurd (List.suffix_nil.mp suffix) nonempty

theorem noEndTag_cons {d : Char} {body y : Text} :
    NoEndTag (d :: body) y ↔ readStyleEnd (d :: (body ++ y)) = none ∧ NoEndTag body y :=
  forall_suffix_cons fun text => readStyleEnd text = none

/-- A body is empty where an end tag is read. -/
theorem NoEndTag.eq_nil {body y : Text} (noEnd : NoEndTag body y)
    (ended : readStyleEnd (body ++ y) ≠ none) : body = [] := by
  by_contra nonempty
  exact ended (noEnd body nonempty (List.suffix_refl body))

/-- What the parts of a body are: it goes on to the first end tag. -/
theorem readStyleBody_eq_some_iff {text value tail rest : Text} :
    readStyleBody [] text = some (value, tail, rest)
      ↔ ∃ y, text = value ++ y ∧ readStyleEnd y = some (tail, rest) ∧ NoEndTag value y := by
  induction text generalizing value with
  | nil =>
    simp only [readStyleBody, reduceCtorEq, false_iff, not_exists, not_and]
    intro y parts ended
    obtain ⟨_, rfl⟩ := List.append_eq_nil_iff.mp parts.symm
    simp [readStyleEnd, readWord] at ended
  | cons d text ih =>
    rw [readStyleBody_cons]
    cases closed : readStyleEnd (d :: text) with
    | some closing =>
      obtain ⟨tail', rest'⟩ := closing
      simp only [Option.some.injEq, Prod.mk.injEq]
      constructor
      · rintro ⟨rfl, rfl, rfl⟩
        exact ⟨d :: text, rfl, closed, noEndTag_nil _⟩
      · rintro ⟨y, parts, ended, noEnd⟩
        obtain rfl := noEnd.eq_nil (by simp [← parts, closed])
        rw [← List.nil_append y, ← parts, closed] at ended
        obtain ⟨rfl, rfl⟩ := Prod.mk.inj (Option.some.inj ended)
        exact ⟨rfl, rfl, rfl⟩
    | none =>
      simp only [bodyBehind, Option.map_eq_some_iff]
      constructor
      · rintro ⟨⟨value', tail', rest'⟩, inner, same⟩
        obtain ⟨rfl, rfl, rfl⟩ : [d] ++ value' = value ∧ tail' = tail ∧ rest' = rest := by
          simpa using same
        obtain ⟨y, rfl, ended, noEnd⟩ := ih.mp inner
        exact ⟨y, rfl, ended, noEndTag_cons.mpr ⟨closed, noEnd⟩⟩
      · rintro ⟨y, parts, ended, noEnd⟩
        cases value with
        | nil =>
          rw [List.nil_append] at parts
          simp [← parts, closed] at ended
        | cons first value =>
          obtain ⟨rfl, rfl⟩ := List.cons.inj parts
          obtain ⟨_, deeper⟩ := noEndTag_cons.mp noEnd
          exact ⟨(value, tail, rest), ih.mpr ⟨y, rfl, ended, deeper⟩, rfl⟩

/-- Whether there is an end tag depends on the places in the text alone. -/
theorem readStyleBody_ne_none_iff {text : Text} :
    readStyleBody [] text ≠ none ↔ ∃ r, r <:+ text ∧ readStyleEnd r ≠ none := by
  constructor
  · intro found
    obtain ⟨⟨value, tail, rest⟩, found⟩ := Option.ne_none_iff_exists'.mp found
    obtain ⟨y, rfl, ended, _⟩ := readStyleBody_eq_some_iff.mp found
    exact ⟨y, List.suffix_append value y, by simp [ended]⟩
  · rintro ⟨r, ⟨front, rfl⟩, ended⟩
    induction front with
    | nil =>
      rcases r with _ | ⟨d, r⟩
      · simp [readStyleEnd, readWord] at ended
      · rw [List.nil_append, readStyleBody_cons]
        cases closed : readStyleEnd (d :: r) with
        | some closing => simp
        | none => exact absurd closed ended
    | cons d front ih =>
      rw [List.cons_append, readStyleBody_cons]
      cases readStyleEnd (d :: (front ++ r)) with
      | some closing => simp
      | none => simpa [bodyBehind] using ih

/-- The body of an element ends before whatever follows, or goes on. -/
theorem readStyleBody_cases (ends : p = [] ∨ ∃ front, p = front ++ [c])
    (foreign : Foreign "</style" c) (solid : isBlank c = false) :
    (∃ value tail kept, tail ≠ []
        ∧ ∀ t, readStyleBody [] (p ++ t) = some (value, tail, kept ++ t))
      ∨ ∀ t, readStyleBody [] (p ++ t) = bodyBehind p (readStyleBody [] t) := by
  induction p with
  | nil => exact Or.inr fun t => by cases h : readStyleBody [] t <;> simp [bodyBehind, h]
  | cons d p ih =>
    obtain ⟨front, last⟩ := ends.resolve_left (by simp)
    have member : c ∈ d :: p := by simp [last]
    have step : ∀ t, readStyleBody [] (d :: p ++ t)
        = match (readStyleEnd (d :: p)).map fun (tail, rest) => (tail, rest ++ t) with
          | some (tail, rest) => some ([], tail, rest)
          | none => bodyBehind [d] (readStyleBody [] (p ++ t)) := by
      intro t
      rw [List.cons_append, readStyleBody_cons, ← List.cons_append,
        readStyleEnd_append member foreign solid]
      rfl
    cases closed : readStyleEnd (d :: p) with
    | some closing =>
      obtain ⟨tail, kept⟩ := closing
      refine Or.inl ⟨[], tail, kept, List.ne_nil_of_mem (mem_of_readStyleEnd closed), fun t => ?_⟩
      rw [step, closed]
      rfl
    | none =>
      have endsBehind : p = [] ∨ ∃ front, p = front ++ [c] := by
        by_cases empty : p = []
        · exact Or.inl empty
        · exact Or.inr (ends_of_append (a := [d]) last.symm empty)
      rcases ih endsBehind with ⟨value, tail, kept, nonempty, finds⟩ | goesOn
      · refine Or.inl ⟨d :: value, tail, kept, nonempty, fun t => ?_⟩
        rw [step, closed]
        simp [finds, bodyBehind]
      · refine Or.inr fun t => ?_
        rw [step, closed]
        simp only [Option.map_none, goesOn, bodyBehind, Option.map_map]
        congr 1

/-! ### Whole elements -/

/-- The match of an element whose start tag is `lead` and of whose body `begun` has been read. -/
def bodyOf (lead begun text : Text) : Option Hit :=
  (readStyleBody [] text).map fun (value, tail, rest) =>
    { lead, value := begun ++ value, tail, rest }

/-- The match of an element of whose start tag `opening` has been read. -/
def tagOf (opening text : Text) : Option Hit :=
  match text.dropWhile (· != '>') with
  | '>' :: body => bodyOf (opening ++ text.takeWhile (· != '>') ++ ['>']) [] body
  | _ => none

theorem readStyle_of_tagName {opening rest : Text}
    (found : readTagName "<style" p = some (opening, rest)) : readStyle p = tagOf opening rest := by
  simp only [readStyle, found, Option.bind_eq_bind, Option.bind_some, tagOf]
  cases rest.dropWhile (· != '>') with
  | nil => rfl
  | cons d body =>
    by_cases ended : d = '>'
    · subst ended
      cases body : readStyleBody [] body <;> simp [bodyOf, body]
    · simp [ended]

/-- Text without the end of a start tag belongs to it. -/
theorem tagOf_append {opening begun text : Text} (inTag : '>' ∉ begun) :
    tagOf opening (begun ++ text) = tagOf (opening ++ begun) text := by
  have passes : ∀ d ∈ begun, (d != '>') = true := by
    intro d member
    have different : d ≠ '>' := fun same => inTag (same ▸ member)
    simpa using different
  simp only [tagOf, List.dropWhile_append_of_pos passes, List.takeWhile_append_of_pos passes,
    List.append_assoc]

theorem tagOf_cons (opening text : Text) :
    tagOf opening ('>' :: text) = bodyOf (opening ++ ['>']) [] text := by
  simp [tagOf]

/-- An element whose body has begun ends before whatever follows, or its body goes on. -/
theorem settled_or_goesOn {lead begun : Text} (ends : begun = [] ∨ ∃ front, begun = front ++ [c])
    (foreign : Foreign "</style" c) (solid : isBlank c = false)
    (reads : ∀ t, readStyle (p ++ t) = bodyOf lead [] (begun ++ t)) :
    Settled readStyle p ∨ ∀ t, readStyle (p ++ t) = bodyOf lead begun t := by
  rcases readStyleBody_cases ends foreign solid with ⟨value, tail, kept, nonempty, finds⟩ | goesOn
  · refine Or.inl (Or.inr ⟨⟨lead, value, tail, [], none, none⟩, kept, nonempty, fun t => ?_⟩)
    rw [reads]
    simp [bodyOf, finds]
  · refine Or.inr fun t => ?_
    rw [reads]
    simp only [bodyOf, goesOn, bodyBehind, Option.map_map]
    congr 1

/-- What can be found where a stopper is ahead: nothing or an element that ends before whatever follows;
or one whose body goes on; or one whose start tag does. -/
theorem readStyle_cases {front : Text} (ends : p = front ++ [c]) (foreign : Foreign "<style" c)
    (foreign' : Foreign "</style" c) (solid : isBlank c = false) :
    Settled readStyle p
      ∨ (∃ lead begun, p = lead ++ begun ∧ lead.getLast? = some '>'
          ∧ ∀ t, readStyle (p ++ t) = bodyOf lead begun t)
      ∨ (c ≠ '>' ∧ ∀ t, readStyle (p ++ t) = tagOf p t) := by
  have member : c ∈ p := by simp [ends]
  cases tag : readTagName "<style" p with
  | none =>
    refine Or.inl (Or.inl fun t => ?_)
    rw [readStyle, readTagName_append member foreign, tag]
    rfl
  | some parts =>
    obtain ⟨opening, rest⟩ := parts
    obtain ⟨rfl, behind⟩ := mem_of_readTagName member foreign tag
    have reads : ∀ t, readStyle (opening ++ rest ++ t) = tagOf opening (rest ++ t) := by
      intro t
      refine readStyle_of_tagName ?_
      rw [readTagName_append member foreign, tag]
      rfl
    by_cases ended : '>' ∈ rest
    · obtain ⟨inTag, begun, rfl, notIn⟩ := List.eq_append_cons_of_mem ended
      have bodies : ∀ t, readStyle (opening ++ (inTag ++ '>' :: begun) ++ t)
          = bodyOf (opening ++ inTag ++ ['>']) [] (begun ++ t) := by
        intro t
        rw [reads, List.append_assoc, tagOf_append notIn, List.cons_append, tagOf_cons]
      have endsBehind : begun = [] ∨ ∃ front, begun = front ++ [c] := by
        by_cases empty : begun = []
        · exact Or.inl empty
        · have lasts : front ++ [c] = opening ++ inTag ++ ['>'] ++ begun := by
            rw [← ends]
            simp
          exact Or.inr (ends_of_append lasts empty)
      refine (settled_or_goesOn endsBehind foreign' solid bodies).imp id fun goesOn => ?_
      exact Or.inl ⟨opening ++ inTag ++ ['>'], begun, by simp, by simp, goesOn⟩
    · have different : c ≠ '>' := fun same => ended (same ▸ behind)
      refine Or.inr (Or.inr ⟨different, fun t => ?_⟩)
      rw [reads, tagOf_append ended]

/-! ### Changes -/

/-- What is asked of a change of `x ++ v ++ y` to `x ++ v' ++ y` for cutting at the bodies of style
elements. The text before the region ends with the stopper `c`. -/
structure ElementChange (exact : Prop) (c : Char) (x v v' y : Text) : Prop where
  last : ∃ front, x = front ++ [c]
  solid : isBlank c = false
  foreign : Foreign "<style" c
  foreign' : Foreign "</style" c
  /-- The change adds no end tag. -/
  ended : readStyleBody [] (v' ++ y) ≠ none → readStyleBody [] (v ++ y) ≠ none
  /-- If the region may be a body, then it is one before and after the change. -/
  body : c = '>' → ∃ tail rest, readStyleBody [] (v ++ y) = some (v, tail, rest)
    ∧ readStyleBody [] (v' ++ y) = some (v', tail, rest)
  /-- If the region may be part of a start tag, then it does not end it. -/
  inTag : c ≠ '>' → '>' ∉ v ∧ '>' ∉ v'
  short : ¬ exact → ∀ r hit, r ≠ [] → r <:+ v → readStyle (r ++ y) = some hit →
    hit.lead.length ≤ r.length
  idle : ¬ exact → styleBodies.Idle v y → styleBodies.Idle v' y

theorem bodyOf_eq_some {lead begun : Text} {hit : Hit} (found : bodyOf lead begun t = some hit) :
    hit.lead = lead ∧ ∃ more, hit.value = begun ++ more := by
  obtain ⟨⟨value, tail, rest⟩, _, rfl⟩ := Option.map_eq_some_iff.mp found
  exact ⟨rfl, value, rfl⟩

/-- Without the first character of a tag in the region, no element begins in it. -/
theorem readStyle_region {r : Text} (noTag : '<' ∉ r) (nonempty : r ≠ []) :
    readStyle (r ++ y) = none := by
  obtain ⟨d, r, rfl⟩ := List.exists_cons_of_ne_nil nonempty
  by_contra found
  obtain ⟨hit, found⟩ := Option.ne_none_iff_exists'.mp found
  simp only [readStyle, Option.bind_eq_bind, Option.bind_eq_some_iff] at found
  obtain ⟨⟨opening, rest⟩, tag, _⟩ := found
  simp only [readTagName, Option.bind_eq_bind, Option.bind_eq_some_iff] at tag
  obtain ⟨⟨opening', rest'⟩, word, _⟩ := tag
  obtain ⟨parts, spells⟩ := readWord_eq_some_iff.mp word
  have spelt : Spells ('<' :: "style".toList) opening' := spells
  obtain ⟨letter, behind, rfl, same, _⟩ := spelt.first
  obtain ⟨rfl, _⟩ := List.cons.inj parts
  obtain rfl : d = '<' := eq_of_sameLetter (by decide) same
  exact noTag List.mem_cons_self

namespace ElementChange

variable {exact : Prop}

/-- A start tag that goes on behind the region. -/
theorem tagOf_tracks (notInOld : '>' ∉ v) (notInNew : '>' ∉ v') (p y : Text) :
    Tracks p v v' y (tagOf p (v ++ y)) (tagOf p (v' ++ y)) := by
  rw [tagOf_append notInOld, tagOf_append notInNew]
  unfold tagOf
  split
  next body split =>
    cases closed : readStyleBody [] body with
    | none => simpa [bodyOf, closed] using Tracks.missed
    | some parts =>
      simpa [bodyOf, closed] using
        Tracks.within ⟨[], parts.1, parts.2.1, parts.2.2, none, none⟩
          (y.takeWhile (· != '>') ++ ['>']) (by simp)
  next => exact Tracks.missed

/-- A style element before the region. -/
theorem tracks (change : ElementChange exact c x v v' y) (nonempty : p ≠ []) (suffix : p <:+ x)
    (respects : ∀ hit, readStyle (p ++ v ++ y) = some hit → hit.Respects p v) :
    Tracks p v v' y (readStyle (p ++ v ++ y)) (readStyle (p ++ v' ++ y)) := by
  obtain ⟨front, ends⟩ := ends_of_suffix change.last nonempty suffix
  rcases readStyle_cases ends change.foreign change.foreign' change.solid with settled |
    ⟨lead, begun, rfl, closing, finds⟩ | ⟨different, finds⟩
  · exact settled.tracks v v' y
  · rw [List.append_assoc, finds] at respects
    rw [List.append_assoc _ v, List.append_assoc _ v', finds, finds]
    by_cases empty : begun = []
    · subst empty
      rw [List.append_nil] at ends ⊢
      obtain rfl : c = '>' := by simpa [ends] using closing
      obtain ⟨tail, rest, old, new⟩ := change.body rfl
      simp only [bodyOf, old, new, Option.map_some, List.nil_append]
      exact Tracks.filled ⟨lead, v, tail, rest, none, none⟩
    · refine Tracks.begun empty (fun hit found => bodyOf_eq_some found) respects fun found => ?_
      simp only [bodyOf, Ne, Option.map_eq_none_iff] at found ⊢
      exact change.ended found
  · obtain ⟨notInOld, notInNew⟩ := change.inTag different
    rw [List.append_assoc, List.append_assoc, finds, finds]
    exact tagOf_tracks notInOld notInNew p y

/-- **Cutting at the bodies of style elements commutes with the change.** -/
theorem stable (change : ElementChange exact c x v v' y) (good : Text → Prop) :
    styleBodies.Stable exact good x v v' y where
  placeless _ _ _ _ _ := rfl
  tracks _ _ nonempty suffix respects := change.tracks nonempty suffix fun hit found =>
    (respects hit found).1
  short notExact _ r hit _ nonempty suffix found :=
    change.short notExact r hit nonempty suffix found
  idle := change.idle

end ElementChange

end Relabel
