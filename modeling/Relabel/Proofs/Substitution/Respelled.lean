/-
**References around relabelled stylesheets.**

A text is *respelled* if behind some of its sigils one name has taken the place of another. Names are
read as a whole wherever a reference of the form `url(#name)` is read: they may be part of the name that
is referred to, but of nothing else. So no reference begins or ends in a respelled text unless one did
before.

* `Respelled`: the relation.
* `Respelled.readUrl`: a reference in a respelled text was there before.
* `respelled_relabelStylesheet`: relabelling respells a stylesheet.
* `urlRefill_relabelStylesheet`: the bodies of style elements may be relabelled.
-/

import Relabel.Proofs.Markup.Refill
import Relabel.Proofs.Substitution.Stylesheet

namespace Relabel

/-! ### References -/

/-- When a reference is read. -/
theorem readUrl_ne_none_iff {text : Text} :
    readUrl text ≠ none ↔ ∃ word opened behind, readWord "url(" text = some (word, opened)
      ∧ (readOptionalQuote (opened.dropWhile isBlank)).2 = '#' :: behind
      ∧ behind.takeWhile isUrlNameChar ≠ [] ∧ readUrlEnd (behind.dropWhile isUrlNameChar) ≠ none := by
  constructor
  · intro found
    obtain ⟨hit, found⟩ := Option.ne_none_iff_exists'.mp found
    simp only [readUrl, readUrlStart, Option.bind_eq_bind, Option.bind_eq_some_iff] at found
    obtain ⟨⟨lead, behind⟩, ⟨⟨word, opened⟩, first, second⟩, third⟩ := found
    simp only at second third
    split at second
    next split =>
      obtain ⟨_, rfl⟩ := Prod.mk.inj (Option.some.inj second)
      split at third
      · simp at third
      next named =>
        obtain ⟨closing, closes, _⟩ := Option.bind_eq_some_iff.mp third
        exact ⟨word, opened, _, first, split, named, by simp [closes]⟩
    next => simp at second
  · rintro ⟨word, opened, behind, first, split, named, closes⟩
    obtain ⟨closing, closes⟩ := Option.ne_none_iff_exists'.mp closes
    have starts : ∃ lead, readUrlStart text = some (lead, behind) := by
      simp only [readUrlStart, first, Option.bind_eq_bind, Option.bind_some, split]
      exact ⟨_, rfl⟩
    obtain ⟨lead, starts⟩ := starts
    simp only [readUrl, starts, Option.bind_eq_bind, Option.bind_some, if_neg named, closes]
    simp

/-- A letter, up to case, belongs to names. -/
theorem isNameChar_of_sameLetter {small c : Char} (letter : small.isLower = true)
    (same : sameLetter small c = true) : isNameChar c = true := by
  simp only [sameLetter, Bool.or_eq_true, Bool.and_eq_true, beq_iff_eq] at same
  rcases same with (lower | ⟨_, rfl⟩) | ⟨_, rfl⟩
  · unfold Char.toLower at lower
    split at lower
    next upper =>
      have alpha : c.isAlpha = true := isAlpha_iff.mpr (Or.inl upper)
      simp [isNameChar, isIdentifierChar, Char.isAlphanum, alpha]
    next =>
      subst lower
      have alpha : c.isAlpha = true := isAlpha_iff.mpr (Or.inr (isLower_iff.mp letter))
      simp [isNameChar, isIdentifierChar, Char.isAlphanum, alpha]
  · decide
  · decide

/-! ### Respelling -/

/-- A name for a stylesheet that cannot be the beginning of `url(`. -/
structure Discreet (name : Text) : Prop where
  isName : IsName name
  last : ∀ c ∈ name.getLast?, sameLetter 'l' c = false

/-- The second text is the first with names replaced by discreet ones, each of them between a sigil and
a character that does not belong to a name. -/
inductive Respelled : Text → Text → Prop where
  | same (text : Text) : Respelled text text
  | keep (c : Char) {t t' : Text} (behind : Respelled t t') : Respelled (c :: t) (c :: t')
  | swap {sigil : Char} {old new t t' : Text} (isSigil : (kindOfSigil? sigil).isSome = true)
      (nonempty : old ≠ []) (inName : ∀ c ∈ old, isUrlNameChar c = true) (discreet : Discreet new)
      (stops : ∀ c ∈ t.head?, isNameChar c = false) (behind : Respelled t t') :
      Respelled (sigil :: (old ++ t)) (sigil :: (new ++ t'))

theorem isUrlNameChar_of_sigil {c : Char} (isSigil : (kindOfSigil? c).isSome = true) :
    isUrlNameChar c = true := by
  rcases eq_of_kindOfSigil? isSigil with rfl | rfl <;> decide

theorem Discreet.isUrlNameChar {name : Text} (discreet : Discreet name) :
    ∀ c ∈ name, isUrlNameChar c = true :=
  fun c member => (identifier_facts (discreet.isName.2 c member)).2.2.1

/-- A character that is part of no name occurs in no word of letters. -/
theorem foreign_of_not_isNameChar {word : Text} {c : Char} (letters : ∀ small ∈ word, small.isLower = true)
    (stops : isNameChar c = false) : Foreign word c := by
  intro small member
  by_contra same
  rw [isNameChar_of_sameLetter (letters small member) (by simpa using same)] at stops
  exact absurd stops (by decide)

/-- **If a name ends behind the letters of `url(` have begun**, and not with their last one, then it goes
on behind the parenthesis. -/
theorem exists_behind_paren {letters more inside r : Text} {c : Char} (spells : Spells "url" letters)
    (notLast : sameLetter 'l' c = false) (stops : ∀ d ∈ r.head?, isNameChar d = false)
    (same : inside ++ [c] ++ r = letters ++ '(' :: more) :
    ∃ further, inside ++ [c] = letters ++ '(' :: further ∧ more = further ++ r := by
  obtain ⟨front, l, last, isL, _⟩ := (show Spells ("ur".toList ++ ['l']) letters from spells).last
  have notWhole : inside ++ [c] ≠ letters := by
    rintro whole
    obtain rfl := (List.append_singleton_inj.mp (whole.trans last)).2
    exact absurd (isL.symm.trans notLast) (by decide)
  rcases List.append_eq_append_iff.mp same with ⟨_ | ⟨d, between⟩, whole, split⟩ |
    ⟨_ | ⟨d, further⟩, whole, split⟩
  · exact absurd (by simpa using whole.symm) notWhole
  · -- The character behind the name would be one of the letters.
    have stopped := stops d (by simp [split])
    have notLetter := spells.not_mem (foreign_of_not_isNameChar (by decide) stopped)
    exact absurd (by simp [whole]) notLetter
  · exact absurd (by simpa using whole) notWhole
  · obtain ⟨rfl, rfl⟩ := List.cons.inj split
    exact ⟨further, whole, rfl⟩

/-- No reference begins within a discreet name behind which no name goes on. -/
theorem readUrl_discreet {front name t : Text} (discreet : Discreet (front ++ name)) (nonempty : name ≠ [])
    (stops : ∀ c ∈ t.head?, isNameChar c = false) : readUrl (name ++ t) = none := by
  by_contra found
  obtain ⟨word, opened, _, first, _⟩ := readUrl_ne_none_iff.mp found
  obtain ⟨parts, spells⟩ := readWord_eq_some_iff.mp first
  obtain ⟨letters, paren, rfl, isParen, spelt⟩ :=
    (show Spells ("url".toList ++ ['(']) word from spells).last
  obtain rfl : paren = '(' := eq_of_sameLetter (by decide) isParen
  obtain ⟨inside, c, rfl⟩ := (List.eq_nil_or_concat' name).resolve_left nonempty
  have notLast := discreet.last c (by simp)
  obtain ⟨further, whole, _⟩ := exists_behind_paren spelt notLast stops
    (by simpa using parts : inside ++ [c] ++ t = letters ++ '(' :: opened)
  have inName : '(' ∈ front ++ (inside ++ [c]) := by simp [whole]
  exact absurd (discreet.isName.2 '(' inName) (by decide)

/-- No reference begins at a sigil. -/
theorem readUrl_sigil {sigil : Char} {text : Text} (isSigil : (kindOfSigil? sigil).isSome = true) :
    readUrl (sigil :: text) = none := by
  have noLetter : sameLetter 'u' sigil = false := by
    rcases eq_of_kindOfSigil? isSigil with rfl | rfl <;> decide
  by_contra found
  obtain ⟨_, _, _, first, _⟩ := readUrl_ne_none_iff.mp found
  obtain ⟨parts, spells⟩ := readWord_eq_some_iff.mp first
  have spelt : Spells ('u' :: "rl(".toList) _ := spells
  obtain ⟨u, _, rfl, isU, _⟩ := spelt.first
  obtain rfl := (List.cons.inj parts).1
  simp [noLetter] at isU

namespace Respelled

variable {t t' y : Text}

/-- The first character is kept. -/
theorem head (respelled : Respelled t t') : t'.head? = t.head? := by
  cases respelled <;> rfl

/-- Text in front that is kept. -/
theorem append_left (front : Text) (respelled : Respelled t t') :
    Respelled (front ++ t) (front ++ t') := by
  induction front with
  | nil => exact respelled
  | cons c front ih => exact keep c ih

/-- Text behind that is kept and does not begin like a name. -/
theorem append_right (respelled : Respelled t t') (stops : ∀ c ∈ y.head?, isNameChar c = false) :
    Respelled (t ++ y) (t' ++ y) := by
  induction respelled with
  | same text => exact same _
  | keep c behind ih => exact keep c ih
  | @swap sigil old new t t' isSigil nonempty inName discreet stopsHere behind ih =>
    rw [List.cons_append, List.append_assoc, List.cons_append, List.append_assoc]
    refine swap isSigil nonempty inName discreet (fun c isHead => ?_) ih
    rcases t with _ | ⟨d, t⟩
    · exact stops c isHead
    · exact stopsHere c isHead

/-! ### Reading respelled texts -/

/-- White space is kept. -/
theorem dropWhile_isBlank (respelled : Respelled t t') :
    Respelled (t.dropWhile isBlank) (t'.dropWhile isBlank) := by
  induction respelled with
  | same text => exact same _
  | keep c behind ih =>
    by_cases blank : isBlank c = true
    · simpa [blank] using ih
    · simpa [blank] using keep c behind
  | swap isSigil nonempty inName discreet stops behind ih =>
    simpa [(sigil_facts isSigil).1] using swap isSigil nonempty inName discreet stops behind

/-- Names that are replaced are part of names that are referred to. -/
theorem dropWhile_isUrlNameChar (respelled : Respelled t t') :
    Respelled (t.dropWhile isUrlNameChar) (t'.dropWhile isUrlNameChar) := by
  induction respelled with
  | same text => exact same _
  | keep c behind ih =>
    by_cases nameChar : isUrlNameChar c = true
    · simpa [nameChar] using ih
    · simpa [nameChar] using keep c behind
  | swap isSigil nonempty inName discreet stops behind ih =>
    rw [List.dropWhile_cons_of_pos (isUrlNameChar_of_sigil isSigil),
      List.dropWhile_cons_of_pos (isUrlNameChar_of_sigil isSigil),
      List.dropWhile_append_of_pos inName, List.dropWhile_append_of_pos discreet.isUrlNameChar]
    exact ih

theorem readOptionalQuote (respelled : Respelled t t') :
    Respelled (Relabel.readOptionalQuote t).2 (Relabel.readOptionalQuote t').2 := by
  cases respelled with
  | same text => exact same _
  | keep c behind =>
    by_cases quoted : isQuote c = true
    · simpa [Relabel.readOptionalQuote, quoted] using behind
    · simpa [Relabel.readOptionalQuote, quoted] using keep c behind
  | @swap sigil _ _ _ _ isSigil nonempty inName discreet stops behind =>
    have notQuote : isQuote sigil = false := by
      rcases eq_of_kindOfSigil? isSigil with rfl | rfl <;> decide
    simpa [Relabel.readOptionalQuote, notQuote] using
      swap isSigil nonempty inName discreet stops behind

/-- A word in a respelled text was there before. -/
theorem readWord {word read rest' : Text} (respelled : Respelled t t')
    (foreign : ∀ sigil, (kindOfSigil? sigil).isSome = true → Foreign word sigil)
    (found : Relabel.readWord word t' = some (read, rest')) :
    ∃ rest, Relabel.readWord word t = some (read, rest) ∧ Respelled rest rest' := by
  induction word generalizing t t' read with
  | nil =>
    obtain ⟨rfl, rfl⟩ := Prod.mk.inj (Option.some.inj found)
    exact ⟨t, rfl, respelled⟩
  | cons small word ih =>
    cases respelled with
    | same text => exact ⟨rest', found, same _⟩
    | keep c behind =>
      rw [Relabel.readWord] at found
      split at found
      next letter =>
        obtain ⟨⟨read', rest⟩, inner, parts⟩ := Option.map_eq_some_iff.mp found
        obtain ⟨rfl, rfl⟩ := Prod.mk.inj parts
        have later : ∀ sigil, (kindOfSigil? sigil).isSome = true → Foreign word sigil :=
          fun sigil isSigil d member => foreign sigil isSigil d (List.mem_cons_of_mem _ member)
        obtain ⟨before, read, related⟩ := ih behind later inner
        exact ⟨before, by rw [Relabel.readWord, if_pos letter, read]; rfl, related⟩
      next => simp at found
    | @swap sigil _ _ _ _ isSigil nonempty inName discreet stops behind =>
      have noLetter : sameLetter small sigil = false := foreign sigil isSigil small List.mem_cons_self
      simp [Relabel.readWord, noLetter] at found

/-- The end of a reference in a respelled text was there before. -/
theorem readUrlEnd (respelled : Respelled t t') (found : Relabel.readUrlEnd t' ≠ none) :
    Relabel.readUrlEnd t ≠ none := by
  have heads := respelled.readOptionalQuote.dropWhile_isBlank.head
  simp only [Relabel.readUrlEnd] at found ⊢
  split at found
  next rest split =>
    rw [split, List.head?_cons] at heads
    obtain ⟨rest, split⟩ := List.head?_eq_some_iff.mp heads.symm
    simp [split]
  next => exact absurd rfl found

/-- A name that is referred to was there before. -/
theorem readUrlName (respelled : Respelled t t')
    (named : t'.takeWhile isUrlNameChar ≠ []) : t.takeWhile isUrlNameChar ≠ [] := by
  have heads := respelled.head
  rcases t' with _ | ⟨c, t'⟩
  · simp at named
  · obtain ⟨t, rfl⟩ := List.head?_eq_some_iff.mp heads.symm
    by_cases nameChar : isUrlNameChar c = true <;> simp_all

/-- A reference in a respelled text was there before. -/
theorem readUrl (respelled : Respelled t t') (found : Relabel.readUrl t' ≠ none) :
    Relabel.readUrl t ≠ none := by
  have letters : ∀ sigil, (kindOfSigil? sigil).isSome = true → Foreign "url(" sigil := by
    intro sigil isSigil
    rcases eq_of_kindOfSigil? isSigil with rfl | rfl <;> decide
  obtain ⟨word, opened', behind', first, split, nonempty, closes⟩ := readUrl_ne_none_iff.mp found
  obtain ⟨opened, read, related⟩ := respelled.readWord letters first
  have quoted := related.dropWhile_isBlank.readOptionalQuote
  rw [split] at quoted
  -- The number sign may be the sigil of a name that is replaced.
  obtain ⟨behind, split', name, rests⟩ : ∃ behind,
      (Relabel.readOptionalQuote (opened.dropWhile isBlank)).2 = '#' :: behind
        ∧ behind.takeWhile isUrlNameChar ≠ []
        ∧ Respelled (behind.dropWhile isUrlNameChar) (behind'.dropWhile isUrlNameChar) := by
    generalize (Relabel.readOptionalQuote (opened.dropWhile isBlank)).2 = sharp at quoted
    cases quoted with
    | same => exact ⟨behind', rfl, nonempty, same _⟩
    | keep _ inner => exact ⟨_, rfl, inner.readUrlName nonempty, inner.dropWhile_isUrlNameChar⟩
    | @swap _ old new t t' isSigil oldNonempty inName discreet stops inner =>
      refine ⟨old ++ t, rfl, ?_, ?_⟩
      · rw [List.takeWhile_append_of_pos inName]
        exact List.append_ne_nil_of_left_ne_nil oldNonempty _
      · rw [List.dropWhile_append_of_pos inName, List.dropWhile_append_of_pos discreet.isUrlNameChar]
        exact inner.dropWhile_isUrlNameChar
  exact readUrl_ne_none_iff.mpr ⟨word, opened, behind, read, split', name, rests.readUrlEnd closes⟩

/-- No reference begins in a respelled text unless one began there before. The induction is on the
respelling. -/
theorem idle (respelled : Respelled t t') (stops : ∀ c ∈ y.head?, isNameChar c = false)
    (idle : urlReferences.Idle t y) : urlReferences.Idle t' y := by
  have noneBefore : ∀ r, r ≠ [] → r <:+ t → Relabel.readUrl (r ++ y) = none :=
    fun r nonempty suffix => idle .joined r (by simp) nonempty suffix
  suffices noneNow : ∀ r, r ≠ [] → r <:+ t' → Relabel.readUrl (r ++ y) = none from
    fun _ r _ nonempty suffix => noneNow r nonempty suffix
  clear idle
  have split := @forall_suffix_append fun text => Relabel.readUrl text = none
  induction respelled with
  | same text => exact noneBefore
  | @keep c t t' behind ih =>
    have parts : ∀ text : Text, c :: text = [c] ++ text := fun _ => rfl
    rw [parts] at noneBefore
    rw [parts]
    obtain ⟨here, later⟩ := split.mp noneBefore
    refine split.mpr ⟨fun r nonempty suffix => ?_, ih later⟩
    by_contra found
    exact ((behind.append_right stops).append_left r).readUrl found (here r nonempty suffix)
  | @swap sigil old new t t' isSigil oldNonempty inName discreet stopsHere behind ih =>
    have stopsNow : ∀ c ∈ (t' ++ y).head?, isNameChar c = false := by
      rw [(behind.append_right stops).head]
      rcases t with _ | ⟨d, t⟩
      · exact stops
      · exact stopsHere
    rw [← List.cons_append] at noneBefore
    rw [← List.cons_append]
    obtain ⟨_, later⟩ := split.mp noneBefore
    refine split.mpr ⟨fun r nonempty suffix => ?_, ih later⟩
    rcases List.suffix_cons_iff.mp suffix with rfl | ⟨front, rfl⟩
    · exact readUrl_sigil isSigil
    · exact readUrl_discreet discreet nonempty stopsNow

end Respelled

/-! ### Stylesheets -/

/-- A character of a name is part of names that are referred to, white space aside. -/
theorem isUrlNameChar_of_isNameChar {c : Char} (nameChar : isNameChar c = true)
    (solid : isBlank c = false) : isUrlNameChar c = true := by
  have others : ∀ d ∈ ['"', '\'', '(', ')'], c ≠ d := by
    rintro d member rfl
    have listed : ∀ d ∈ ['"', '\'', '(', ')'], isNameChar d = false := by decide
    simp [listed c member] at nameChar
  simp only [List.forall_mem_cons, List.not_mem_nil, false_implies, implies_true, and_true] at others
  simp [isUrlNameChar, isQuote, solid, others]

/-- **Replacing the names of selectors respells a text.** -/
theorem CutAtSelectors.respelled {place : Place} {text : Text} {segments : Segments}
    {replace : Segment → Option Text} (cut : CutAtSelectors place text segments)
    (careless : Careless replace)
    (quiet : ∀ segment name, replace segment = some name →
      (∀ c ∈ segment.value, isBlank c = false) ∧ Discreet name) :
    Respelled text (segments.replaced replace).text := by
  induction cut with
  | done place => exact Respelled.same []
  | @skip place c text segments missed behind ih =>
    rw [Segments.replaced_prepend careless behind.gap_ne_nil, Segments.text_prepend]
    exact Respelled.keep c ih
  | @select place sigil name text segments isSigil opens begins nonempty inName named stops behind ih =>
    rw [Segments.replaced_push, Segments.text_push, Segment.replaced, List.append_assoc]
    cases renamed : replace ⟨[sigil], name, none, none⟩ with
    | none => exact ih.append_left (sigil :: name)
    | some new =>
      obtain ⟨solid, discreet⟩ := quiet _ _ renamed
      have urlName : ∀ c ∈ name, isUrlNameChar c = true :=
        fun c member => isUrlNameChar_of_isNameChar (inName c member) (solid c member)
      show Respelled _ (sigil :: (new ++ (segments.replaced replace).text))
      exact Respelled.swap isSigil nonempty urlName discreet stops ih

/-- No token that is renamed holds white space, and all new names are discreet. -/
def Renaming.Quiet (names : Renaming) : Prop :=
  ∀ token name, names.get? token = some name →
    (∀ c ∈ token, isBlank c = false) ∧ Discreet name

/-- **Relabelling respells a stylesheet.** -/
theorem respelled_relabelStylesheet {names : Renamings} (quiet : ∀ kind, (names.ofKind kind).Quiet)
    (css : Text) : Respelled css (relabelStylesheet names css) := by
  refine (cutAtSelectors_cutFrom .start css).respelled (fun front segment nonempty => ?_)
    fun segment name found => ?_
  · rw [Segment.kind_append front nonempty]
  · exact quiet segment.kind segment.value name found

/-- **The bodies of style elements may be relabelled**, as far as references are concerned. -/
theorem urlRefill_relabelStylesheet {names : Renamings} (quiet : ∀ kind, (names.ofKind kind).Quiet)
    (css : Text) : UrlRefill css (relabelStylesheet names css) where
  named more closes := by
    have respelled := (respelled_relabelStylesheet quiet css).append_right (y := '<' :: more)
      (by simp; decide)
    exact respelled.dropWhile_isUrlNameChar.readUrlEnd closes
  idle more := (respelled_relabelStylesheet quiet css).idle (by simp; decide)

end Relabel
