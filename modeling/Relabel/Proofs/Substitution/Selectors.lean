/-
**Selectors of a relabelled stylesheet.**

Names take the place of names, so that the selectors of the new stylesheet are the old ones with new
names. What stands between them is kept, each stretch of it up to and including a sigil.

* `CutAtSelectors`: how a stylesheet is cut.
* `Segments.Renamed`: some names of a cut replaced.
* `CutAtSelectors.renamed`: replacing names keeps the cut.
* `selectors_cutFrom_replaced`: cutting commutes with replacing names.
-/

import Relabel.Proofs.Scan.ElementChange
import Relabel.Proofs.Scan.Replaced
import Relabel.Scan.Selector

namespace Relabel

/-! ### Sigils -/

theorem eq_of_kindOfSigil? {c : Char} (sigil : (kindOfSigil? c).isSome = true) : c = '.' ∨ c = '#' := by
  unfold kindOfSigil? at sigil
  split at sigil
  next dot => exact Or.inl dot
  next =>
    split at sigil
    next sharp => exact Or.inr sharp
    next => simp at sigil

/-- What holds of both sigils. -/
theorem sigil_facts {c : Char} (sigil : (kindOfSigil? c).isSome = true) :
    isBlank c = false ∧ isNameChar c = false ∧ isNameStart c = false ∧ c ≠ '-'
      ∧ Foreign "</style" c := by
  rcases eq_of_kindOfSigil? sigil with rfl | rfl <;> decide

theorem readSelector_eq_some {place : Place} {text : Text} {hit : Hit}
    (found : readSelector place text = some hit) :
    ∃ sigil behind, text = sigil :: behind ∧ (kindOfSigil? sigil).isSome = true
      ∧ place.opensSelector = true ∧ beginsName behind = true
      ∧ isSelectorName (behind.takeWhile isNameChar) = true
      ∧ hit = { lead := [sigil], value := behind.takeWhile isNameChar, tail := [],
                rest := behind.dropWhile isNameChar } := by
  cases text with
  | nil => simp [readSelector] at found
  | cons sigil behind =>
    simp only [readSelector] at found
    split at found
    next conditions =>
      simp only [Bool.and_eq_true] at conditions
      obtain ⟨⟨⟨isSigil, opens⟩, begins⟩, named⟩ := conditions
      exact ⟨sigil, behind, rfl, isSigil, opens, begins, named, (Option.some.inj found).symm⟩
    next => simp at found

/-- The text before a selector's name ends with a sigil. -/
theorem sigil_of_mem_found {place : Place} {gap text : Text} {segment : Segment}
    (member : segment ∈ (selectors.cutFrom place gap text).found) :
    ∃ front sigil, segment.gap = front ++ [sigil] ∧ (kindOfSigil? sigil).isSome = true
      ∧ ∀ c ∈ segment.value, isNameChar c = true := by
  obtain ⟨place, text, hit, front, found, rfl⟩ := Matcher.of_mem_found member
  obtain ⟨sigil, behind, _, isSigil, _, _, _, rfl⟩ := readSelector_eq_some found
  exact ⟨front, sigil, rfl, isSigil, fun c inName => List.mem_takeWhile_imp inName⟩

/-! ### New names -/

/-- The segment with the same value or with one that may begin an identifier. -/
def Segment.Becomes (old new : Segment) : Prop :=
  ∃ value, new = { old with value } ∧ (value = old.value ∨ isIdentifierStart value = true)

/-- The segments with some of their values replaced by ones that may begin identifiers. -/
def Segments.Renamed (old new : Segments) : Prop :=
  List.Forall₂ Segment.Becomes old.found new.found ∧ new.rest = old.rest

namespace Segments.Renamed

/-- What the segments behind the first become. -/
theorem of_push (segment : Segment) (segments : Segments) {renamed : Segments}
    (becomes : (segments.push segment).Renamed renamed) :
    ∃ (segment' : Segment) (segments' : Segments), renamed = segments'.push segment'
      ∧ segment.Becomes segment' ∧ segments.Renamed segments' := by
  obtain ⟨found, last⟩ := becomes
  rcases renamed with ⟨found', rest⟩
  cases found with
  | cons first behind => exact ⟨_, ⟨_, rest⟩, rfl, first, behind, last⟩

/-- Text in front is kept. -/
theorem of_prepend {front : Text} {segments renamed : Segments}
    (becomes : (segments.prepend front).Renamed renamed) :
    ∃ segments' : Segments, renamed = segments'.prepend front ∧ segments.Renamed segments' := by
  rcases segments with ⟨_ | ⟨segment, found⟩, rest⟩
  · obtain ⟨none, last⟩ := becomes
    rcases renamed with ⟨found', rest'⟩
    obtain rfl : found' = [] := List.forall₂_nil_left_iff.mp none
    obtain rfl : rest' = front ++ rest := last
    exact ⟨⟨[], rest⟩, rfl, List.Forall₂.nil, rfl⟩
  · obtain ⟨_, segments', rfl, ⟨value, rfl, allowed⟩, behind, last⟩ :=
      of_push { segment with gap := front ++ segment.gap } ⟨found, rest⟩ becomes
    exact ⟨segments'.push { segment with value }, rfl, List.Forall₂.cons ⟨value, rfl, allowed⟩ behind,
      last⟩

end Segments.Renamed

/-- Replacing names renames. -/
theorem Segments.renamed_replaced {replace : Segment → Option Text}
    (starts : ∀ segment name, replace segment = some name → isIdentifierStart name = true)
    {segments : Segments} : segments.Renamed (segments.replaced replace) := by
  refine ⟨List.forall₂_map_right_iff.mpr (List.forall₂_same.mpr fun segment _ => ?_), rfl⟩
  refine ⟨(replace segment).getD segment.value, rfl, ?_⟩
  cases renamed : replace segment with
  | none => exact Or.inl rfl
  | some name => exact Or.inr (starts segment name renamed)

theorem beginsName_of_sigil {front : Text} {sigil : Char}
    (isSigil : (kindOfSigil? sigil).isSome = true) (text text' : Text) :
    beginsName (front ++ [sigil] ++ text) = beginsName (front ++ [sigil] ++ text') := by
  obtain ⟨_, _, notStart, notHyphen, _⟩ := sigil_facts isSigil
  rcases front with _ | ⟨c, _ | ⟨d, front⟩⟩
  · simp [beginsName, notHyphen]
  · by_cases hyphen : c = '-'
    · subst hyphen
      rfl
    · simp [beginsName, hyphen]
  · by_cases hyphen : c = '-'
    · subst hyphen
      rfl
    · simp [beginsName, hyphen]

/-- A sigil and a name make a selector. -/
theorem readSelector_append {place : Place} {sigil : Char} {name text : Text}
    (isSigil : (kindOfSigil? sigil).isSome = true) (opens : place.opensSelector = true)
    (begins : beginsName (name ++ text) = true) (inName : ∀ c ∈ name, isNameChar c = true)
    (named : isSelectorName name = true) (stops : ∀ c ∈ text.head?, isNameChar c = false) :
    selectors.run place (sigil :: (name ++ text)) = some ⟨[sigil], name, [], text, none, none⟩ := by
  obtain ⟨takes, drops⟩ := takeWhile_dropWhile_append inName stops
  show readSelector place (sigil :: (name ++ text)) = _
  simp only [readSelector, takes, drops, isSigil, opens, begins, named, Bool.and_self, if_true]

/-- Whether a selector begins is decided by what stands before the next sigil. -/
theorem readSelector_of_sigil {place : Place} {c sigil : Char} {front text text' : Text}
    (isSigil : (kindOfSigil? sigil).isSome = true)
    (missed : readSelector place (c :: (front ++ [sigil] ++ text)) = none) :
    readSelector place (c :: (front ++ [sigil] ++ text')) = none := by
  have member : sigil ∈ front ++ [sigil] := by simp
  obtain ⟨_, stops, _⟩ := sigil_facts isSigil
  simp only [readSelector, takeWhile_append_of_stop member stops,
    beginsName_of_sigil isSigil text text'] at missed ⊢
  split at missed
  · simp at missed
  next fails => rw [if_neg fails]

/-- A text that begins with a name begins with a character of one. -/
theorem head_of_beginsName {text : Text} (begins : beginsName text = true) :
    ∃ c ∈ text.head?, isNameChar c = true := by
  have start : ∀ c, isNameStart c = true → isNameChar c = true := by
    intro c isStart
    simp only [isNameStart, isNameChar, isIdentifierChar, Bool.or_eq_true] at isStart ⊢
    tauto
  rcases text with _ | ⟨c, text⟩
  · simp [beginsName] at begins
  · refine ⟨c, rfl, ?_⟩
    by_cases hyphen : c = '-'
    · subst hyphen
      decide
    · exact start c (by simpa [beginsName, hyphen] using begins)

theorem beginsName_congr {name text text' : Text} (nonempty : name ≠ [])
    (sameHead : text.head? = text'.head?) : beginsName (name ++ text) = beginsName (name ++ text') := by
  rcases name with _ | ⟨c, _ | ⟨d, name⟩⟩
  · exact absurd rfl nonempty
  · rcases text with _ | ⟨d, text⟩ <;> rcases text' with _ | ⟨d', text'⟩
    · rfl
    · simp at sameHead
    · simp at sameHead
    · obtain rfl : d = d' := by simpa using sameHead
      by_cases hyphen : c = '-'
      · subst hyphen
        rfl
      · simp [beginsName, hyphen]
  · by_cases hyphen : c = '-'
    · subst hyphen
      rfl
    · simp [beginsName, hyphen]

/-- A name begins behind the sigil of a selector. -/
theorem takeWhile_ne_nil_of_beginsName {text : Text} (begins : beginsName text = true) :
    text.takeWhile isNameChar ≠ [] := by
  obtain ⟨c, isHead, nameChar⟩ := head_of_beginsName begins
  obtain ⟨rest, rfl⟩ := List.head?_eq_some_iff.mp isHead
  simp [nameChar]

/-- What follows a name does not begin like one. -/
theorem stops_dropWhile (f : Char → Bool) (text : Text) :
    ∀ c ∈ (text.dropWhile f).head?, f c = false := by
  intro c isHead
  obtain ⟨rest, split⟩ := List.head?_eq_some_iff.mp isHead
  exact head_dropWhile split

/-- What may begin an identifier is not empty and has the characters of identifiers. -/
theorem plain_of_isIdentifierStart {name : Text} (valid : isIdentifierStart name = true) :
    name ≠ [] ∧ ∀ c ∈ name, isIdentifierChar c = true := by
  cases name with
  | nil => simp [isIdentifierStart] at valid
  | cons c name =>
    simp only [isIdentifierStart, Bool.and_eq_true, List.all_eq_true] at valid
    refine ⟨by simp, fun d member => ?_⟩
    rcases List.mem_cons.mp member with rfl | behind
    · rcases Bool.or_eq_true_iff.mp valid.1 with alpha | underscore
      · simp [isIdentifierChar, Char.isAlphanum, alpha]
      · simp [isIdentifierChar, underscore]
    · exact valid.2 d behind

/-- A name that begins like an identifier makes a selector. -/
theorem selector_of_isIdentifierStart {name : Text} (valid : isIdentifierStart name = true) :
    name ≠ [] ∧ (∀ c ∈ name, isNameChar c = true) ∧ isSelectorName name = true
      ∧ ∀ text, beginsName (name ++ text) = true := by
  obtain ⟨nonempty, plain⟩ := plain_of_isIdentifierStart valid
  cases name with
  | nil => exact absurd rfl nonempty
  | cons c name =>
    simp only [isIdentifierStart, Bool.and_eq_true] at valid
    obtain ⟨first, _⟩ := valid
    have notHyphen : c ≠ '-' := by
      rintro rfl
      exact absurd first (by decide)
    have notDigit : c.isDigit = false := by
      rcases Bool.or_eq_true_iff.mp first with alpha | underscore
      · have letter := isAlpha_iff.mp alpha
        rw [Bool.eq_false_iff]
        intro digit
        have range := isDigit_iff.mp digit
        omega
      · obtain rfl : c = '_' := by simpa using underscore
        decide
    have isStart : isNameStart c = true := by
      rcases Bool.or_eq_true_iff.mp first with alpha | underscore
      · simp [isNameStart, Char.isAlphanum, alpha]
      · simp [isNameStart, underscore]
    refine ⟨nonempty, fun d member => ?_, ?_, fun text => ?_⟩
    · simp [isNameChar, plain d member]
    · simp [isSelectorName, notHyphen, notDigit]
    · simp [beginsName, notHyphen, isStart]

/-! ### Cutting -/

/-- How a stylesheet is cut: character by character, or selector by selector. -/
inductive CutAtSelectors : Place → Text → Segments → Prop where
  | done (place : Place) : CutAtSelectors place [] ⟨[], []⟩
  | skip {place : Place} {c : Char} {text : Text} {segments : Segments}
      (missed : readSelector place (c :: text) = none)
      (behind : CutAtSelectors (.after c) text segments) :
      CutAtSelectors place (c :: text) (segments.prepend [c])
  | select {place : Place} {sigil : Char} {name text : Text} {segments : Segments}
      (isSigil : (kindOfSigil? sigil).isSome = true) (opens : place.opensSelector = true)
      (begins : beginsName (name ++ text) = true) (nonempty : name ≠ [])
      (inName : ∀ c ∈ name, isNameChar c = true) (named : isSelectorName name = true)
      (stops : ∀ c ∈ text.head?, isNameChar c = false)
      (behind : CutAtSelectors .joined text segments) :
      CutAtSelectors place (sigil :: (name ++ text)) (segments.push ⟨[sigil], name, none, none⟩)

/-- **The matcher of selectors cuts so.** The induction is on the text. -/
theorem cutAtSelectors_cutFrom (place : Place) (text : Text) :
    CutAtSelectors place text (selectors.cutFrom place [] text) := by
  induction size : text.length using Nat.strong_induction_on generalizing place text with
  | _ n ih =>
    cases text with
    | nil =>
      rw [Matcher.cutFrom]
      exact CutAtSelectors.done place
    | cons c rest =>
      cases ran : selectors.run place (c :: rest) with
      | none =>
        rw [Matcher.cutFrom_none ran]
        exact CutAtSelectors.skip ran (ih rest.length (by simp [← size]) (.after c) rest rfl)
      | some hit =>
        have read : readSelector place (c :: rest) = some hit := ran
        obtain ⟨sigil, behind, whole, isSigil, opens, begins, named, rfl⟩ := readSelector_eq_some read
        have shorter : (behind.dropWhile isNameChar).length < n := size ▸ selectors.rest_lt ran
        have later := ih _ shorter .joined (behind.dropWhile isNameChar) rfl
        have nonempty := takeWhile_ne_nil_of_beginsName begins
        have inName : ∀ d ∈ behind.takeWhile isNameChar, isNameChar d = true :=
          fun d member => List.mem_takeWhile_imp member
        rw [Matcher.cutFrom_some ran, Segments.prepend_nil, whole]
        rw [← List.takeWhile_append_dropWhile (p := isNameChar) (l := behind)] at begins
        have selected := CutAtSelectors.select isSigil opens begins nonempty inName named
          (stops_dropWhile isNameChar behind) later
        rwa [List.takeWhile_append_dropWhile] at selected

namespace CutAtSelectors

variable {place : Place} {text : Text} {segments : Segments}

/-- No other cut is possible. -/
theorem cutFrom_eq (cut : CutAtSelectors place text segments) :
    selectors.cutFrom place [] text = segments := by
  induction cut with
  | done place => rw [Matcher.cutFrom, List.reverse_nil]
  | skip missed behind ih => rw [Matcher.cutFrom_none missed, ih]
  | select isSigil opens begins nonempty inName named stops behind ih =>
    rw [Matcher.cutFrom_some (readSelector_append isSigil opens begins inName named stops), ih,
      Segments.prepend_nil]

theorem gap_ne_nil (cut : CutAtSelectors place text segments) :
    ∀ segment ∈ segments.found, segment.gap ≠ [] := by
  intro segment member
  rw [← cut.cutFrom_eq] at member
  exact Matcher.gap_ne_nil member

variable {segments' : Segments}

/-- Replacing names keeps what stands before the first of them, a sigil at the end included. -/
theorem text_renamed_cases (cut : CutAtSelectors place text segments)
    (becomes : segments.Renamed segments') :
    segments'.text = text
      ∨ ∃ front sigil old new, (kindOfSigil? sigil).isSome = true ∧ text = front ++ [sigil] ++ old
          ∧ segments'.text = front ++ [sigil] ++ new := by
  have whole : segments.text = text := by
    rw [← cut.cutFrom_eq, Matcher.text_cutFrom_nil]
  have sigils : ∀ segment ∈ segments.found, ∃ front sigil, segment.gap = front ++ [sigil]
      ∧ (kindOfSigil? sigil).isSome = true := by
    intro segment member
    rw [← cut.cutFrom_eq] at member
    obtain ⟨front, sigil, gap, isSigil, _⟩ := sigil_of_mem_found member
    exact ⟨front, sigil, gap, isSigil⟩
  rcases segments with ⟨_ | ⟨segment, found⟩, rest⟩
  · obtain ⟨none, last⟩ := becomes
    rcases segments' with ⟨found', rest'⟩
    obtain rfl : found' = [] := List.forall₂_nil_left_iff.mp none
    obtain rfl : rest' = rest := last
    exact Or.inl whole
  · obtain ⟨segment', behind', rfl, ⟨value, rfl, _⟩, _⟩ :=
      Segments.Renamed.of_push segment ⟨found, rest⟩ becomes
    obtain ⟨front, sigil, gap, isSigil⟩ := sigils segment List.mem_cons_self
    refine Or.inr ⟨front, sigil, segment.value ++ Segments.text ⟨found, rest⟩, value ++ behind'.text, isSigil, ?_, ?_⟩
    · rw [← whole, ← gap]
      exact (Segments.text_push segment ⟨found, rest⟩).trans (List.append_assoc _ _ _)
    · rw [Segments.text_push, ← gap, List.append_assoc]

/-- Replacing names keeps the first character. -/
theorem head_text_renamed (cut : CutAtSelectors place text segments)
    (becomes : segments.Renamed segments') : segments'.text.head? = text.head? := by
  rcases cut.text_renamed_cases becomes with same | ⟨front, sigil, old, new, _, whole, same⟩
  · rw [same]
  · rw [same, whole]
    cases front <;> rfl

/-- **Replacing names keeps the cut.** -/
theorem renamed (cut : CutAtSelectors place text segments) (becomes : segments.Renamed segments') :
    CutAtSelectors place segments'.text segments' := by
  induction cut generalizing segments' with
  | done place =>
    obtain ⟨none, last⟩ := becomes
    rcases segments' with ⟨found', rest'⟩
    obtain rfl : found' = [] := List.forall₂_nil_left_iff.mp none
    obtain rfl : rest' = [] := last
    exact done place
  | @skip place c text segments missed behind ih =>
    obtain ⟨later, rfl, becomesBehind⟩ := Segments.Renamed.of_prepend becomes
    rw [Segments.text_prepend]
    refine skip ?_ (ih becomesBehind)
    rcases behind.text_renamed_cases becomesBehind with same | ⟨front, sigil, old, new, isSigil, whole, same⟩
    · rw [same]
      exact missed
    · rw [same]
      rw [whole] at missed
      exact readSelector_of_sigil isSigil missed
  | @select place sigil name text segments isSigil opens begins nonempty inName named stops behind ih =>
    obtain ⟨_, later, rfl, ⟨value, rfl, allowed⟩, becomesBehind⟩ := Segments.Renamed.of_push _ _ becomes
    have sameHead := behind.head_text_renamed becomesBehind
    have stops' : ∀ c ∈ later.text.head?, isNameChar c = false := fun c isHead => stops c (sameHead ▸ isHead)
    rw [Segments.text_push, List.append_assoc]
    rcases allowed with rfl | starts
    · exact select isSigil opens ((beginsName_congr nonempty sameHead).trans begins) nonempty inName
        named stops' (ih becomesBehind)
    · obtain ⟨nonempty', inName', named', begins'⟩ := selector_of_isIdentifierStart starts
      exact select isSigil opens (begins' _) nonempty' inName' named' stops' (ih becomesBehind)

end CutAtSelectors

/-- **Cutting commutes with replacing names.** -/
theorem selectors_cutFrom_replaced {replace : Segment → Option Text}
    (starts : ∀ segment name, replace segment = some name → isIdentifierStart name = true)
    (place : Place) (text : Text) :
    selectors.cutFrom place [] ((selectors.cutFrom place [] text).replaced replace).text
      = (selectors.cutFrom place [] text).replaced replace :=
  ((cutAtSelectors_cutFrom place text).renamed (Segments.renamed_replaced starts)).cutFrom_eq

end Relabel
