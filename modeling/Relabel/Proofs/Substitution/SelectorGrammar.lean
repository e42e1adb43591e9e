/-
**The grammar of selectors.**

A *candidate* of a stylesheet is a sigil and the longest name behind it. Whether a candidate is a selector depends
on its name and on what stands before its sigil: nothing, a byte that belongs to no identifier, or another selector.
The scan of a stylesheet decides this from left to right, with the place it has come to as its only memory.

* `Candidate`, `Candidate.OccursIn`: the candidates of a stylesheet.
* `Candidate.Selected`: which of them are selectors.
* `isIdentifierByte_getLast_encode`: the last byte before a sigil and the last character.
* `Reached`: what the place of a scan says of the candidates behind it.
* `locatedSelectors_exact`: the selectors of the grammar are those that are reported, in order.
-/

import Relabel.Proofs.Markup.Captures
import Relabel.Proofs.Substitution.SelectorPlaces
import Relabel.Proofs.Substitution.Stylesheet
import Relabel.Proofs.Text.ByteOrder

namespace Relabel

open Text (byteLength byteLength_append byteLength_cons)

/-! ### Candidates -/

/-- A name: perhaps a hyphen, a letter, a digit, an underscore or a character beyond ASCII, and then any of these
and hyphens. -/
def IsCandidateName (name : Text) : Prop :=
  ∃ hyphen first more, name = hyphen ++ first :: more ∧ (hyphen = [] ∨ hyphen = ['-'])
    ∧ isNameStart first = true ∧ ∀ c ∈ more, isNameChar c = true

/-- A name whose first character behind hyphens is no digit, or which is one that a generator makes. -/
def IsUnnumbered (name : Text) : Prop :=
  ∀ c ∈ (name.dropWhile (· == '-')).head?, c.isDigit = true →
    isGuid name = true ∨ isHexDigest name = true ∨ isLayoutNode name = true

/-- Whether a byte belongs to an identifier: a letter, a digit, an underscore, a hyphen, or a byte of a character
beyond ASCII. -/
def isIdentifierByte (b : UInt8) : Bool :=
  let n := b.toNat
  (0x30 ≤ n && n ≤ 0x39) || (0x41 ≤ n && n ≤ 0x5A) || (0x61 ≤ n && n ≤ 0x7A) || n == 0x5F || n == 0x2D || 0x80 ≤ n

/-- A sigil and a name, with the text before the sigil and behind the name. -/
@[ext]
structure Candidate where
  before : Text
  kind : Kind
  name : Text
  behind : Text

namespace Candidate

/-- The text up to the end of the name. -/
def through (candidate : Candidate) : Text :=
  candidate.before ++ candidate.kind.sigil :: candidate.name

/-- The name with its byte range. -/
def finding (candidate : Candidate) : Finding :=
  ⟨byteLength candidate.before + 1, byteLength candidate.before + 1 + byteLength candidate.name,
    candidate.name, none, none⟩

/-- The candidates of a stylesheet: behind the sigil stands a name, and nothing behind the name continues it. -/
structure OccursIn (candidate : Candidate) (css : Text) : Prop where
  whole : css = candidate.through ++ candidate.behind
  spelt : IsCandidateName candidate.name
  longest : ∀ c ∈ candidate.behind.head?, isNameChar c = false

/-- **The candidates that are selectors.** -/
inductive Selected (css : Text) : Candidate → Prop where
  /-- The sigil begins the stylesheet. -/
  | first {candidate : Candidate} (occurs : candidate.OccursIn css) (unnumbered : IsUnnumbered candidate.name)
      (start : candidate.before = []) : Selected css candidate
  /-- The sigil stands behind a byte that belongs to no identifier. -/
  | apart {candidate : Candidate} (occurs : candidate.OccursIn css) (unnumbered : IsUnnumbered candidate.name)
      {byte : UInt8} (last : (Utf8.encode candidate.before).getLast? = some byte)
      (outside : isIdentifierByte byte = false) : Selected css candidate
  /-- The sigil stands right behind a selector. -/
  | joined {candidate earlier : Candidate} (occurs : candidate.OccursIn css)
      (unnumbered : IsUnnumbered candidate.name) (selected : Selected css earlier)
      (meets : earlier.through = candidate.before) : Selected css candidate

theorem Selected.parts {css : Text} {candidate : Candidate} (selected : Selected css candidate) :
    candidate.OccursIn css ∧ IsUnnumbered candidate.name := by
  cases selected with
  | first occurs unnumbered => exact ⟨occurs, unnumbered⟩
  | apart occurs unnumbered => exact ⟨occurs, unnumbered⟩
  | joined occurs unnumbered => exact ⟨occurs, unnumbered⟩

end Candidate

open Candidate (Selected)

/-! ### Names -/

theorem isNameChar_of_isNameStart {c : Char} (start : isNameStart c = true) : isNameChar c = true := by
  simp only [isNameStart, isNameChar, isIdentifierChar, Bool.or_eq_true] at start ⊢
  tauto

/-- A name that begins with a name begins it. -/
theorem IsCandidateName.reads {name : Text} (spelt : IsCandidateName name) :
    name ≠ [] ∧ (∀ c ∈ name, isNameChar c = true) ∧ ∀ text, beginsName (name ++ text) = true := by
  obtain ⟨hyphen, first, more, rfl, hyphened, start, inName⟩ := spelt
  have isName := isNameChar_of_isNameStart start
  rcases hyphened with rfl | rfl
  · have other : first ≠ '-' := by
      rintro rfl
      exact absurd start (by decide)
    refine ⟨by simp, fun c member => ?_, fun text => by simp [beginsName, other, start]⟩
    rcases List.mem_cons.mp member with rfl | behind
    · exact isName
    · exact inName c behind
  · refine ⟨by simp, fun c member => ?_, fun text => start⟩
    simp only [List.singleton_append, List.mem_cons] at member
    rcases member with rfl | rfl | behind
    · decide
    · exact isName
    · exact inName c behind

/-- What begins with a name and ends where the name ends is a name. -/
theorem isCandidateName_of_beginsName {name text : Text} (begins : beginsName (name ++ text) = true)
    (nonempty : name ≠ []) (inName : ∀ c ∈ name, isNameChar c = true)
    (stops : ∀ c ∈ text.head?, isNameChar c = false) : IsCandidateName name := by
  obtain ⟨c, name, rfl⟩ := List.exists_cons_of_ne_nil nonempty
  by_cases hyphen : c = '-'
  · subst hyphen
    cases name with
    | nil =>
      -- The name would end before the character that it needs behind the hyphen.
      cases text with
      | nil => exact absurd begins (by decide)
      | cons d text =>
        have start : isNameStart d = true := begins
        exact absurd (isNameChar_of_isNameStart start) (by simp [stops d rfl])
    | cons d name =>
      exact ⟨['-'], d, name, rfl, Or.inr rfl, begins, fun e member => inName e (by simp [member])⟩
  · have start : isNameStart c = true := by simpa [beginsName, hyphen] using begins
    exact ⟨[], c, name, rfl, Or.inl rfl, start, fun e member => inName e (List.mem_cons_of_mem _ member)⟩

theorem isSelectorName_iff {name : Text} : isSelectorName name = true ↔ IsUnnumbered name := by
  unfold isSelectorName IsUnnumbered
  cases name.dropWhile (· == '-') with
  | nil => simp
  | cons c rest => cases digit : c.isDigit <;> simp [digit, or_assoc]

/-! ### Bytes -/

theorem isNameChar_iff_toNat {c : Char} :
    isNameChar c = true ↔ (48 ≤ c.toNat ∧ c.toNat ≤ 57) ∨ (65 ≤ c.toNat ∧ c.toNat ≤ 90)
      ∨ (97 ≤ c.toNat ∧ c.toNat ≤ 122) ∨ c.toNat = 95 ∨ c.toNat = 45 ∨ 128 ≤ c.toNat := by
  have underscore : c = '_' ↔ c.toNat = 95 := Char.toNat_inj.symm
  have hyphen : c = '-' ↔ c.toNat = 45 := Char.toNat_inj.symm
  rw [isNameChar, Bool.or_eq_true, isIdentifierChar_iff, isAlpha_iff, isDigit_iff, underscore, hyphen,
    decide_eq_true_iff]
  omega

theorem isIdentifierByte_iff {b : UInt8} :
    isIdentifierByte b = true ↔ (48 ≤ b.toNat ∧ b.toNat ≤ 57) ∨ (65 ≤ b.toNat ∧ b.toNat ≤ 90)
      ∨ (97 ≤ b.toNat ∧ b.toNat ≤ 122) ∨ b.toNat = 95 ∨ b.toNat = 45 ∨ 128 ≤ b.toNat := by
  simp only [isIdentifierByte, Bool.or_eq_true, Bool.and_eq_true, decide_eq_true_eq, beq_iff_eq, or_assoc]

/-- The last byte of a character is its code if it is an ASCII character. Otherwise both are beyond ASCII. -/
theorem Utf8.getLast_encodeChar {c : Char} {byte : UInt8} (last : (Utf8.encodeChar c).getLast? = some byte) :
    byte.toNat = c.toNat ∨ 0x80 ≤ byte.toNat ∧ 0x80 ≤ c.toNat := by
  simp only [Utf8.encodeChar] at last
  split_ifs at last with ascii <;> obtain rfl := Option.some.inj last
  · refine Or.inl ?_
    simp
    omega
  all_goals
    refine Or.inr ⟨?_, by omega⟩
    simp
    omega

/-- **The last byte of a text belongs to an identifier** exactly if the last character belongs to a name. -/
theorem isIdentifierByte_getLast_encode {front : Text} {c : Char} {byte : UInt8}
    (last : (Utf8.encode (front ++ [c])).getLast? = some byte) : isIdentifierByte byte = isNameChar c := by
  have whole : Utf8.encode (front ++ [c]) = Utf8.encode front ++ Utf8.encodeChar c := by
    simp [Utf8.encode]
  rw [whole, List.getLast?_append_of_ne_nil _ (Utf8.encodeChar_ne_nil c)] at last
  rw [Bool.eq_iff_iff, isIdentifierByte_iff, isNameChar_iff_toNat]
  rcases Utf8.getLast_encodeChar last with same | ⟨high, beyond⟩
  · rw [same]
  · omega

/-! ### The places of a scan -/

/-- What the place of a scan behind `front` says: a selector that begins in `front` ends in it, and right at its
end exactly where a match ends. -/
structure Reached (css : Text) (place : Place) (front : Text) : Prop where
  start : place = .start ↔ front = []
  after : ∀ c, place = .after c → front.getLast? = some c
  joined : place = .joined → ∃ earlier, Selected css earlier ∧ earlier.through = front
  passed : ∀ candidate, Selected css candidate → candidate.before.length < front.length →
    candidate.through.length < front.length ∨ candidate.through = front ∧ place = .joined

namespace Reached

variable {css front : Text} {place : Place} {candidate : Candidate}

theorem nil (css : Text) : Reached css .start [] where
  start := by simp
  after _ behind := by simp at behind
  joined behind := by simp at behind
  passed _ _ shorter := absurd shorter (Nat.not_lt_zero _)

/-- A selected candidate begins where a selector may begin. -/
theorem opens_of_selected (reached : Reached css place candidate.before)
    (selected : Selected css candidate) : place.opensSelector = true := by
  cases place with
  | start | joined => rfl
  | after c =>
    obtain ⟨front, parts⟩ := List.getLast?_eq_some_iff.mp (reached.after c rfl)
    have outside : isNameChar c = false := by
      cases selected with
      | first _ _ start =>
        rw [start] at parts
        simp at parts
      | apart _ _ last outside =>
        rw [parts] at last
        rwa [← isIdentifierByte_getLast_encode last]
      | @joined _ earlier _ _ selected meets =>
        have begins : earlier.before.length < candidate.before.length := by
          rw [← meets]
          simp [Candidate.through]
        rcases reached.passed earlier selected begins with shorter | ⟨_, joined⟩
        · exact absurd (congrArg List.length meets) (Nat.ne_of_lt shorter)
        · simp at joined
    simp [Place.opensSelector, outside]

/-- A candidate is selected where a selector may begin. -/
theorem selected_of_opens (reached : Reached css place candidate.before)
    (occurs : candidate.OccursIn css) (unnumbered : IsUnnumbered candidate.name)
    (opens : place.opensSelector = true) : Selected css candidate := by
  cases place with
  | start => exact Selected.first occurs unnumbered (reached.start.mp rfl)
  | joined =>
    obtain ⟨earlier, selected, meets⟩ := reached.joined rfl
    exact Selected.joined occurs unnumbered selected meets
  | after c =>
    obtain ⟨front, parts⟩ := List.getLast?_eq_some_iff.mp (reached.after c rfl)
    have outside : isNameChar c = false := by simpa [Place.opensSelector] using opens
    have nonempty : Utf8.encode candidate.before ≠ [] := by
      rw [parts]
      simp [Utf8.encode, Utf8.encodeChar_ne_nil]
    obtain ⟨byte, last⟩ : ∃ byte, (Utf8.encode candidate.before).getLast? = some byte :=
      ⟨_, List.getLast?_eq_some_getLast nonempty⟩
    refine Selected.apart occurs unnumbered last ?_
    rw [parts] at last
    rw [isIdentifierByte_getLast_encode last, outside]

/-- **Whether a selector may begin at a place** is what the grammar says of a candidate there. -/
theorem selected_iff (reached : Reached css place front) (occurs : candidate.OccursIn css)
    (unnumbered : IsUnnumbered candidate.name) (here : candidate.before = front) :
    Selected css candidate ↔ place.opensSelector = true := by
  subst here
  exact ⟨reached.opens_of_selected, reached.selected_of_opens occurs unnumbered⟩

/-- The text from a candidate on that begins at a place. -/
theorem occursIn_iff {text : Text} (whole : css = front ++ text) (here : candidate.before = front) :
    candidate.OccursIn css ↔ text = candidate.kind.sigil :: (candidate.name ++ candidate.behind)
      ∧ IsCandidateName candidate.name ∧ ∀ c ∈ candidate.behind.head?, isNameChar c = false := by
  subst here
  have parts : candidate.through ++ candidate.behind
      = candidate.before ++ candidate.kind.sigil :: (candidate.name ++ candidate.behind) := by
    simp [Candidate.through]
  constructor
  · rintro ⟨same, spelt, longest⟩
    rw [whole, parts] at same
    exact ⟨List.append_cancel_left same, spelt, longest⟩
  · rintro ⟨rfl, spelt, longest⟩
    exact ⟨by rw [whole, parts], spelt, longest⟩

/-- Where nothing is matched, no selector begins. -/
theorem not_selected {c : Char} {text : Text} (reached : Reached css place front)
    (whole : css = front ++ c :: text) (missed : readSelector place (c :: text) = none)
    (here : candidate.before = front) : ¬ Selected css candidate := by
  intro selected
  obtain ⟨occurs, unnumbered⟩ := selected.parts
  have opens := (reached.selected_iff occurs unnumbered here).mp selected
  obtain ⟨parts, spelt, longest⟩ := (occursIn_iff whole here).mp occurs
  obtain ⟨_, inName, begins⟩ := spelt.reads
  have read := readSelector_append (isSome_kindOfSigil? candidate.kind) opens (begins candidate.behind) inName
    (isSelectorName_iff.mpr unnumbered) longest
  rw [← parts] at read
  exact absurd (missed.symm.trans read) (by simp)

/-- A candidate that begins behind `front` has text between. -/
theorem exists_between {text : Text} (whole : css = front ++ text) (occurs : candidate.OccursIn css)
    (later : front.length ≤ candidate.before.length) :
    ∃ r, candidate.before = front ++ r ∧ text = r ++ candidate.kind.sigil :: (candidate.name ++ candidate.behind) := by
  refine Relabel.exists_between (whole.symm.trans (occurs.whole.trans ?_)) later
  simp [Candidate.through]

/-- Behind a character that begins no match. -/
theorem skip {c : Char} {text : Text} (reached : Reached css place front) (whole : css = front ++ c :: text)
    (missed : readSelector place (c :: text) = none) : Reached css (.after c) (front ++ [c]) where
  start := by simp
  after d same := by
    obtain rfl := Place.after.inj same
    simp
  joined behind := by simp at behind
  passed candidate selected shorter := by
    have size : (front ++ [c]).length = front.length + 1 := by simp
    rw [size] at shorter ⊢
    by_cases earlier : candidate.before.length < front.length
    · rcases reached.passed candidate selected earlier with ends | ⟨meets, _⟩
      · exact Or.inl (Nat.lt_succ_of_lt ends)
      · exact Or.inl (by rw [meets]; exact Nat.lt_succ_self _)
    · obtain ⟨r, same, _⟩ := exists_between whole selected.parts.1 (Nat.not_lt.mp earlier)
      have none : r = [] := by
        rw [same, List.length_append] at shorter
        exact List.length_eq_zero_iff.mp (by omega)
      exact absurd selected (reached.not_selected whole missed (by simp [same, none]))

/-- No candidate begins within the name of another, and only one at its sigil. -/
theorem eq_of_within {other : Candidate} (occurs : candidate.OccursIn css) (within : other.OccursIn css)
    (later : candidate.before.length ≤ other.before.length)
    (shorter : other.before.length < candidate.through.length) : other = candidate := by
  have whole : css = candidate.before ++ candidate.kind.sigil :: (candidate.name ++ candidate.behind) := by
    rw [occurs.whole, Candidate.through, List.append_assoc, List.cons_append]
  obtain ⟨r, same, parts⟩ := exists_between whole within later
  have inName := occurs.spelt.reads.2.1
  cases r with
  | nil =>
    obtain ⟨sigil, names⟩ := List.cons.inj parts
    obtain ⟨takes, drops⟩ := takeWhile_dropWhile_append inName occurs.longest
    obtain ⟨takes', drops'⟩ := takeWhile_dropWhile_append within.spelt.reads.2.1 within.longest
    rw [names] at takes drops
    have kinds := congrArg kindOfSigil? sigil.symm
    rw [kindOfSigil?_sigil, kindOfSigil?_sigil] at kinds
    exact Candidate.ext (by simpa using same) (Option.some.inj kinds) (takes'.symm.trans takes)
      (drops'.symm.trans drops)
  | cons d r =>
    -- The other sigil would stand in the name.
    obtain ⟨_, names⟩ := List.cons.inj parts
    have sizes : r.length < candidate.name.length := by
      simp only [same, Candidate.through, List.length_append, List.length_cons] at shorter
      omega
    obtain ⟨more, nameParts, tail⟩ := Relabel.exists_between names.symm sizes.le
    have nonempty : more ≠ [] := by
      rintro rfl
      rw [List.append_nil] at nameParts
      exact absurd (congrArg List.length nameParts) (Nat.ne_of_gt sizes)
    obtain ⟨e, more, rfl⟩ := List.exists_cons_of_ne_nil nonempty
    obtain ⟨rfl, _⟩ := List.cons.inj tail
    have inside := inName other.kind.sigil (by simp [nameParts])
    rw [(sigil_facts (isSome_kindOfSigil? other.kind)).2.1] at inside
    exact absurd inside (by decide)

/-- Behind a match. -/
theorem select (reached : Reached css place front) (selected : Selected css candidate)
    (here : candidate.before = front) : Reached css .joined candidate.through where
  start := by simp [Candidate.through]
  after _ behind := by simp at behind
  joined _ := ⟨candidate, selected, rfl⟩
  passed other chosen shorter := by
    subst here
    by_cases earlier : other.before.length < candidate.before.length
    · have longer : candidate.before.length < candidate.through.length := by simp [Candidate.through]
      rcases reached.passed other chosen earlier with ends | ⟨meets, _⟩
      · exact Or.inl (ends.trans longer)
      · exact Or.inl (by rw [meets]; exact longer)
    · rw [eq_of_within selected.parts.1 chosen.parts.1 (Nat.not_lt.mp earlier) shorter]
      exact Or.inr ⟨rfl, rfl⟩

end Reached

/-! ### Scans -/

theorem Candidate.byteLength_through (candidate : Candidate) :
    byteLength candidate.through = byteLength candidate.before + 1 + byteLength candidate.name := by
  have parts : candidate.through = candidate.before ++ [candidate.kind.sigil] ++ candidate.name := by
    simp [through]
  rw [parts, byteLength_append, byteLength_append_sigil]

theorem exists_eq_sigil {c : Char} (isSigil : (kindOfSigil? c).isSome = true) : ∃ kind : Kind, c = kind.sigil := by
  rcases eq_of_kindOfSigil? isSigil with rfl | rfl
  · exact ⟨.cls, rfl⟩
  · exact ⟨.id, rfl⟩

/-- The selectors of a cut whose text begins at byte `offset`. -/
def Segments.selectorsFrom (offset : Nat) (segments : Segments) : List (Kind × Finding) :=
  (segments.found.map (·.kind)).zip (findingsFrom offset segments.found)

@[simp]
theorem Segments.length_findingsFrom (offset : Nat) (found : List Segment) :
    (findingsFrom offset found).length = found.length := by
  induction found generalizing offset with
  | nil => rfl
  | cons segment found ih => simp [findingsFrom, ih]

theorem Segments.map_snd_selectorsFrom (offset : Nat) (segments : Segments) :
    (segments.selectorsFrom offset).map Prod.snd = findingsFrom offset segments.found :=
  List.map_snd_zip (by simp)

theorem Segments.selectorsFrom_prepend {segments : Segments} (spaced : ∀ segment ∈ segments.found, segment.gap ≠ [])
    (offset : Nat) (front : Text) :
    (segments.prepend front).selectorsFrom offset = segments.selectorsFrom (offset + byteLength front) := by
  rcases segments with ⟨_ | ⟨segment, found⟩, rest⟩
  · rfl
  · have same := Segment.kind_append front (spaced segment List.mem_cons_self)
    simp [selectorsFrom, prepend, findingsFrom, same, Nat.add_assoc]

/-- A selector in front. -/
theorem Segments.selectorsFrom_push (kind : Kind) (name : Text) (segments : Segments) (offset : Nat) :
    (segments.push ⟨[kind.sigil], name, none, none⟩).selectorsFrom offset
      = (kind, ⟨offset + 1, offset + 1 + byteLength name, name, none, none⟩)
        :: segments.selectorsFrom (offset + 1 + byteLength name) := by
  cases kind <;> rfl

/-- **A scan reports the selectors of the grammar** that begin where it has come to or later. The induction is on
the cut, and what carries it is what the place says of the selectors before. -/
theorem CutAtSelectors.mem_selectorsFrom {css front text : Text} {place : Place} {segments : Segments}
    (cut : CutAtSelectors place text segments) (whole : css = front ++ text) (reached : Reached css place front)
    {entry : Kind × Finding} :
    entry ∈ segments.selectorsFrom (byteLength front)
      ↔ ∃ candidate, Selected css candidate ∧ front.length ≤ candidate.before.length
          ∧ entry = (candidate.kind, candidate.finding) := by
  induction cut generalizing front with
  | done place =>
    refine iff_of_false List.not_mem_nil ?_
    rintro ⟨candidate, selected, later, _⟩
    obtain ⟨r, _, parts⟩ := Reached.exists_between whole selected.parts.1 later
    exact absurd parts (by simp)
  | @skip place c text segments missed behind ih =>
    have size : byteLength (front ++ [c]) = byteLength front + byteLength [c] := byteLength_append front [c]
    rw [Segments.selectorsFrom_prepend behind.gap_ne_nil, ← size,
      ih (by simp [whole]) (reached.skip whole missed)]
    refine exists_congr fun candidate => and_congr_right fun selected => and_congr_left fun _ => ?_
    rw [List.length_append, List.length_singleton]
    refine ⟨Nat.le_of_succ_le, fun later => Nat.lt_of_le_of_ne later fun same => ?_⟩
    obtain ⟨r, parts, _⟩ := Reached.exists_between whole selected.parts.1 later
    have none : r = [] := by
      rw [parts, List.length_append] at same
      exact List.length_eq_zero_iff.mp (by omega)
    exact reached.not_selected whole missed (by simp [parts, none]) selected
  | @select place sigil name text segments isSigil opens begins nonempty inName named stops behind ih =>
    obtain ⟨kind, rfl⟩ := exists_eq_sigil isSigil
    have occurs : Candidate.OccursIn ⟨front, kind, name, text⟩ css := by
      refine (Reached.occursIn_iff whole rfl).mpr ⟨rfl, ?_, stops⟩
      exact isCandidateName_of_beginsName begins nonempty inName stops
    have selected : Selected css ⟨front, kind, name, text⟩ :=
      (reached.selected_iff occurs (isSelectorName_iff.mp named) rfl).mpr opens
    have size := Candidate.byteLength_through ⟨front, kind, name, text⟩
    rw [Segments.selectorsFrom_push, List.mem_cons, ← size, ih occurs.whole (reached.select selected rfl), size]
    constructor
    · rintro (rfl | ⟨candidate, chosen, later, rfl⟩)
      · exact ⟨_, selected, Nat.le_refl _, rfl⟩
      · refine ⟨candidate, chosen, Nat.le_trans ?_ later, rfl⟩
        simp [Candidate.through]
    · rintro ⟨candidate, chosen, later, rfl⟩
      by_cases shorter : candidate.before.length < (Candidate.through ⟨front, kind, name, text⟩).length
      · rw [Reached.eq_of_within occurs chosen.parts.1 later shorter]
        exact Or.inl rfl
      · exact Or.inr ⟨candidate, chosen, Nat.not_lt.mp shorter, rfl⟩

/-! ### Order -/

/-- **The reported selectors are those of the grammar**, in the order of their places: a candidate is reported
exactly if it is selected, with the kind of its sigil and the byte range of its name, and no two entries overlap
or change places. -/
theorem locatedSelectors_exact (css : Text) :
    (∀ kind finding, (kind, finding) ∈ locatedSelectors css
        ↔ ∃ candidate, Selected css candidate ∧ candidate.kind = kind ∧ candidate.finding = finding)
      ∧ (locatedSelectors css).Pairwise fun first second => first.2.stop < second.2.start := by
  have spaced := @Matcher.gap_ne_nil selectors .start [] css
  constructor
  · intro kind finding
    have cut := cutAtSelectors_cutFrom .start css
    have reported := @cut.mem_selectorsFrom _ [] _ _ _ (List.nil_append css).symm (Reached.nil css) (kind, finding)
    refine Iff.trans reported (exists_congr fun candidate => and_congr_right fun _ => ?_)
    rw [Prod.mk.injEq, eq_comm (a := kind), eq_comm (a := finding)]
    exact and_iff_right (Nat.zero_le _)
  · have increasing := (Segments.increasing_findingsFrom (fun segment => spaced) 0).1
    rw [← Segments.map_snd_selectorsFrom 0 (selectors.cutFrom .start [] css), List.pairwise_map] at increasing
    exact increasing

/-- A class behind a class that is found; none behind a letter beyond ASCII, within a number or with a digit first. -/
example : (locatedSelectors ".-a.b é.c 1.d .2e#f".toList).map (fun found => (found.1, found.2.start, found.2.stop))
    = [(.cls, 1, 3), (.cls, 4, 5)] := by
  decide +kernel

end Relabel
