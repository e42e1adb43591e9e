/-
**The ranges of words.**

The words of a text are found in two ways: by splitting it at white space, and by reading it once with the byte offset
at which each word begins. Both ways find the same words. The ranges of the located words cut no character and cover
all characters but white space, which stands between any two of them; and there is one list of such ranges only.

* `Text.slice?_eq_some_iff`: what stands between two byte offsets.
* `Text.Word.Covers`, `Text.exists_standsAt`: a character that is not white space lies in a word.
* `Text.apart_wordsFrom`: words are located one behind the other.
* `Text.WordRanges`: ranges of words that leave out white space and nothing else.
* `Text.wordRanges_locatedWords`, `Text.WordRanges.unique`: located words have such ranges, and no others do.
* `Text.locatedWords_ranges`: the located words of a text are its words, and are told by their ranges.
-/

import Mathlib.Data.List.DropRight
import Relabel.Proofs.Text.Interleaved
import Relabel.Proofs.Text.WordPlaces

namespace Relabel.Text

variable {text before behind : Text} {word : Word} {located : List Word} {c : Char} {offset : Nat}

/-! ### Parts of a text -/

/-- **What stands between two byte offsets** is the part of the text that begins at the first and has as many bytes as
lie between them. -/
theorem slice?_eq_some_iff {part : Text} {start stop : Nat} :
    slice? text start stop = some part
      ↔ ∃ before behind, text = before ++ (part ++ behind) ∧ start = byteLength before
          ∧ stop = byteLength before + byteLength part := by
  constructor
  · intro sliced
    unfold slice? at sliced
    split at sliced
    · simp at sliced
    next forward =>
      obtain ⟨⟨before, rest⟩, cut, sliced⟩ := Option.bind_eq_some_iff.mp sliced
      obtain ⟨⟨part', behind⟩, cut', same⟩ := Option.bind_eq_some_iff.mp sliced
      obtain rfl : part' = part := Option.some.inj same
      obtain ⟨whole, start⟩ := cutAt?_eq_some_iff.mp cut
      obtain ⟨rfl, size⟩ := cutAt?_eq_some_iff.mp cut'
      exact ⟨before, behind, whole, start.symm, by omega⟩
  · rintro ⟨before, behind, rfl, rfl, rfl⟩
    exact slice?_append before part behind

/-- There is no boundary within a character. -/
theorem IsBoundary.next (boundary : IsBoundary (before ++ c :: behind) offset) (beyond : byteLength before < offset) :
    byteLength before + c.utf8Size ≤ offset := by
  obtain ⟨front, rest, parts, rfl⟩ := boundary
  obtain ⟨gap, rfl, later⟩ := exists_between_of_byteLength parts beyond.le
  cases gap with
  | nil => simp at beyond
  | cons d gap =>
    obtain ⟨rfl, -⟩ := List.cons.inj later
    simp [← Nat.add_assoc]

/-- A text ends with a run without white space, which is empty if the text ends with white space. -/
theorem exists_solid_suffix (text : Text) :
    ∃ front run, text = front ++ run ∧ (∀ d ∈ front.getLast?, isBlank d = true) ∧ Solid run := by
  refine ⟨text.rdropWhile (!isBlank ·), text.rtakeWhile (!isBlank ·), List.rdropWhile_append_rtakeWhile.symm, ?_, ?_⟩
  · intro d isLast
    have nonempty : text.rdropWhile (!isBlank ·) ≠ [] := by
      intro empty
      simp [empty] at isLast
    have stopped := List.rdropWhile_last_not (!isBlank ·) text nonempty
    rw [List.getLast?_eq_some_getLast nonempty] at isLast
    obtain rfl := Option.some.inj isLast
    simpa using stopped
  · intro d member
    simpa using List.mem_rtakeWhile_imp member

/-! ### Characters of a word -/

/-- The word reaches over the byte at an offset. -/
def Word.Covers (word : Word) (offset : Nat) : Prop :=
  word.start ≤ offset ∧ offset < word.stop

theorem Word.start_le_stop (word : Word) : word.start ≤ word.stop :=
  Nat.le_add_right _ _

/-- A word covers its characters, -/
theorem Word.covers_of_text_eq {front rest : Text} (start : word.start = byteLength before)
    (parts : word.text = front ++ c :: rest) : word.Covers (byteLength (before ++ front)) := by
  have positive := c.utf8Size_pos
  simp only [Word.Covers, Word.stop, start, parts, byteLength_append, byteLength_cons]
  omega

/-- and no others. -/
theorem Word.Covers.mem {front rest : Text} (covers : word.Covers (byteLength before))
    (parts : before ++ c :: behind = front ++ (word.text ++ rest)) (start : word.start = byteLength front) :
    c ∈ word.text := by
  obtain ⟨begins, ends⟩ := covers
  rw [Word.stop] at ends
  rw [start] at begins ends
  obtain ⟨gap, rfl, inside⟩ := exists_between_of_byteLength parts.symm begins
  rw [byteLength_append] at ends
  obtain ⟨later, same, ahead⟩ := exists_between_of_byteLength inside.symm (by omega)
  cases later with
  | nil => simp [same] at ends
  | cons d later =>
    obtain ⟨rfl, -⟩ := List.cons.inj ahead
    exact same ▸ List.mem_append_right gap List.mem_cons_self

/-- **A character that is not white space lies in a word**: the run without white space that reaches from it to either
side. -/
theorem exists_standsAt (solid : ¬ isBlank c = true) (before behind : Text) :
    ∃ word, StandsAt 0 (before ++ c :: behind) word ∧ word.Covers (byteLength before) := by
  obtain ⟨front, led, rfl, opened, solidLed⟩ := exists_solid_suffix before
  have solidTail : Solid (c :: behind.takeWhile (!isBlank ·)) := solid_takeWhile solid
  let word : Word := ⟨byteLength front, led ++ c :: behind.takeWhile (!isBlank ·)⟩
  have between : IsWordBetween front word.text (behind.dropWhile (!isBlank ·)) := by
    refine ⟨fun d member => ?_, by simp [word], opened, breaks_dropWhile behind⟩
    exact (List.mem_append.mp member).elim (solidLed d) (solidTail d)
  exact ⟨word, ⟨front, _, by simp [word, List.takeWhile_append_dropWhile], between, by simp [word]⟩,
    Word.covers_of_text_eq rfl rfl⟩

/-! ### Words one behind the other -/

/-- Where white space begins, a word begins later. -/
theorem StandsAt.lt_start (stands : StandsAt offset text word) (breaks : Breaks text) : offset < word.start := by
  obtain ⟨before, behind, rfl, between, start⟩ := stands
  rw [start]
  exact Nat.lt_add_of_pos_right (byteLength_pos (between.before_ne_nil breaks))

/-- **Words are located one behind the other**, with white space between. -/
theorem apart_wordsFrom (offset : Nat) (text : Text) :
    (wordsFrom none offset text).Pairwise fun first second => first.stop < second.start := by
  induction text using word_induction generalizing offset with
  | nil => exact List.Pairwise.nil
  | blank c text isWhite ih =>
    rw [wordsFrom_blank isWhite]
    exact ih _
  | word word text solid nonempty breaks ih =>
    rw [wordsFrom_append solid nonempty breaks]
    exact List.Pairwise.cons (fun later member => (mem_wordsFrom.mp member).lt_start breaks) (ih _)

section Apart

variable (apart : located.Pairwise fun first second => first.stop < second.start)

include apart

theorem increasing_of_apart : located.Pairwise fun first second => first.start < second.start :=
  apart.imp fun {first _} less => first.start_le_stop.trans_lt less

theorem nodup_of_apart : located.Nodup :=
  (increasing_of_apart apart).imp fun less => ne_of_apply_ne Word.start less.ne

/-- Of words with white space between, no two touch. -/
theorem eq_of_touching {other : Word} (member : word ∈ located) (member' : other ∈ located)
    (touch : word.start ≤ other.stop) (touch' : other.start ≤ word.stop) : word = other := by
  have forward : located.Pairwise fun first second =>
      first.start ≤ second.stop → second.start ≤ first.stop → first = second :=
    apart.imp fun less _ reaches => absurd reaches (Nat.not_le.mpr less)
  have backward : located.Pairwise (flip fun first second =>
      first.start ≤ second.stop → second.start ≤ first.stop → first = second) :=
    apart.imp fun less reaches _ => absurd reaches (Nat.not_le.mpr less)
  exact forward.forall_of_forall_of_flip (fun _ _ _ _ => rfl) backward member member' touch touch'

end Apart

/-! ### The ranges -/

/-- Ranges of words that leave out white space and nothing else. None is empty or cuts a character, each holds its word,
and each ends before the next one begins. -/
structure WordRanges (text : Text) (located : List Word) : Prop where
  nonempty : ∀ word ∈ located, word.start < word.stop
  boundaries : ∀ word ∈ located, IsBoundary text word.start ∧ IsBoundary text word.stop
  exact : ∀ word ∈ located, slice? text word.start word.stop = some word.text
  apart : located.Pairwise fun first second => first.stop < second.start
  blanks : ∀ before c behind, text = before ++ c :: behind →
    (isBlank c = true ↔ ∀ word ∈ located, ¬ word.Covers (byteLength before))

/-- A located word is the part of the text between its offsets. -/
theorem slice?_of_mem_locatedWords (member : word ∈ locatedWords text) :
    slice? text word.start word.stop = some word.text := by
  obtain ⟨before, behind, parts, _, start⟩ := mem_locatedWords.mp member
  rw [Nat.zero_add] at start
  rw [Word.stop, start, parts, List.append_assoc, slice?_append]

/-- **Located words have such ranges.** -/
theorem wordRanges_locatedWords (text : Text) : WordRanges text (locatedWords text) := by
  refine ⟨fun word member => ?_, fun word member => ?_, fun word member => slice?_of_mem_locatedWords member,
    apart_wordsFrom 0 text, fun before c behind whole => ?_⟩
  · obtain ⟨_, _, _, between, _⟩ := mem_locatedWords.mp member
    exact Nat.lt_add_of_pos_right (byteLength_pos between.nonempty)
  · obtain ⟨before, behind, parts, start, stop⟩ := slice?_eq_some_iff.mp (slice?_of_mem_locatedWords member)
    exact ⟨⟨before, word.text ++ behind, parts, start.symm⟩,
      ⟨before ++ word.text, behind, by simp [parts], by simp [stop]⟩⟩
  · constructor
    · intro blank word member covers
      obtain ⟨front, rest, parts, between, start⟩ := mem_locatedWords.mp member
      rw [Nat.zero_add] at start
      rw [List.append_assoc] at parts
      have solid := between.solid c (covers.mem (whole.symm.trans parts) start)
      exact Bool.false_ne_true (solid.symm.trans blank)
    · intro uncovered
      by_contra solid
      obtain ⟨word, stands, covers⟩ := exists_standsAt solid before behind
      exact uncovered word (mem_locatedWords.mpr (whole ▸ stands)) covers

/-- Beside a range is white space: a character there would lie in another range otherwise, and these two would touch. -/
theorem WordRanges.isBlank_beside (ranges : WordRanges text located) (member : word ∈ located)
    (whole : text = before ++ c :: behind)
    (beside : byteLength before + c.utf8Size = word.start ∨ byteLength before = word.stop) : isBlank c = true := by
  refine (ranges.blanks before c behind whole).mpr fun other member' covers => ?_
  have forward := word.start_le_stop
  have positive := c.utf8Size_pos
  -- The other range covers the whole character, so that it reaches up to a word behind it.
  have reaches := IsBoundary.next (whole ▸ (ranges.boundaries other member').2) covers.2
  obtain ⟨begins, ends⟩ := covers
  obtain rfl : word = other := eq_of_touching ranges.apart member member' (by omega) (by omega)
  omega

/-- **Such ranges are those of maximal runs without white space.** -/
theorem WordRanges.standsAt (ranges : WordRanges text located) (member : word ∈ located) : StandsAt 0 text word := by
  obtain ⟨before, behind, parts, start, stop⟩ := slice?_eq_some_iff.mp (ranges.exact word member)
  have nonempty := ranges.nonempty word member
  refine ⟨before, behind, by simpa using parts, ⟨?solid, ?nonempty, ?opened, ?closed⟩, by simp [start]⟩
  case solid =>
    intro c inWord
    obtain ⟨front, rest, same⟩ := List.append_of_mem inWord
    by_contra blank
    have whole : text = before ++ front ++ c :: (rest ++ behind) := by simp [parts, same]
    exact (ranges.blanks _ c _ whole).mp (by simpa using blank) word member (Word.covers_of_text_eq start same)
  case nonempty =>
    intro empty
    simp [start, stop, empty] at nonempty
  case opened =>
    intro c isLast
    obtain ⟨front, rfl⟩ := List.getLast?_eq_some_iff.mp isLast
    have whole : text = front ++ c :: (word.text ++ behind) := by simp [parts]
    exact ranges.isBlank_beside member whole (Or.inl (by simp [start]))
  case closed =>
    intro c isHead
    obtain ⟨rest, rfl⟩ := List.head?_eq_some_iff.mp isHead
    have whole : text = before ++ word.text ++ c :: rest := by simp [parts]
    exact ranges.isBlank_beside member whole (Or.inr (by simp [stop]))

/-- **There are no other words with such ranges.** A located word begins with a character that some range covers, and
this can only be its own. -/
theorem WordRanges.unique (ranges : WordRanges text located) : located = locatedWords text := by
  have apart := apart_wordsFrom 0 text
  have same : ∀ word, word ∈ located ↔ word ∈ locatedWords text := by
    intro word
    refine ⟨fun member => mem_locatedWords.mpr (ranges.standsAt member), fun member => ?_⟩
    obtain ⟨before, behind, parts, between, start⟩ := mem_locatedWords.mp member
    obtain ⟨c, letters, spelled⟩ := List.exists_cons_of_ne_nil between.nonempty
    have whole : text = before ++ c :: (letters ++ behind) := by simp [parts, spelled]
    have solid := between.solid c (spelled ▸ List.mem_cons_self)
    by_contra missing
    refine Bool.false_ne_true (solid.symm.trans ((ranges.blanks before c _ whole).mpr fun other member' covers => ?_))
    rw [Nat.zero_add] at start
    obtain ⟨begins, ends⟩ := covers
    have touch' : other.start ≤ word.stop := (start ▸ begins).trans word.start_le_stop
    obtain rfl : word = other :=
      eq_of_touching apart member (mem_locatedWords.mpr (ranges.standsAt member')) (start ▸ ends.le) touch'
    exact missing member'
  have perm : located.Perm (locatedWords text) :=
    (List.perm_ext_iff_of_nodup (nodup_of_apart ranges.apart) (nodup_of_apart apart)).mpr same
  have inOrder := (increasing_of_apart ranges.apart).imp Nat.le_of_lt
  exact eq_of_increasing Word.start perm inOrder (increasing_of_apart apart)

/-- **Locating words and splitting a text at white space agree**: both give the same words in the same order. The
ranges of the located words hold them, one behind the other, and leave out white space and nothing else; and there are
no other words with such ranges. -/
theorem locatedWords_ranges (text : Text) :
    (locatedWords text).map Word.text = words text
      ∧ ∀ located, WordRanges text located ↔ located = locatedWords text := by
  refine ⟨map_text_locatedWords text, fun located => ⟨WordRanges.unique, ?_⟩⟩
  rintro rfl
  exact wordRanges_locatedWords text

/-- The offsets count bytes, of which white space may have several. -/
example : locatedWords "é\u3000bc  d " = [⟨0, "é"⟩, ⟨5, "bc"⟩, ⟨9, "d"⟩] := by decide

end Relabel.Text
