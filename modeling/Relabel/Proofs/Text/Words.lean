/-
**Words of a text and their replacement.**

A text is white space and words in turn. `wordScript` is the script that keeps the white space and
replaces words; the lemmas about words are proved along its recursion.

* `Text.word_induction`: white space and words in turn.
* `Text.words_blank`, `Text.words_append`: the words of a text from left to right.
* `Text.map_text_locatedWords`: the located words of a text are its words.
* `Text.locatedWords_edits`: replacing the located words of a text is what its script does.
* `Text.words_new_wordScript`: the words of a text with its words replaced.
* `Text.words_join`: joined words are the words again.
-/

import Mathlib.Data.List.TakeWhile
import Relabel.Proofs.Text.Script
import Relabel.Text.Blank

namespace Relabel.Text

/-- A text without white space. -/
def Solid (text : Text) : Prop :=
  ∀ c ∈ text, isBlank c = false

/-- A text that is empty or begins with white space. -/
def Breaks (text : Text) : Prop :=
  ∀ c ∈ text.head?, isBlank c = true

theorem dropWhile_of_solid {text : Text} (solid : Solid text) : text.dropWhile isBlank = text := by
  cases text with
  | nil => rfl
  | cons c text => exact List.dropWhile_cons_of_neg (by simp [solid c List.mem_cons_self])

/-- A solid text is stripped already. -/
theorem strip_of_solid {text : Text} (solid : Solid text) : strip text = text := by
  have solidReverse : Solid text.reverse := fun c member => solid c (List.mem_reverse.mp member)
  rw [strip, trim, trimStart, trimEnd, dropWhile_of_solid solid, dropWhile_of_solid solidReverse,
    List.reverse_reverse]

/-! ### Words from left to right -/

theorem solid_takeWhile {c : Char} {text : Text} (solid : ¬ isBlank c = true) :
    Solid (c :: text.takeWhile (!isBlank ·)) := by
  intro d member
  rcases List.mem_cons.mp member with rfl | behind
  · simpa using solid
  · simpa using List.mem_takeWhile_imp behind

theorem breaks_dropWhile (text : Text) : Breaks (text.dropWhile (!isBlank ·)) := by
  intro d isHead
  cases split : text.dropWhile (!isBlank ·) with
  | nil => simp [split] at isHead
  | cons e rest =>
    have stopped := List.head_dropWhile_not (!isBlank ·) (l := text) (by simp [split])
    obtain rfl : e = d := by simpa [split] using isHead
    simpa [split] using stopped

/-- **Induction on the words of a text**: it is empty, or begins with white space, or with a word that white space or
the end of the text follows. -/
@[elab_as_elim]
theorem word_induction {motive : Text → Prop} (nil : motive [])
    (blank : ∀ c text, isBlank c = true → motive text → motive (c :: text))
    (word : ∀ word text, Solid word → word ≠ [] → Breaks text → motive text → motive (word ++ text)) (text : Text) :
    motive text := by
  induction size : text.length using Nat.strong_induction_on generalizing text with
  | _ n ih =>
    cases text with
    | nil => exact nil
    | cons c text =>
      by_cases isWhite : isBlank c = true
      · exact blank c text isWhite (ih text.length (by simp [← size]) text rfl)
      · have shorter : (text.dropWhile (!isBlank ·)).length < n :=
          size ▸ Nat.lt_succ_of_le (List.dropWhile_suffix _).length_le
        have parts := word (c :: text.takeWhile (!isBlank ·)) _ (solid_takeWhile isWhite) (List.cons_ne_nil _ _)
          (breaks_dropWhile text) (ih _ shorter _ rfl)
        rwa [List.cons_append, List.takeWhile_append_dropWhile] at parts

@[simp]
theorem words_nil : words [] = [] := rfl

theorem words_blank {c : Char} {text : Text} (blank : isBlank c = true) :
    words (c :: text) = words text := by
  simp [words, splitWhen, blank]

theorem splitWhen_ne_nil (isSeparator : Char → Bool) (text : Text) :
    splitWhen isSeparator text ≠ [] := by
  cases text with
  | nil => simp [splitWhen]
  | cons c text =>
    unfold splitWhen
    split
    · simp
    · split <;> simp

theorem splitWhen_append {word text piece : Text} {pieces : List Text} (solid : Solid word)
    (split : splitWhen isBlank text = piece :: pieces) :
    splitWhen isBlank (word ++ text) = (word ++ piece) :: pieces := by
  induction word with
  | nil => simpa using split
  | cons c word ih =>
    have behind := ih fun d member => solid d (List.mem_cons_of_mem c member)
    simp [splitWhen, solid c List.mem_cons_self, behind]

theorem splitWhen_of_breaks {text : Text} (breaks : Breaks text) :
    ∃ pieces, splitWhen isBlank text = [] :: pieces := by
  cases text with
  | nil => exact ⟨[], rfl⟩
  | cons c text => exact ⟨splitWhen isBlank text, by simp [splitWhen, breaks c rfl]⟩

/-- A word ends where white space begins. -/
theorem words_append {word text : Text} (solid : Solid word) (nonempty : word ≠ [])
    (breaks : Breaks text) : words (word ++ text) = word :: words text := by
  obtain ⟨pieces, split⟩ := splitWhen_of_breaks breaks
  rw [words, words, splitWhen_append solid split, split]
  simp [nonempty]

/-- The first word of a text that begins with a word. -/
theorem words_cons {c : Char} {text : Text} (solid : ¬ isBlank c = true) :
    words (c :: text)
      = (c :: text.takeWhile (!isBlank ·)) :: words (text.dropWhile (!isBlank ·)) := by
  rw [← words_append (solid_takeWhile solid) (List.cons_ne_nil _ _) (breaks_dropWhile text),
    List.cons_append, List.takeWhile_append_dropWhile]

/-- The pieces of a text hold its characters, but none that separates them. -/
theorem mem_splitWhen {isSeparator : Char → Bool} {text piece : Text} (member : piece ∈ splitWhen isSeparator text) :
    (∀ c ∈ piece, isSeparator c = false) ∧ ∀ c ∈ piece, c ∈ text := by
  induction text generalizing piece with
  | nil =>
    obtain rfl : piece = [] := by simpa [splitWhen] using member
    exact ⟨fun c inPiece => absurd inPiece List.not_mem_nil, fun c inPiece => inPiece⟩
  | cons c text ih =>
    unfold splitWhen at member
    split at member
    · rcases List.mem_cons.mp member with rfl | behind
      · exact ⟨fun d inPiece => absurd inPiece List.not_mem_nil,
          fun d inPiece => absurd inPiece List.not_mem_nil⟩
      · exact ⟨(ih behind).1, fun d inPiece => List.mem_cons_of_mem c ((ih behind).2 d inPiece)⟩
    next solid =>
      obtain ⟨first, pieces, parts⟩ := List.exists_cons_of_ne_nil (splitWhen_ne_nil isSeparator text)
      simp only [parts] at member ih
      rcases List.mem_cons.mp member with rfl | behind
      · obtain ⟨solidFirst, inText⟩ := ih List.mem_cons_self
        refine ⟨fun d inPiece => ?_, fun d inPiece => ?_⟩
        · rcases List.mem_cons.mp inPiece with rfl | later
          · simpa using solid
          · exact solidFirst d later
        · rcases List.mem_cons.mp inPiece with rfl | later
          · exact List.mem_cons_self
          · exact List.mem_cons_of_mem c (inText d later)
      · obtain ⟨solidPiece, inText⟩ := ih (List.mem_cons_of_mem first behind)
        exact ⟨solidPiece, fun d inPiece => List.mem_cons_of_mem c (inText d inPiece)⟩

/-! ### Pieces of a joined text -/

theorem splitOn_append (separator : Char) (front text : Text) :
    splitOn separator (front ++ separator :: text)
      = splitOn separator front ++ splitOn separator text := by
  unfold splitOn
  induction front with
  | nil => simp [splitWhen]
  | cons c front ih =>
    rw [List.cons_append, splitWhen, splitWhen, ih]
    split
    · rfl
    · cases pieces : splitWhen (· == separator) front with
      | nil => exact absurd pieces (splitWhen_ne_nil _ front)
      | cons piece pieces => rfl

theorem splitOn_of_notMem {separator : Char} {text : Text} (absent : separator ∉ text) :
    splitOn separator text = [text] := by
  unfold splitOn
  induction text with
  | nil => rfl
  | cons c text ih =>
    obtain ⟨other, behind⟩ := not_or.mp (List.mem_cons.not.mp absent)
    rw [splitWhen, if_neg (by simpa using Ne.symm other), ih behind]

/-- The pieces joined again are the text. -/
theorem join_splitOn (separator : Char) (text : Text) :
    join [separator] (splitOn separator text) = text := by
  unfold splitOn
  induction text with
  | nil => rfl
  | cons c text ih =>
    unfold splitWhen
    obtain ⟨piece, pieces, parts⟩ := List.exists_cons_of_ne_nil (splitWhen_ne_nil (· == separator) text)
    rw [parts] at ih ⊢
    split
    next separates =>
      obtain rfl : c = separator := eq_of_beq separates
      simpa [join, List.intercalate_cons_cons] using ih
    next => cases pieces <;> simpa [join, List.intercalate_cons_cons] using ih

/-! ### Words -/

/-- Each word is solid and not empty, and its characters are characters of the text. -/
theorem of_mem_words {text word : Text} (member : word ∈ words text) :
    Solid word ∧ word ≠ [] ∧ ∀ c ∈ word, c ∈ text := by
  simp only [words, List.mem_filter, decide_eq_true_eq] at member
  obtain ⟨solid, inText⟩ := mem_splitWhen member.1
  exact ⟨solid, member.2, inText⟩

/-- A text begins, white space aside, as its first word does. -/
theorem dropWhile_eq_cons_iff {text : Text} {c : Char} :
    (∃ rest, text.dropWhile isBlank = c :: rest)
      ↔ ∃ word words', words text = (c :: word) :: words' := by
  induction text with
  | nil => simp
  | cons d text ih =>
    by_cases blank : isBlank d = true
    · rw [List.dropWhile_cons_of_pos blank, words_blank blank]
      exact ih
    · rw [List.dropWhile_cons_of_neg blank, words_cons blank]
      simp

theorem mem_join {separator : Text} {pieces : List Text} {c : Char}
    (member : c ∈ join separator pieces) : c ∈ separator ∨ ∃ piece ∈ pieces, c ∈ piece := by
  induction pieces with
  | nil => simp [join] at member
  | cons piece pieces ih =>
    cases pieces with
    | nil => exact Or.inr ⟨piece, List.mem_cons_self, by simpa [join] using member⟩
    | cons second pieces =>
      simp only [join, List.intercalate_cons_cons, List.mem_append] at member ih
      rcases member with (here | between) | behind
      · exact Or.inr ⟨piece, List.mem_cons_self, here⟩
      · exact Or.inl between
      · refine (ih behind).imp id ?_
        rintro ⟨other, inPieces, inOther⟩
        exact ⟨other, List.mem_cons_of_mem piece inPieces, inOther⟩

/-- Joined words are the words again. -/
theorem words_join {tokens : List Text} (solid : ∀ token ∈ tokens, Solid token ∧ token ≠ []) :
    words (join " " tokens) = tokens := by
  induction tokens with
  | nil => rfl
  | cons token tokens ih =>
    obtain ⟨solidToken, nonempty⟩ := solid token List.mem_cons_self
    have behind := ih fun other member => solid other (List.mem_cons_of_mem token member)
    cases tokens with
    | nil =>
      have alone : words (token ++ []) = token :: words [] :=
        words_append solidToken nonempty (by simp [Breaks])
      simpa [join] using alone
    | cons second tokens =>
      have joined : join " " (token :: second :: tokens)
          = token ++ ' ' :: join " " (second :: tokens) := by
        simp [join, List.intercalate_cons_cons]
      have space : isBlank ' ' = true := by decide
      rw [joined, words_append solidToken nonempty (by simp [Breaks, space]), words_blank space, behind]

/-! ### Replacing words -/

/-- The script that replaces the words of a text. -/
def wordScript (rename : Text → Option Text) : Text → Script
  | [] => []
  | c :: text =>
    if isBlank c then ⟨[c], none⟩ :: wordScript rename text
    else
      let word := c :: text.takeWhile (!isBlank ·)
      ⟨word, rename word⟩ :: wordScript rename (text.dropWhile (!isBlank ·))
termination_by text => text.length
decreasing_by
  · simp
  · exact Nat.lt_succ_of_le (List.dropWhile_suffix _).length_le

variable {rename : Text → Option Text}

@[simp]
theorem old_wordScript (rename : Text → Option Text) (text : Text) :
    (wordScript rename text).old = text := by
  fun_induction wordScript rename text with
  | case1 => rfl
  | case2 c text blank ih => simp [ih]
  | case3 c text solid word ih => simp [ih, word, List.takeWhile_append_dropWhile]

/-! ### Located words -/

/-- One step of locating words. -/
theorem wordsFrom_cons (begun : Option (Nat × Text)) (offset : Nat) (c : Char) (text : Text) :
    wordsFrom begun offset (c :: text) =
      if isBlank c = true then
        (begun.map fun (start, reversed) => ⟨start, reversed.reverse⟩).toList
          ++ wordsFrom none (offset + c.utf8Size) text
      else
        wordsFrom (begun.elim (some (offset, [c])) fun (start, reversed) => some (start, c :: reversed))
          (offset + c.utf8Size) text := by
  rw [wordsFrom.eq_def]
  simp only
  generalize isBlank c = blank
  rcases begun with _ | ⟨start, reversed⟩ <;> cases blank <;> rfl

/-- White space in front of a word is passed. -/
theorem wordsFrom_blank {offset : Nat} {c : Char} {text : Text} (blank : isBlank c = true) :
    wordsFrom none offset (c :: text) = wordsFrom none (offset + c.utf8Size) text := by
  rw [wordsFrom_cons, if_pos blank]
  rfl

/-- White space ends a word that has begun. -/
theorem wordsFrom_of_breaks {start offset : Nat} {reversed text : Text} (breaks : Breaks text) :
    wordsFrom (some (start, reversed)) offset text
      = ⟨start, reversed.reverse⟩ :: wordsFrom none offset text := by
  cases text with
  | nil => rfl
  | cons c text =>
    rw [wordsFrom_cons, wordsFrom_cons, if_pos (breaks c rfl), if_pos (breaks c rfl)]
    rfl

/-- A word is read until white space begins. -/
theorem wordsFrom_begun {start offset : Nat} {reversed word text : Text} (solid : Solid word)
    (breaks : Breaks text) :
    wordsFrom (some (start, reversed)) offset (word ++ text)
      = ⟨start, reversed.reverse ++ word⟩ :: wordsFrom none (offset + byteLength word) text := by
  induction word generalizing offset reversed with
  | nil =>
    rw [List.nil_append, wordsFrom_of_breaks breaks, List.append_nil]
    rfl
  | cons c word ih =>
    have solidWord : Solid word := fun d member => solid d (List.mem_cons_of_mem c member)
    have notBlank : ¬ isBlank c = true := by simp [solid c List.mem_cons_self]
    rw [List.cons_append, wordsFrom_cons, if_neg notBlank, Option.elim_some, ih solidWord]
    simp [Nat.add_assoc]

/-- Words are located from left to right. -/
theorem wordsFrom_append {offset : Nat} {word text : Text} (solid : Solid word) (nonempty : word ≠ [])
    (breaks : Breaks text) :
    wordsFrom none offset (word ++ text)
      = ⟨offset, word⟩ :: wordsFrom none (offset + byteLength word) text := by
  obtain ⟨c, word, rfl⟩ := List.exists_cons_of_ne_nil nonempty
  have solidWord : Solid word := fun d member => solid d (List.mem_cons_of_mem c member)
  have notBlank : ¬ isBlank c = true := by simp [solid c List.mem_cons_self]
  rw [List.cons_append, wordsFrom_cons, if_neg notBlank, Option.elim_none,
    wordsFrom_begun solidWord breaks]
  simp [Nat.add_assoc]

/-- **The located words** of a text are its words. -/
theorem map_text_locatedWords (text : Text) : (locatedWords text).map Word.text = words text := by
  have general : ∀ offset, (wordsFrom none offset text).map Word.text = words text := by
    induction text using word_induction with
    | nil => exact fun _ => rfl
    | blank c text isWhite ih =>
      intro offset
      rw [wordsFrom_blank isWhite, ih, words_blank isWhite]
    | word word text solid nonempty breaks ih =>
      intro offset
      rw [wordsFrom_append solid nonempty breaks, words_append solid nonempty breaks, List.map_cons, ih]
  exact general 0

/-- **Replacing the located words of a text is what its script does.** -/
theorem locatedWords_edits (rename : Text → Option Text) (base : Nat) (text : Text) :
    (locatedWords text).filterMap (fun word => (rename word.text).map fun new =>
        (⟨base + word.start, base + word.stop, new⟩ : Edit))
      = (wordScript rename text).editsFrom base := by
  have general : ∀ offset, (wordsFrom none offset text).filterMap (fun word =>
        (rename word.text).map fun new => (⟨base + word.start, base + word.stop, new⟩ : Edit))
      = (wordScript rename text).editsFrom (base + offset) := by
    fun_induction wordScript rename text with
    | case1 => exact fun _ => rfl
    | case2 c text blank ih =>
      intro offset
      rw [wordsFrom_blank blank, ih]
      simp [Script.editsFrom, Nat.add_assoc]
    | case3 c text solid word ih =>
      intro offset
      have whole : c :: text = word ++ text.dropWhile (!isBlank ·) := by
        simp [word, List.takeWhile_append_dropWhile]
      have nonempty : word ≠ [] := List.cons_ne_nil _ _
      have solidWord : Solid word := solid_takeWhile solid
      clear_value word
      rw [whole, wordsFrom_append solidWord nonempty (breaks_dropWhile text), List.filterMap_cons, ih,
        Script.editsFrom, Word.stop]
      cases rename word <;> simp [Nat.add_assoc]
  simpa [locatedWords] using general 0

/-- The edits of words are in order. -/
theorem before_wordScript (rename : Text → Option Text) (text : Text) (offset : Nat) :
    ((wordScript rename text).editsFrom offset).Pairwise Edit.Before := by
  fun_induction wordScript rename text generalizing offset with
  | case1 => exact List.Pairwise.nil
  | case2 c text blank ih => exact ih _
  | case3 c text solid word ih =>
    have positive : 0 < byteLength word := byteLength_pos (List.cons_ne_nil _ _)
    refine List.pairwise_append.mpr ⟨?_, ih _, fun first here second later => ?_⟩
    · cases rename word <;> simp
    · obtain ⟨new, _, rfl⟩ : ∃ new, rename word = some new ∧ _ = first := by simpa using here
      have bounds := Script.bounds_of_mem later
      exact ⟨bounds.1, Nat.lt_of_lt_of_le (Nat.lt_add_of_pos_right positive) bounds.1⟩

/-- Replacing words keeps the white space in front. -/
theorem breaks_new_wordScript {text : Text} (breaks : Breaks text) :
    Breaks (wordScript rename text).new := by
  cases text with
  | nil => simpa [wordScript, Script.new] using breaks
  | cons c text =>
    have blank := breaks c rfl
    rw [wordScript, if_pos blank]
    intro d isHead
    obtain rfl : c = d := by simpa [Piece.new] using isHead
    exact blank

/-- Replacing words adds no characters but those of new words. -/
theorem mem_new_wordScript {text : Text} {c : Char} (member : c ∈ (wordScript rename text).new) :
    c ∈ text ∨ ∃ word new, rename word = some new ∧ c ∈ new := by
  fun_induction wordScript rename text with
  | case1 => exact Or.inl member
  | case2 d text blank ih =>
    rcases List.mem_append.mp member with here | later
    · exact Or.inl (List.mem_cons.mpr (Or.inl (by simpa [Piece.new] using here)))
    · exact (ih later).imp (List.mem_cons_of_mem d) id
  | case3 d text solid word ih =>
    have whole : d :: text = word ++ text.dropWhile (!isBlank ·) := by
      simp [word, List.takeWhile_append_dropWhile]
    rw [whole]
    rcases List.mem_append.mp member with here | later
    · cases renamed : rename word with
      | none => exact Or.inl (List.mem_append_left _ (by simpa [Piece.new, renamed] using here))
      | some new => exact Or.inr ⟨word, new, renamed, by simpa [Piece.new, renamed] using here⟩
    · exact (ih later).imp (List.mem_append_right word) id

/-- **The words of a text with its words replaced.** -/
theorem words_new_wordScript (solid : ∀ word new, rename word = some new → Solid new ∧ new ≠ [])
    (text : Text) :
    words (wordScript rename text).new = (words text).map fun word => (rename word).getD word := by
  fun_induction wordScript rename text with
  | case1 => rfl
  | case2 c text blank ih => simp [Piece.new, words_blank blank, ih]
  | case3 c text solidHead word ih =>
    have whole : c :: text = word ++ text.dropWhile (!isBlank ·) := by
      simp [word, List.takeWhile_append_dropWhile]
    have nonempty : word ≠ [] := List.cons_ne_nil _ _
    have solidWord : Solid word := solid_takeWhile solidHead
    have solidNew : Solid ((rename word).getD word) ∧ (rename word).getD word ≠ [] := by
      cases renamed : rename word with
      | none => exact ⟨solidWord, nonempty⟩
      | some new => exact solid word new renamed
    have breaks := breaks_dropWhile text
    rw [Script.new_cons, Piece.new,
      words_append solidNew.1 solidNew.2 (breaks_new_wordScript breaks), ih, whole,
      words_append solidWord nonempty breaks, List.map_cons]

end Relabel.Text
