/-
**Where the words of a text stand.**

A word of a text is a maximal run without white space: before it stands white space or nothing, and so it
does behind it. These are the words that are located, with the offsets at which they are located.

* `Text.StandsAt`: a maximal run without white space, with its offset.
* `Text.standsAt_blank`, `Text.standsAt_append`: the words of a text from left to right.
* `Text.mem_locatedWords`: located words are the maximal runs without white space.
-/

import Relabel.Proofs.Scan.Reading
import Relabel.Proofs.Text.Words

namespace Relabel.Text

/-- Between `before` and `behind`, `word` is a maximal run without white space. -/
structure IsWordBetween (before word behind : Text) : Prop where
  solid : Solid word
  nonempty : word ≠ []
  opened : ∀ c ∈ before.getLast?, isBlank c = true
  closed : Breaks behind

/-- A word of a text that begins at byte `offset`, with the place where it stands. -/
def StandsAt (offset : Nat) (text : Text) (word : Word) : Prop :=
  ∃ before behind, text = before ++ word.text ++ behind ∧ IsWordBetween before word.text behind
    ∧ word.start = offset + byteLength before

variable {offset : Nat} {text before behind word : Text}

/-- A word does not begin where white space begins. -/
theorem Breaks.not_solid (breaks : Breaks (word ++ text)) (nonempty : word ≠ []) : ¬ Solid word := by
  obtain ⟨c, word, rfl⟩ := List.exists_cons_of_ne_nil nonempty
  intro solid
  exact Bool.false_ne_true ((solid c List.mem_cons_self).symm.trans (breaks c rfl))

/-- Where white space begins, something stands before a word. -/
theorem IsWordBetween.before_ne_nil (between : IsWordBetween before word behind)
    (breaks : Breaks (before ++ word ++ behind)) : before ≠ [] := by
  rintro rfl
  rw [List.nil_append] at breaks
  exact breaks.not_solid between.nonempty between.solid

/-- A maximal run without white space is read up to its end. -/
theorem takeWhile_of_breaks (solid : Solid word) (breaks : Breaks text) :
    (word ++ text).takeWhile (!isBlank ·) = word :=
  (takeWhile_dropWhile_append (fun c member => by simp [solid c member])
    fun c isHead => by simp [breaks c isHead]).1

/-- What stands before a word matters only at its end. -/
theorem isWordBetween_append (nonempty : before ≠ []) (front : Text) :
    IsWordBetween (front ++ before) word behind ↔ IsWordBetween before word behind := by
  have last : (front ++ before).getLast? = before.getLast? := List.getLast?_append_of_ne_nil _ nonempty
  constructor
  · intro between
    exact { between with opened := last ▸ between.opened }
  · intro between
    exact { between with opened := last.symm ▸ between.opened }

theorem isWordBetween_blank {c : Char} (blank : isBlank c = true) :
    IsWordBetween (c :: before) word behind ↔ IsWordBetween before word behind := by
  by_cases empty : before = []
  · subst empty
    constructor
    · intro between
      exact { between with opened := by simp }
    · intro between
      exact { between with opened := by simp [blank] }
  · exact isWordBetween_append empty [c]

theorem not_standsAt_nil (word : Word) : ¬ StandsAt offset [] word := by
  rintro ⟨before, behind, parts, between, _⟩
  simp [between.nonempty] at parts

/-- White space in front moves the words. -/
theorem standsAt_blank {c : Char} {word : Word} (blank : isBlank c = true) :
    StandsAt offset (c :: text) word ↔ StandsAt (offset + c.utf8Size) text word := by
  constructor
  · rintro ⟨before, behind, parts, between, start⟩
    cases before with
    | nil =>
      have breaks : Breaks (word.text ++ behind) := by
        have same : c :: text = word.text ++ behind := parts
        rw [← same]
        intro d isHead
        exact Option.some.inj isHead ▸ blank
      exact absurd between.solid (breaks.not_solid between.nonempty)
    | cons d before =>
      obtain ⟨rfl, rest⟩ := List.cons.inj parts
      exact ⟨before, behind, rest, (isWordBetween_blank blank).mp between, by simp [start, Nat.add_assoc]⟩
  · rintro ⟨before, behind, rfl, between, start⟩
    exact ⟨c :: before, behind, rfl, (isWordBetween_blank blank).mpr between, by simp [start, Nat.add_assoc]⟩

/-- A maximal run without white space is the first word. -/
theorem standsAt_append {first rest : Text} {word : Word} (solid : Solid first) (nonempty : first ≠ [])
    (breaks : Breaks rest) :
    StandsAt offset (first ++ rest) word
      ↔ word = ⟨offset, first⟩ ∨ StandsAt (offset + byteLength first) rest word := by
  constructor
  · rintro ⟨before, behind, parts, between, start⟩
    cases last : before.getLast? with
    | none =>
      obtain rfl := List.getLast?_eq_none_iff.mp last
      have same := takeWhile_of_breaks solid breaks
      rw [parts, List.nil_append, takeWhile_of_breaks between.solid between.closed] at same
      rcases word with ⟨begins, letters⟩
      obtain rfl : letters = first := same
      obtain rfl : begins = offset := start
      exact Or.inl rfl
    | some c =>
      have blank := between.opened c last
      have inBefore : c ∈ before := List.mem_of_getLast? last
      have absent : c ∉ first := fun inFirst => by simp [solid c inFirst] at blank
      rw [List.append_assoc] at parts
      obtain ⟨gap, rfl, rfl⟩ := exists_behind parts inBefore absent
      have gapped : gap ≠ [] := by
        rintro rfl
        rw [List.append_nil] at inBefore
        exact absent inBefore
      exact Or.inr ⟨gap, behind, by simp, (isWordBetween_append gapped first).mp between,
        by simp [start, Nat.add_assoc]⟩
  · rintro (rfl | ⟨before, behind, rfl, between, start⟩)
    · exact ⟨[], rest, rfl, ⟨solid, nonempty, by simp, breaks⟩, rfl⟩
    · have gapped : before ≠ [] := between.before_ne_nil breaks
      exact ⟨first ++ before, behind, by simp, (isWordBetween_append gapped first).mpr between,
        by simp [start, Nat.add_assoc]⟩

/-- **Words are located where they stand.** -/
theorem mem_wordsFrom {word : Word} : word ∈ wordsFrom none offset text ↔ StandsAt offset text word := by
  induction text using word_induction generalizing offset with
  | nil => exact iff_of_false List.not_mem_nil (not_standsAt_nil word)
  | blank c text isWhite ih => rw [wordsFrom_blank isWhite, standsAt_blank isWhite, ih]
  | word first rest solid nonempty breaks ih =>
    rw [wordsFrom_append solid nonempty breaks, List.mem_cons, standsAt_append solid nonempty breaks, ih]

theorem mem_locatedWords {word : Word} : word ∈ locatedWords text ↔ StandsAt 0 text word :=
  mem_wordsFrom

/-- Where a text begins moves its words. -/
theorem standsAt_iff {word : Word} :
    StandsAt offset text word ↔ ∃ located ∈ locatedWords text, word = ⟨offset + located.start, located.text⟩ := by
  constructor
  · rintro ⟨before, behind, parts, between, start⟩
    refine ⟨⟨byteLength before, word.text⟩, mem_locatedWords.mpr ⟨before, behind, parts, between, by simp⟩, ?_⟩
    rw [← start]
  · rintro ⟨located, member, rfl⟩
    obtain ⟨before, behind, parts, between, start⟩ := mem_locatedWords.mp member
    exact ⟨before, behind, parts, between, by simp [start]⟩

end Relabel.Text
