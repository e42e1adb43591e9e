/-
**Markings of documents whose captured values lie apart.**

If any two values that are captured on different surfaces have a character between them, then one
marking says what all matchers capture. It is found from left to right: either no value begins behind
the first character of the text, or exactly one does, and then the other surfaces have nothing before
its end.

* `Segments.Apart`: the values of two cuts lie apart.
* `Segments.Keeps`, `Segments.exists_fewer`: a cut with fewer values.
* `Marking.exists_mark`: the first mark, the step.
* `Marking.exists_of_apart`: the marking, by induction on the length of the text.
-/

import Relabel.Proofs.Markup.Marking

namespace Relabel

namespace Segments

/-- Any two values of two cuts of a text have a character between them. -/
def Apart (first second : Segments) : Prop :=
  ∀ x v y x' v' y', first.Captures x v y → second.Captures x' v' y' →
    x.length + v.length < x'.length ∨ x'.length + v'.length < x.length

/-- Each value has a character before it. -/
def Spaced (segments : Segments) : Prop :=
  ∀ segment ∈ segments.found, segment.gap ≠ []

/-- Text before the first value is text in front. -/
theorem exists_prepend {segments : Segments} {front behind : Text} (spaced : segments.Spaced)
    (whole : segments.text = front ++ behind)
    (free : ∀ segment ∈ segments.found.head?, front.length < segment.gap.length) :
    ∃ later : Segments, later.prepend front = segments ∧ later.text = behind ∧ later.Spaced := by
  rcases segments with ⟨_ | ⟨⟨gap, value, quote, name⟩, found⟩, rest⟩
  · exact ⟨⟨[], behind⟩, by simpa [prepend, text] using whole.symm, by simp [text], by simp [Spaced]⟩
  · have long : front.length < gap.length := free _ rfl
    have parts : gap ++ (value ++ text ⟨found, rest⟩) = front ++ behind := by
      simpa [text] using whole
    rcases List.append_eq_append_iff.mp parts with ⟨_, rfl, _⟩ | ⟨gap', rfl, later⟩
    · simp only [List.length_append] at long
      omega
    · have nonempty : gap' ≠ [] := by
        rintro rfl
        simp at long
      refine ⟨⟨⟨gap', value, quote, name⟩ :: found, rest⟩, rfl, ?_, ?_⟩
      · rw [later]
        simp [text]
      · intro segment member
        rcases List.mem_cons.mp member with rfl | behind
        · exact nonempty
        · exact spaced segment (List.mem_cons_of_mem _ behind)

/-- The first value, and the cut behind it. -/
theorem exists_push {segments : Segments} {segment : Segment} (spaced : segments.Spaced)
    (isFirst : segment ∈ segments.found.head?) :
    ∃ later : Segments, later.push segment = segments ∧ later.Spaced := by
  rcases segments with ⟨found, rest⟩
  obtain ⟨found, rfl⟩ : ∃ more, found = segment :: more := ⟨_, List.eq_cons_of_mem_head? isFirst⟩
  exact ⟨⟨found, rest⟩, rfl, fun other member => spaced other (List.mem_cons_of_mem _ member)⟩

/-- A value has text before it. -/
theorem Captures.before_ne_nil {segments : Segments} {x v y : Text} (spaced : segments.Spaced)
    (captured : segments.Captures x v y) : x ≠ [] := by
  rcases segments with ⟨_ | ⟨segment, found⟩, rest⟩
  · exact captured.elim
  · have nonempty := spaced segment List.mem_cons_self
    rcases captured with ⟨rfl, _⟩ | ⟨further, rfl, _⟩
    · exact nonempty
    · simp [nonempty]

theorem Spaced.prepend {segments : Segments} (spaced : segments.Spaced) (front : Text) :
    (segments.prepend front).Spaced := by
  rcases segments with ⟨_ | ⟨segment, found⟩, rest⟩
  · exact fun _ member => absurd member List.not_mem_nil
  · intro other member
    rcases List.mem_cons.mp member with rfl | behind
    · exact fun empty => spaced segment List.mem_cons_self (List.append_eq_nil_iff.mp empty).2
    · exact spaced other (List.mem_cons_of_mem _ behind)

theorem Spaced.push {segment : Segment} {segments : Segments} (nonempty : segment.gap ≠ [])
    (spaced : segments.Spaced) : (segments.push segment).Spaced := by
  intro other member
  rcases List.mem_cons.mp member with rfl | behind
  · exact nonempty
  · exact spaced other behind

/-- The values of `fewer` are those of `segments` that are kept. -/
def Keeps (kept : Text → Text → Prop) (segments fewer : Segments) : Prop :=
  fewer.text = segments.text ∧ ∀ x v y, fewer.Captures x v y ↔ segments.Captures x v y ∧ kept x v

section Keeps

variable {kept : Text → Text → Prop} {segment : Segment} {segments fewer : Segments}
  (keeps : Keeps (fun x v => kept (segment.gap ++ segment.value ++ x) v) segments fewer)

include keeps

theorem Keeps.push (keep : kept segment.gap segment.value) :
    Keeps kept (segments.push segment) (fewer.push segment) := by
  obtain ⟨whole, captures⟩ := keeps
  refine ⟨by rw [text_push, text_push, whole], fun x v y => ?_⟩
  rw [captures_push, captures_push, whole]
  constructor
  · rintro (⟨rfl, rfl, rfl⟩ | ⟨further, rfl, found⟩)
    · exact ⟨Or.inl ⟨rfl, rfl, rfl⟩, keep⟩
    · obtain ⟨found, keep⟩ := (captures _ _ _).mp found
      exact ⟨Or.inr ⟨further, rfl, found⟩, keep⟩
  · rintro ⟨first | ⟨further, rfl, found⟩, keep⟩
    · exact Or.inl first
    · exact Or.inr ⟨further, rfl, (captures _ _ _).mpr ⟨found, keep⟩⟩

theorem Keeps.skip (drop : ¬ kept segment.gap segment.value) :
    Keeps kept (segments.push segment) (fewer.prepend (segment.gap ++ segment.value)) := by
  obtain ⟨whole, captures⟩ := keeps
  refine ⟨by rw [text_prepend, text_push, whole, List.append_assoc], fun x v y => ?_⟩
  rw [captures_prepend, captures_push]
  constructor
  · rintro ⟨further, rfl, found⟩
    obtain ⟨found, keep⟩ := (captures _ _ _).mp found
    exact ⟨Or.inr ⟨further, rfl, found⟩, keep⟩
  · rintro ⟨⟨rfl, rfl, _⟩ | ⟨further, rfl, found⟩, keep⟩
    · exact absurd keep drop
    · exact ⟨further, rfl, (captures _ _ _).mpr ⟨found, keep⟩⟩

end Keeps

/-- Of the values of a cut any may be left to the text between the others. -/
theorem exists_fewer (kept : Text → Text → Prop) (segments : Segments) (spaced : segments.Spaced) :
    ∃ fewer : Segments, Keeps kept segments fewer ∧ fewer.Spaced := by
  rcases segments with ⟨found, rest⟩
  induction found generalizing kept with
  | nil => exact ⟨⟨[], rest⟩, ⟨rfl, fun x v y => (and_iff_left_of_imp False.elim).symm⟩, spaced⟩
  | cons segment found ih =>
    obtain ⟨fewer, keeps, later⟩ :=
      ih (fun x v => kept (segment.gap ++ segment.value ++ x) v)
        fun other member => spaced other (List.mem_cons_of_mem _ member)
    by_cases keep : kept segment.gap segment.value
    · exact ⟨_, keeps.push keep, later.push (spaced segment List.mem_cons_self)⟩
    · exact ⟨_, keeps.skip keep, later.prepend _⟩

end Segments

namespace Marking

/-- A value behind a mark has the text of the mark before it. -/
theorem captures_segmentsOf {s : Surface} {behind : Segments} {x v y : Text} (mark : Mark)
    (captured : behind.Captures x v y) :
    (segmentsOf s mark behind).Captures (mark.text ++ x) v y := by
  rcases mark with ⟨c, _ | hole⟩
  · exact Segments.captures_prepend.mpr ⟨x, by simp [Mark.text], captured⟩
  · by_cases own : hole.surface = s
    · simp only [segmentsOf, own, if_true]
      exact Segments.captures_push.mpr (Or.inr ⟨x, by simp [Mark.text], captured⟩)
    · simp only [segmentsOf, own, if_false]
      exact Segments.captures_prepend.mpr ⟨x, by simp [Mark.text], captured⟩

section Cuts

variable {text : Text} {cuts : Surface → Segments} (texts : ∀ s, (cuts s).text = text)
  (spaced : ∀ s, (cuts s).Spaced) (apart : ∀ s s', s ≠ s' → (cuts s).Apart (cuts s'))

include texts spaced

/-- The first mark of a text in which no value begins behind the first character. -/
theorem exists_mark_plain {c : Char} {rest : Text} (split : text = c :: rest)
    (plain : ∀ s, ∀ segment ∈ (cuts s).found.head?, segment.gap ≠ [c]) (s : Surface) :
    ∃ later : Segments, segmentsOf s ⟨c, none⟩ later = cuts s ∧ later.text = rest ∧ later.Spaced := by
  refine Segments.exists_prepend (spaced s) ((texts s).trans split) fun segment isFirst => ?_
  obtain ⟨later, pushed, _⟩ := Segments.exists_push (spaced s) isFirst
  obtain ⟨d, gap, begun⟩ :=
    List.exists_cons_of_ne_nil (spaced s segment (List.mem_of_mem_head? isFirst))
  have whole := (texts s).trans split
  rw [← pushed, Segments.text_push, begun] at whole
  obtain rfl : d = c := (List.cons.inj whole).1
  have more : gap ≠ [] := by
    rintro rfl
    exact plain s segment isFirst begun
  have positive := List.length_pos_iff.mpr more
  simp only [begun, List.length_cons, List.length_nil]
  omega

include apart

/-- The first mark of a text in which a value begins behind the first character: the other surfaces
have nothing before its end. -/
theorem exists_mark_filled {s : Surface} {segment : Segment} {c : Char}
    (isFirst : segment ∈ (cuts s).found.head?) (begun : segment.gap = [c]) :
    ∃ (mark : Mark) (behind : Text), text = mark.text ++ behind ∧ ∀ s, ∃ later : Segments,
      segmentsOf s mark later = cuts s ∧ later.text = behind ∧ later.Spaced := by
  obtain ⟨later, pushed, laterSpaced⟩ := Segments.exists_push (spaced s) isFirst
  obtain ⟨gap, value, quote, name⟩ := segment
  obtain rfl : gap = [c] := begun
  have whole : text = [c] ++ value ++ later.text := by rw [← texts s, ← pushed, Segments.text_push]
  have captured : (cuts s).Captures [c] value later.text :=
    pushed ▸ Segments.captures_push.mpr (Or.inl ⟨rfl, rfl, rfl⟩)
  refine ⟨⟨c, some ⟨s, value, quote, name⟩⟩, later.text, by simpa [Mark.text] using whole,
    fun s' => ?_⟩
  by_cases own : s = s'
  · subst own
    exact ⟨later, by simpa [segmentsOf] using pushed, rfl, laterSpaced⟩
  · simp only [segmentsOf, own, if_false]
    refine Segments.exists_prepend (spaced s') ((texts s').trans (by simpa using whole)) ?_
    intro segment isHead
    obtain ⟨more, pushed', _⟩ := Segments.exists_push (spaced s') isHead
    have captured' : (cuts s').Captures segment.gap segment.value more.text :=
      pushed' ▸ Segments.captures_push.mpr (Or.inl ⟨rfl, rfl, rfl⟩)
    have positive := List.length_pos_iff.mpr (captured'.before_ne_nil (spaced s'))
    rcases apart s s' own _ _ _ _ _ _ captured captured' with before | behind
    · simp only [List.length_cons, List.length_nil] at before ⊢
      omega
    · simp only [List.length_cons, List.length_nil] at behind
      omega

/-- **The first mark of a text.** -/
theorem exists_mark (nonempty : text ≠ []) :
    ∃ (mark : Mark) (behind : Text), text = mark.text ++ behind ∧ ∀ s, ∃ later : Segments,
      segmentsOf s mark later = cuts s ∧ later.text = behind ∧ later.Spaced := by
  obtain ⟨c, rest, split⟩ := List.exists_cons_of_ne_nil nonempty
  by_cases begins : ∃ s, ∃ segment ∈ (cuts s).found.head?, segment.gap = [c]
  · obtain ⟨s, segment, isFirst, begun⟩ := begins
    exact exists_mark_filled texts spaced apart isFirst begun
  · refine ⟨⟨c, none⟩, rest, by simpa [Mark.text] using split, ?_⟩
    refine exists_mark_plain texts spaced split fun s segment isFirst begun => ?_
    exact begins ⟨s, segment, isFirst, begun⟩

end Cuts

/-- **One marking for cuts whose values lie apart.** -/
theorem exists_of_apart {text : Text} {cuts : Surface → Segments} (texts : ∀ s, (cuts s).text = text)
    (spaced : ∀ s, (cuts s).Spaced) (apart : ∀ s s', s ≠ s' → (cuts s).Apart (cuts s')) :
    ∃ marking : Marking, marking.text = text ∧ ∀ s, marking.segments s = cuts s := by
  induction size : text.length using Nat.strong_induction_on generalizing text cuts with
  | _ n ih =>
    by_cases empty : text = []
    · subst empty
      refine ⟨[], rfl, fun s => ?_⟩
      have whole := texts s
      cases cut : cuts s with
      | mk found rest =>
        rcases found with _ | ⟨segment, found⟩
        · simp [cut, Segments.text] at whole
          simp [segments, whole]
        · have nonempty := spaced s segment (by simp [cut])
          simp [cut, Segments.text, nonempty] at whole
    · obtain ⟨mark, behind, rfl, steps⟩ := exists_mark texts spaced apart empty
      choose later parts texts' spaced' using steps
      have apart' : ∀ s s', s ≠ s' → (later s).Apart (later s') := by
        intro s s' different x v y x' v' y' captured captured'
        have lengths := apart s s' different _ _ _ _ _ _ (parts s ▸ captures_segmentsOf mark captured)
          (parts s' ▸ captures_segmentsOf mark captured')
        simp only [List.length_append] at lengths
        omega
      have shorter : behind.length < n := by
        rw [← size]
        simp [Mark.text]
      obtain ⟨marking, whole, cut⟩ := ih _ shorter texts' spaced' apart' rfl
      refine ⟨mark :: marking, by simp [whole], fun s => ?_⟩
      rw [segments, cut, parts]

end Marking

end Relabel
