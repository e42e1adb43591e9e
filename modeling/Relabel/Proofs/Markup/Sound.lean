/-
**Filling all holes of a document anew.**

A marking is *sound* if it says what the matchers of the watched surfaces capture. Filling a hole anew
keeps a marking sound, hence so does filling any number of them.

* `Marking.Sound`: soundness and that values are kept apart.
* `Marking.Sound.fill_hole`: one hole, the step.
* `Marking.Sound.fill`: all holes, by induction on the marking.
* `Marking.Sound.text_pass`: replacing what one matcher captures fills the holes of one surface.
-/

import Relabel.Proofs.Markup.Refill

namespace Relabel

/-! ### New values -/

/-- The hole with a new value. -/
def Hole.fill (renew : Surface → Text → Text) (hole : Hole) : Hole :=
  { hole with value := renew hole.surface hole.value }

/-- The mark with a new value in its hole. -/
def Mark.fill (renew : Surface → Text → Text) (mark : Mark) : Mark :=
  { mark with hole := mark.hole.map (Hole.fill renew) }

/-- New values on some surfaces only. -/
def Surface.only (some : List Surface) (renew : Surface → Text → Text) (s : Surface) (value : Text) :
    Text :=
  if s ∈ some then renew s value else value

namespace Marking

/-- The marking with new values in its holes. -/
def fill (renew : Surface → Text → Text) (marking : Marking) : Marking :=
  marking.map (Mark.fill renew)

variable {renew : Surface → Text → Text} {marking : Marking}

@[simp]
theorem fill_nil : fill renew [] = [] := rfl

@[simp]
theorem fill_cons (mark : Mark) : fill renew (mark :: marking) = mark.fill renew :: marking.fill renew :=
  rfl

/-- The holes with new values. -/
theorem holes_fill : (marking.fill renew).holes = marking.holes.map (Hole.fill renew) := by
  rw [holes, holes, fill, List.filterMap_map, List.map_filterMap]
  rfl

/-- Filling twice. -/
theorem fill_fill (renew' : Surface → Text → Text) :
    (marking.fill renew).fill renew' = marking.fill fun s value => renew' s (renew s value) := by
  rw [fill, fill, fill, List.map_map]
  refine List.map_congr_left fun mark _ => ?_
  rcases mark with ⟨c, _ | hole⟩ <;> rfl

@[simp]
theorem holes_cons (mark : Mark) : holes (mark :: marking) = mark.hole.toList ++ marking.holes := by
  rcases mark with ⟨c, _ | hole⟩ <;> rfl

@[simp]
theorem holes_append (first second : Marking) :
    holes (first ++ second) = first.holes ++ second.holes :=
  List.filterMap_append

/-- The new values of one surface. -/
theorem values_fill (s : Surface) :
    ((marking.fill renew).segments s).values = (marking.segments s).values.map (renew s) := by
  induction marking with
  | nil => rfl
  | cons mark marking ih =>
    rcases mark with ⟨c, _ | hole⟩
    · simpa [fill, Mark.fill, segments, segmentsOf] using ih
    · by_cases own : hole.surface = s
      · subst own
        simpa [fill, Mark.fill, Hole.fill, segments, segmentsOf] using ih
      · simpa [fill, Mark.fill, Hole.fill, segments, segmentsOf, own] using ih

/-- Replacing the values of one surface fills its holes. -/
theorem substitute_segments (s : Surface) (replace : Text → Option Text) :
    (marking.segments s).substitute (fun found => replace found.value)
      = (marking.fill (Surface.only [s] fun _ value => (replace value).getD value)).text := by
  induction marking with
  | nil => rfl
  | cons mark marking ih =>
    rw [fill_cons, text_cons, ← ih]
    rcases mark with ⟨c, _ | hole⟩
    · exact Segments.substitute_prepend [c] _ _
    · by_cases own : hole.surface = s
      · simp [segments, segmentsOf, own, Segments.substitute_push, Mark.fill, Mark.text, Hole.fill,
          Surface.only]
      · simp [segments, segmentsOf, own, Segments.substitute_prepend, Mark.fill, Mark.text, Hole.fill,
          Surface.only]

/-! ### Soundness -/

/-- The marking says what the matchers of the watched surfaces capture, and what is captured holds none
of the characters that could make constructs overlap. -/
structure Sound (watched : Surface → Prop) (marking : Marking) : Prop where
  cuts : ∀ s, watched s → s.matcher.cut marking.text = marking.segments s
  admitted : ∀ hole ∈ marking.holes, hole.surface.admits hole.value

theorem Sound.mono {watched watched' : Surface → Prop} (sound : Sound watched marking)
    (fewer : ∀ s, watched' s → watched s) : Sound watched' marking :=
  ⟨fun s isWatched => sound.cuts s (fewer s isWatched), sound.admitted⟩

/-- What is asked of a new value in a hole of a watched surface. -/
structure Refillable (watched : Surface → Prop) (s : Surface) (v v' : Text) : Prop where
  isWatched : watched s
  refill : Refill s v v'
  calm : s = .style → watched .url → UrlRefill v v'

variable {watched : Surface → Prop} {before after : Marking} {c : Char} {hole : Hole} {new : Text}

/-- A hole with the surroundings of its surface may be filled anew. -/
theorem Sound.fill_sited (sound : Sound watched (before ++ ⟨c, some hole⟩ :: after))
    (site : Site hole.surface (before.text ++ [c]) hole.value after.text)
    (refill : Refill hole.surface hole.value new)
    (calm : hole.surface = .style → watched .url → UrlRefill hole.value new) :
    Sound watched (before ++ ⟨c, some { hole with value := new }⟩ :: after) := by
  have oldText : text (before ++ ⟨c, some hole⟩ :: after)
      = (before.text ++ [c]) ++ hole.value ++ after.text := by simp [Mark.text]
  have newText : text (before ++ ⟨c, some { hole with value := new }⟩ :: after)
      = (before.text ++ [c]) ++ new ++ after.text := by simp [Mark.text]
  have size : (before.text ++ [c]).length = before.text.length + 1 := by simp
  have admitted : hole.surface.admits hole.value := sound.admitted hole (by simp)
  refine ⟨fun s isWatched => ?_, fun other member => ?_⟩
  · have old := sound.cuts s isWatched
    have good : ∀ value ∈ (s.matcher.cut (text (before ++ ⟨c, some hole⟩ :: after))).values,
        s.admits value := by
      intro value member
      rw [old] at member
      obtain ⟨other, inHoles, rfl, rfl⟩ := mem_values member
      exact sound.admitted other inHoles
    have located := located_segments s before after c hole
    have stable := site.stable admitted refill fun isStyle isUrl => calm isStyle (isUrl ▸ isWatched)
    rw [← old, oldText, ← size] at located
    rw [oldText] at good old
    rw [newText, stable.cut_edit (by simp) located good, old, size]
    exact edit_segments s before after c hole new
  · simp only [holes_append, holes_cons, Option.toList_some, List.mem_append, List.mem_singleton]
      at member
    rcases member with first | rfl | last
    · exact sound.admitted other (by simp [first])
    · exact refill.admitted
    · exact sound.admitted other (by simp [last])

/-- **Filling one hole anew.** -/
theorem Sound.fill_hole (sound : Sound watched (before ++ ⟨c, some hole⟩ :: after))
    (refillable : Refillable watched hole.surface hole.value new) :
    Sound watched (before ++ ⟨c, some { hole with value := new }⟩ :: after) := by
  have captured := captures_segments before after c hole
  rw [← sound.cuts hole.surface refillable.isWatched] at captured
  exact sound.fill_sited (site_of_captures captured) refillable.refill refillable.calm

/-- **Filling all holes anew.** The induction is on the marks that are still to be filled. -/
theorem Sound.fill (sound : Sound watched marking)
    (refillable : ∀ hole ∈ marking.holes, renew hole.surface hole.value ≠ hole.value →
      Refillable watched hole.surface hole.value (renew hole.surface hole.value)) :
    Sound watched (marking.fill renew) := by
  have general : ∀ done, Sound watched (done ++ marking) → Sound watched (done ++ marking.fill renew) := by
    clear sound
    induction marking with
    | nil => exact fun done sound => sound
    | cons mark marking ih =>
      intro done sound
      have later : ∀ hole ∈ holes marking, renew hole.surface hole.value ≠ hole.value →
          Refillable watched hole.surface hole.value (renew hole.surface hole.value) :=
        fun hole member => refillable hole (by simp [member])
      have step : Sound watched (done ++ [mark.fill renew] ++ marking) := by
        rcases mark with ⟨d, _ | hole⟩
        · simpa [Mark.fill] using sound
        · by_cases same : renew hole.surface hole.value = hole.value
          · simpa [Mark.fill, Hole.fill, same] using sound
          · simpa [Mark.fill, Hole.fill] using sound.fill_hole (refillable hole (by simp) same)
      simpa [Marking.fill] using ih later (done ++ [mark.fill renew]) step
  exact general [] sound

/-- **One pass.** Replacing what the matcher of one surface captures fills the holes of that surface. -/
theorem Sound.text_pass (sound : Sound watched marking) {s : Surface} (isWatched : watched s)
    (replace : Text → Option Text) :
    (s.matcher.cut marking.text).substitute (fun found => replace found.value)
      = (marking.fill (Surface.only [s] fun _ value => (replace value).getD value)).text := by
  rw [sound.cuts s isWatched, substitute_segments]

end Marking

end Relabel
