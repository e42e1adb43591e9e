/-
**Cutting a text before and after a change.**

A change replaces the region `v` of the text `x ++ v ++ y` by `v'`. The cut of the new text is the cut
of the old one with the region replaced, provided that a matcher behaves alike on both texts at each
place before the region (`Tracks`), and that no match begins within either region.

* `Matcher.cutFrom_none`, `Matcher.cutFrom_some`: one step of cutting.
* `Matcher.captures_cut`: each captured value comes from a match.
* `Matcher.Commutes.cons`, `Matcher.Commutes.behind`: what is passed over in front of the region.
* `Matcher.Stable.cut_edit`: cutting commutes with a change.
-/

import Relabel.Proofs.Scan.Segments

namespace Relabel

namespace Matcher

variable {matcher : Matcher}

/-! ### One step -/

/-- The text before the first value only lengthens the first gap. -/
theorem cutFrom_eq_prepend (place : Place) (gap text : Text) :
    matcher.cutFrom place gap text = (matcher.cutFrom place [] text).prepend gap.reverse := by
  induction size : text.length using Nat.strong_induction_on generalizing place gap text with
  | _ n ih =>
    cases text with
    | nil => simp [cutFrom, Segments.prepend]
    | cons c rest =>
      rw [cutFrom, cutFrom]
      split
      next missed =>
        have shorter : rest.length < n := by simp [← size]
        rw [ih _ shorter (.after c) (c :: gap) rest rfl, ih _ shorter (.after c) [c] rest rfl]
        simp
      next hit found => simp [Segments.prepend]

/-- Where nothing is matched, a character joins the gap. -/
theorem cutFrom_none {place : Place} {c : Char} {rest : Text}
    (missed : matcher.run place (c :: rest) = none) :
    matcher.cutFrom place [] (c :: rest)
      = (matcher.cutFrom (.after c) [] rest).prepend [c] := by
  rw [cutFrom, cutFrom_eq_prepend (.after c) [c] rest]
  split
  · rfl
  next hit found => simp [missed] at found

/-- Nothing is matched at the end of a text. -/
theorem text_ne_nil {place : Place} {text : Text} {hit : Hit}
    (found : matcher.run place text = some hit) : text ≠ [] := by
  have lead := matcher.advances _ _ _ found
  rw [matcher.covers _ _ _ found]
  simp [Hit.text, lead]

/-- A match becomes a segment. -/
theorem cutFrom_some {place : Place} {text : Text} {hit : Hit}
    (found : matcher.run place text = some hit) :
    matcher.cutFrom place [] text
      = ((matcher.cutFrom .joined [] hit.rest).prepend hit.tail).push
          ⟨hit.lead, hit.value, hit.quote, hit.name⟩ := by
  cases text with
  | nil => exact absurd rfl (text_ne_nil found)
  | cons c rest =>
    rw [cutFrom]
    split
    next missed => simp [missed] at found
    next other foundOther =>
      obtain rfl := Option.some.inj (found.symm.trans foundOther)
      rw [cutFrom_eq_prepend .joined hit.tail.reverse hit.rest, List.reverse_reverse]
      rfl

/-- Each segment comes from a match. -/
theorem of_mem_found {place : Place} {gap text : Text} {segment : Segment}
    (member : segment ∈ (matcher.cutFrom place gap text).found) :
    ∃ place text hit front, matcher.run place text = some hit
      ∧ segment = ⟨front ++ hit.lead, hit.value, hit.quote, hit.name⟩ := by
  fun_induction cutFrom matcher place gap text with
  | case1 => simp at member
  | case2 place gap c rest missed ih => exact ih member
  | case3 place gap c rest hit found later ih =>
    rcases List.mem_cons.mp member with rfl | behind
    · exact ⟨place, c :: rest, hit, gap.reverse, found, rfl⟩
    · exact ih behind

/-- Each gap holds at least a character of a match. -/
theorem gap_ne_nil {place : Place} {gap text : Text} {segment : Segment}
    (member : segment ∈ (matcher.cutFrom place gap text).found) : segment.gap ≠ [] := by
  obtain ⟨place, text, hit, front, found, rfl⟩ := of_mem_found member
  simp [matcher.advances _ _ _ found]

theorem text_cutFrom_nil (place : Place) (text : Text) :
    (matcher.cutFrom place [] text).text = text := by
  simp [text_cutFrom]

/-! ### Captures -/

/-- Each captured value comes from a match, whose parts stand right around it. -/
theorem captures_cutFrom {place : Place} {text before value behind : Text}
    (captured : (matcher.cutFrom place [] text).Captures before value behind) :
    ∃ place front hit, matcher.run place hit.text = some hit ∧ before = front ++ hit.lead
      ∧ value = hit.value ∧ behind = hit.tail ++ hit.rest := by
  induction size : text.length using Nat.strong_induction_on
    generalizing place text before with
  | _ n ih =>
    cases text with
    | nil =>
      rw [cutFrom] at captured
      exact captured.elim
    | cons c rest =>
      cases found : matcher.run place (c :: rest) with
      | none =>
        rw [cutFrom_none found] at captured
        obtain ⟨further, rfl, deeper⟩ := Segments.captures_prepend.mp captured
        obtain ⟨place, front, hit, matched, rfl, parts⟩ := ih _ (by simp [← size]) deeper rfl
        exact ⟨place, c :: front, hit, matched, rfl, parts⟩
      | some hit =>
        have whole := matcher.covers _ _ _ found
        rw [cutFrom_some found] at captured
        rcases Segments.captures_push.mp captured with ⟨rfl, rfl, rfl⟩ | ⟨further, rfl, deeper⟩
        · refine ⟨place, [], hit, whole ▸ found, rfl, rfl, ?_⟩
          simp [text_cutFrom_nil]
        · obtain ⟨further, rfl, deepest⟩ := Segments.captures_prepend.mp deeper
          have shorter : hit.rest.length < n := size ▸ matcher.rest_lt found
          obtain ⟨place, front, hit', matched, rfl, parts⟩ := ih _ shorter deepest rfl
          exact ⟨place, hit.lead ++ hit.value ++ hit.tail ++ front, hit', matched, by simp, parts⟩

/-- Each value that a cut captures comes from a match. -/
theorem captures_cut {text before value behind : Text}
    (captured : (matcher.cut text).Captures before value behind) :
    ∃ place front hit, matcher.run place hit.text = some hit ∧ before = front ++ hit.lead
      ∧ value = hit.value ∧ behind = hit.tail ++ hit.rest :=
  captures_cutFrom captured

end Matcher

/-! ### Changes -/

/-- What a match at `p`, with the region `v` behind it, may have to do with the region: nothing, or the
region is its value. -/
def Hit.Respects (hit : Hit) (p v : Text) : Prop :=
  p.length + v.length < hit.lead.length ∨ (hit.lead = p ∧ hit.value = v)
    ∨ hit.lead.length + hit.value.length < p.length

/-- How matches at one place compare before and after a change: there is none; or one that ends before
the region; or one that begins its value behind the region; or one whose value is the region. -/
inductive Tracks (p v v' y : Text) : (old new : Option Hit) → Prop
  | missed : Tracks p v v' y none none
  | passed (hit : Hit) (kept : Text) (closed : hit.tail ≠ []) :
      Tracks p v v' y (some { hit with rest := kept ++ v ++ y })
        (some { hit with rest := kept ++ v' ++ y })
  | within (hit : Hit) (behind : Text) (nonempty : behind ≠ []) :
      Tracks p v v' y (some { hit with lead := p ++ v ++ behind })
        (some { hit with lead := p ++ v' ++ behind })
  | filled (hit : Hit) :
      Tracks p v v' y (some { hit with lead := p, value := v })
        (some { hit with lead := p, value := v' })

/-- The first of two attempts that succeeds. -/
theorem Tracks.or {p v v' y : Text} {old new old' new' : Option Hit} (first : Tracks p v v' y old new)
    (second : old = none → Tracks p v v' y old' new') :
    Tracks p v v' y (old.or old') (new.or new') := by
  cases first with
  | missed => exact second rfl
  | passed hit kept closed => exact Tracks.passed hit kept closed
  | within hit behind nonempty => exact Tracks.within hit behind nonempty
  | filled hit => exact Tracks.filled hit

/-- A match whose value has begun before the region, and reaches it, does not respect the region. -/
theorem Hit.not_respects {hit : Hit} {begun more v : Text} (nonempty : begun ≠ [])
    (value : hit.value = begun ++ more) : ¬ hit.Respects (hit.lead ++ begun) v := by
  have positive := List.length_pos_iff.mpr nonempty
  rintro (within | ⟨filled, _⟩ | behind)
  · rw [List.length_append] at within
    omega
  · exact nonempty (List.self_eq_append_right.mp filled)
  · rw [value, List.length_append, List.length_append] at behind
    omega

/-- If the value of a match would begin before the region and reach it, then there is no match. -/
theorem Tracks.begun {lead begun v v' y : Text} {old new : Option Hit} (nonempty : begun ≠ [])
    (reaches : ∀ hit, old = some hit → hit.lead = lead ∧ ∃ more, hit.value = begun ++ more)
    (respects : ∀ hit, old = some hit → hit.Respects (lead ++ begun) v)
    (adds : new ≠ none → old ≠ none) : Tracks (lead ++ begun) v v' y old new := by
  have noOld : old = none := by
    by_contra found
    obtain ⟨hit, found⟩ := Option.ne_none_iff_exists'.mp found
    obtain ⟨rfl, more, value⟩ := reaches hit found
    exact Hit.not_respects nonempty value (respects hit found)
  have noNew : new = none := by
    by_contra found
    exact adds found noOld
  rw [noOld, noNew]
  exact Tracks.missed

/-- What a reader finds at the front of `p` does not depend on what follows `p`: nothing, or a match that
ends within `p`. -/
def Settled (read : Text → Option Hit) (p : Text) : Prop :=
  (∀ t, read (p ++ t) = none)
    ∨ ∃ (hit : Hit) (kept : Text), hit.tail ≠ []
        ∧ ∀ t, read (p ++ t) = some { hit with rest := kept ++ t }

theorem Settled.tracks {read : Text → Option Hit} {p : Text} (settled : Settled read p)
    (v v' y : Text) : Tracks p v v' y (read (p ++ v ++ y)) (read (p ++ v' ++ y)) := by
  rw [List.append_assoc, List.append_assoc]
  rcases settled with misses | ⟨hit, kept, closed, finds⟩
  · rw [misses, misses]
    exact Tracks.missed
  · rw [finds, finds, ← List.append_assoc, ← List.append_assoc]
    exact Tracks.passed hit kept closed

namespace Matcher

/-- The matcher distinguishes no places but the start of the text. -/
def Placeless (matcher : Matcher) : Prop :=
  ∀ place place' text, place ≠ .start → place' ≠ .start →
    matcher.run place text = matcher.run place' text

/-- No match begins at a character of `region` if `y` follows it. -/
def Idle (matcher : Matcher) (region y : Text) : Prop :=
  ∀ place r, place ≠ .start → r ≠ [] → r <:+ region → matcher.run place (r ++ y) = none

variable {matcher : Matcher}

theorem Placeless.cutFrom_eq (placeless : matcher.Placeless) {place place' : Place}
    (inside : place ≠ .start) (inside' : place' ≠ .start) (text : Text) :
    matcher.cutFrom place [] text = matcher.cutFrom place' [] text := by
  cases text with
  | nil => simp [cutFrom]
  | cons c rest =>
    have same := placeless place place' (c :: rest) inside inside'
    cases found : matcher.run place (c :: rest) with
    | none =>
      rw [cutFrom_none found, cutFrom_none (same.symm.trans found)]
    | some hit => rw [cutFrom_some found, cutFrom_some (same.symm.trans found)]

/-- Cutting passes over text in which no match begins. -/
theorem Idle.cutFrom_append {region y : Text} (idle : matcher.Idle region y)
    (placeless : matcher.Placeless) {place : Place} (inside : place ≠ .start) :
    matcher.cutFrom place [] (region ++ y)
      = (matcher.cutFrom .joined [] y).prepend region := by
  induction region generalizing place with
  | nil => simpa using placeless.cutFrom_eq inside (by simp) y
  | cons c region ih =>
    have missed : matcher.run place (c :: (region ++ y)) = none :=
      idle place (c :: region) inside (by simp) (List.suffix_refl _)
    have deeper : matcher.Idle region y := fun place r inside nonempty suffix =>
      idle place r inside nonempty (suffix.trans (List.suffix_cons c region))
    rw [List.cons_append, cutFrom_none missed, ih deeper (by simp)]
    simp

/-- A value never begins where cutting begins. -/
theorem not_exact_of_located {exact : Prop} {len : Nat} {place : Place} {text : Text}
    (located : Segments.Located exact 0 len (matcher.cutFrom place [] text).found) : ¬ exact := by
  cases cut : (matcher.cutFrom place [] text).found with
  | nil => simpa [cut, Segments.Located] using located
  | cons segment found =>
    rw [cut] at located
    rcases located with ⟨notExact, _⟩ | ⟨_, none, _⟩ | ⟨less, _⟩
    · exact notExact
    · exact absurd (List.length_eq_zero_iff.mp none.symm) (gap_ne_nil (cut ▸ List.mem_cons_self))
    · exact absurd less (Nat.not_lt_zero _)

/-- If the region lies between values, then no match begins in it, unless with a value further
behind. -/
theorem idle_of_located {exact : Prop} {region y : Text} (placeless : matcher.Placeless)
    (short : ∀ place r hit, place ≠ .start → r ≠ [] → r <:+ region →
      matcher.run place (r ++ y) = some hit → hit.lead.length ≤ r.length) {place : Place}
    (inside : place ≠ .start)
    (located : Segments.Located exact 0 region.length
      (matcher.cutFrom place [] (region ++ y)).found) :
    matcher.Idle region y := by
  induction region generalizing place with
  | nil => exact fun _ r _ nonempty suffix => absurd (List.suffix_nil.mp suffix) nonempty
  | cons c region ih =>
    cases found : matcher.run place (c :: (region ++ y)) with
    | none =>
      rw [List.cons_append, cutFrom_none found, List.length_cons, Nat.add_comm] at located
      have idle := ih
        (fun place r hit outside nonempty suffix => short place r hit outside nonempty
          (suffix.trans (List.suffix_cons c region)))
        (by simp)
        (Segments.Located.of_prepend (List.cons_ne_nil c []) located)
      intro place' r outside nonempty suffix
      rcases List.suffix_cons_iff.mp suffix with rfl | shorter
      · rw [placeless place' place _ outside inside]
        exact found
      · exact idle place' r outside nonempty shorter
    | some hit =>
      have lead := List.length_pos_iff.mpr (matcher.advances _ _ _ found)
      have small := short place (c :: region) hit inside (by simp) (List.suffix_refl _) found
      rw [List.cons_append, cutFrom_some found] at located
      rcases located with ⟨_, inGap⟩ | ⟨_, none, _⟩ | ⟨less, _⟩
      · simp only [Nat.zero_add] at inGap
        omega
      · simp only at none
        omega
      · exact absurd less (Nat.not_lt_zero _)

/-- A match that becomes a segment respects a region that lies among the segments. -/
theorem respects_of_located {exact : Prop} {place : Place} {p v y : Text} {hit : Hit}
    (found : matcher.run place (p ++ v ++ y) = some hit)
    (located : Segments.Located exact p.length v.length
      (matcher.cutFrom place [] (p ++ v ++ y)).found) : hit.Respects p v := by
  have parts := matcher.covers _ _ _ found
  rw [cutFrom_some found] at located
  rcases located with ⟨_, inGap⟩ | ⟨_, lead, value⟩ | ⟨behind, _⟩
  · exact Or.inl inGap
  · simp only [Hit.text, List.append_assoc] at parts
    obtain ⟨sameLead, later⟩ := List.append_inj parts lead
    obtain ⟨sameValue, _⟩ := List.append_inj later value
    exact Or.inr (Or.inl ⟨sameLead.symm, sameValue.symm⟩)
  · exact Or.inr (Or.inr behind)

/-- A change of text in which nothing is matched changes the first gap. -/
theorem edit_prepend_region (place : Place) (v v' y : Text) :
    ((matcher.cutFrom place [] y).prepend v).edit 0 v.length v'
      = (matcher.cutFrom place [] y).prepend v' := by
  cases cut : (matcher.cutFrom place [] y).found with
  | nil => simp [Segments.prepend, Segments.edit, Segments.editFrom, Segments.splice, cut]
  | cons segment found =>
    have positive := List.length_pos_iff.mpr (gap_ne_nil (cut ▸ List.mem_cons_self))
    simp [Segments.prepend, Segments.edit, Segments.editFrom, Segments.splice, cut, positive]

/-- What `cutFrom_edit` asks of a matcher and a change of `x ++ v ++ y` to `x ++ v' ++ y`, if values
are `good`. What is asked of the places within the region matters only if the region is no value. -/
structure Stable (matcher : Matcher) (exact : Prop) (good : Text → Prop) (x v v' y : Text) :
    Prop where
  placeless : matcher.Placeless
  tracks : ∀ place p, p ≠ [] → p <:+ x →
    (∀ hit, matcher.run place (p ++ v ++ y) = some hit → hit.Respects p v ∧ good hit.value) →
    Tracks p v v' y (matcher.run place (p ++ v ++ y)) (matcher.run place (p ++ v' ++ y))
  short : ¬ exact → ∀ place r hit, place ≠ .start → r ≠ [] → r <:+ v →
    matcher.run place (r ++ y) = some hit → hit.lead.length ≤ r.length
  idle : ¬ exact → matcher.Idle v y → matcher.Idle v' y

/-- Cutting commutes with a change where it begins with the region: nothing is matched in the region,
neither before nor after. -/
theorem Stable.cutFrom_edit_region {exact : Prop} {good : Text → Prop} {x v v' y : Text}
    (stable : matcher.Stable exact good x v v' y) {place : Place} (inside : place ≠ .start)
    (located : Segments.Located exact 0 v.length (matcher.cutFrom place [] (v ++ y)).found) :
    matcher.cutFrom place [] (v' ++ y)
      = (matcher.cutFrom place [] (v ++ y)).edit 0 v.length v' := by
  have notExact := not_exact_of_located located
  have oldIdle := idle_of_located stable.placeless (stable.short notExact) inside located
  rw [oldIdle.cutFrom_append stable.placeless inside,
    (stable.idle notExact oldIdle).cutFrom_append stable.placeless inside]
  exact (edit_prepend_region .joined v v' y).symm

/-- The match at `p` is the same after the change: it becomes a segment, so that it respects the region
and its value is good. -/
theorem Stable.tracks_of_located {exact : Prop} {good : Text → Prop} {x v v' y : Text}
    (stable : matcher.Stable exact good x v v' y) {place : Place} {p : Text} (nonempty : p ≠ [])
    (suffix : p <:+ x)
    (located : Segments.Located exact p.length v.length
      (matcher.cutFrom place [] (p ++ v ++ y)).found)
    (allGood : ∀ value ∈ (matcher.cutFrom place [] (p ++ v ++ y)).values, good value) :
    Tracks p v v' y (matcher.run place (p ++ v ++ y)) (matcher.run place (p ++ v' ++ y)) := by
  refine stable.tracks place p nonempty suffix fun hit found => ?_
  refine ⟨respects_of_located found located, allGood _ ?_⟩
  rw [cutFrom_some found]
  exact List.mem_cons_self

/-- Cutting `p ++ v ++ y` commutes with the change of the region `v` to `v'`. -/
def Commutes (matcher : Matcher) (v v' y : Text) (place : Place) (p : Text) : Prop :=
  matcher.cutFrom place [] (p ++ v' ++ y)
    = (matcher.cutFrom place [] (p ++ v ++ y)).edit p.length v.length v'

/-- A character at which nothing is matched, neither before nor after the change, is passed over. -/
theorem Commutes.cons {v v' y p : Text} {place : Place} {c : Char}
    (old : matcher.run place (c :: p ++ v ++ y) = none)
    (new : matcher.run place (c :: p ++ v' ++ y) = none)
    (deeper : matcher.Commutes v v' y (.after c) p) : matcher.Commutes v v' y place (c :: p) := by
  simp only [Commutes, List.cons_append] at old new deeper ⊢
  rw [cutFrom_none old, cutFrom_none new, List.length_cons, Nat.add_comm, deeper]
  exact (Segments.edit_prepend p.length v.length v' [c] _).symm

/-- A match that ends before the region, and is there before and after the change, is passed over. -/
theorem Commutes.behind {v v' y kept : Text} {place : Place} {hit : Hit} (closed : hit.tail ≠ [])
    (old : matcher.run place (hit.lead ++ hit.value ++ hit.tail ++ kept ++ v ++ y)
      = some { hit with rest := kept ++ v ++ y })
    (new : matcher.run place (hit.lead ++ hit.value ++ hit.tail ++ kept ++ v' ++ y)
      = some { hit with rest := kept ++ v' ++ y })
    (rest : matcher.Commutes v v' y .joined kept) :
    matcher.Commutes v v' y place (hit.lead ++ hit.value ++ hit.tail ++ kept) := by
  unfold Commutes at rest ⊢
  rw [cutFrom_some old, cutFrom_some new, Segments.edit_behind closed, ← rest]

/-- **Cutting commutes with a change.** The induction is on the text before the region. -/
theorem Stable.cutFrom_edit {exact : Prop} {good : Text → Prop} {x v v' y : Text}
    (stable : matcher.Stable exact good x v v' y) {place : Place} {p : Text}
    (suffix : p <:+ x) (inside : p = [] → place ≠ .start)
    (located : Segments.Located exact p.length v.length
      (matcher.cutFrom place [] (p ++ v ++ y)).found)
    (allGood : ∀ value ∈ (matcher.cutFrom place [] (p ++ v ++ y)).values, good value) :
    matcher.Commutes v v' y place p := by
  induction size : p.length using Nat.strong_induction_on generalizing place p with
  | _ n ih =>
    subst size
    by_cases empty : p = []
    · subst empty
      exact stable.cutFrom_edit_region (inside rfl) located
    have tracks := stable.tracks_of_located empty suffix located allGood
    generalize old : matcher.run place (p ++ v ++ y) = before at tracks
    generalize new : matcher.run place (p ++ v' ++ y) = after at tracks
    cases tracks with
    | missed =>
      obtain ⟨c, p, rfl⟩ := List.exists_cons_of_ne_nil empty
      refine Commutes.cons old new ?_
      simp only [List.cons_append] at old located allGood
      rw [cutFrom_none old] at located allGood
      rw [List.length_cons, Nat.add_comm] at located
      have moved : Segments.Located exact ([c].length + p.length) v.length
          ((matcher.cutFrom (.after c) [] (p ++ v ++ y)).prepend [c]).found := located
      exact ih p.length (by simp) ((List.suffix_cons c p).trans suffix) (by simp)
        (Segments.located_prepend.mp moved) (by simpa using allGood) rfl
    | passed hit kept closed =>
      obtain rfl : p = hit.lead ++ hit.value ++ hit.tail ++ kept := by
        simpa [Hit.text, ← List.append_assoc] using matcher.covers _ _ _ old
      refine Commutes.behind closed old new ?_
      rw [cutFrom_some old] at located allGood
      have shorter : kept.length < (hit.lead ++ hit.value ++ hit.tail ++ kept).length := by
        have positive := List.length_pos_iff.mpr closed
        simp only [List.length_append]
        omega
      have suffixes : kept <:+ x :=
        (List.suffix_append (hit.lead ++ hit.value ++ hit.tail) kept).trans suffix
      have goodBehind : ∀ value ∈ (matcher.cutFrom .joined [] (kept ++ v ++ y)).values,
          good value := by
        intro value member
        refine allGood value (List.mem_cons_of_mem _ ?_)
        rw [← Segments.values, Segments.values_prepend]
        exact member
      exact ih kept.length shorter suffixes (by simp) (Segments.located_behind closed located)
        goodBehind rfl
    | within hit behind nonempty =>
      rw [Commutes, cutFrom_some old, cutFrom_some new]
      exact (Segments.edit_push_gap _ v' nonempty).symm
    | filled hit =>
      rw [Commutes, cutFrom_some old, cutFrom_some new]
      exact (Segments.edit_push_value _ v').symm

/-- Cutting a whole text commutes with a change. -/
theorem Stable.cut_edit {exact : Prop} {good : Text → Prop} {x v v' y : Text}
    (stable : matcher.Stable exact good x v v' y) (nonempty : x ≠ [])
    (located : Segments.Located exact x.length v.length (matcher.cut (x ++ v ++ y)).found)
    (allGood : ∀ value ∈ (matcher.cut (x ++ v ++ y)).values, good value) :
    matcher.cut (x ++ v' ++ y) = (matcher.cut (x ++ v ++ y)).edit x.length v.length v' :=
  stable.cutFrom_edit (List.suffix_refl x) (fun empty => absurd empty nonempty) located allGood

end Matcher

end Relabel
