/-
**Style elements whose bodies are replaced.**

A style element that is not matched ahead of a captured body fails within its start tag, or within what stands before
the end of the start tag of the element that is captured: the body itself is closed. So a new body, whatever it is,
revives none of these. The body is captured again if no end tag begins in it.

* `StyleHit`: what the match of a style element consists of.
* `NoEndTag.of_stop`: what follows the end tag does not matter to the body.
* `BodyRenews`: what is asked of new bodies.
* `BodyRenews.steady`: cutting commutes with replacing bodies.
-/

import Relabel.Proofs.Scan.ElementChange
import Relabel.Proofs.Scan.Replaced

namespace Relabel

/-! ### End tags -/

/-- What holds of the character that ends a tag. -/
theorem tagEnd_facts : isBlank '>' = false ∧ Foreign "<style" '>' ∧ Foreign "</style" '>' := by
  decide

/-- An end tag is read again before any other text. -/
theorem readStyleEnd_again {tail rest : Text} (found : readStyleEnd (tail ++ rest) = some (tail, rest))
    (rest' : Text) : readStyleEnd (tail ++ rest') = some (tail, rest') := by
  obtain ⟨solid, _, foreign⟩ := tagEnd_facts
  have closed := mem_of_readStyleEnd found
  rw [readStyleEnd_append closed foreign solid] at found ⊢
  obtain ⟨⟨tail', kept⟩, read, same⟩ := Option.map_eq_some_iff.mp found
  obtain ⟨rfl, nothing⟩ := Prod.mk.inj same
  obtain rfl : kept = [] := List.append_left_eq_self.mp nothing
  rw [read]
  rfl

/-- What follows the end tag does not matter to whether one begins before it. -/
theorem NoEndTag.of_stop {body tail rest : Text} (closed : '>' ∈ tail) (noEnd : NoEndTag body (tail ++ rest))
    (rest' : Text) : NoEndTag body (tail ++ rest') := by
  obtain ⟨solid, _, foreign⟩ := tagEnd_facts
  intro r nonempty suffix
  have old := noEnd r nonempty suffix
  have member : '>' ∈ r ++ tail := List.mem_append_right r closed
  rw [← List.append_assoc, readStyleEnd_append member foreign solid, Option.map_eq_none_iff] at old ⊢
  exact old

/-! ### One match -/

/-- What the match of a style element consists of. Its start tag opens whatever follows it. -/
structure StyleHit (hit : Hit) : Prop where
  opened : ∃ front, hit.lead = front ++ ['>']
  opens : ∀ t, readStyle (hit.lead ++ t) = bodyOf hit.lead [] t
  ended : readStyleEnd (hit.tail ++ hit.rest) = some (hit.tail, hit.rest)
  noEnd : NoEndTag hit.value (hit.tail ++ hit.rest)
  plain : hit.quote = none ∧ hit.name = none

/-- **The match of a style element.** -/
theorem readStyle_some {text : Text} {hit : Hit} (found : readStyle text = some hit) : StyleHit hit := by
  simp only [readStyle, Option.bind_eq_bind, Option.bind_eq_some_iff] at found
  obtain ⟨⟨opening, behind⟩, tag, second⟩ := found
  simp only at second
  split at second
  next body split =>
    simp only [Option.bind_eq_some_iff] at second
    obtain ⟨⟨value, tail, rest⟩, inner, last⟩ := second
    obtain rfl := Option.some.inj last
    obtain ⟨y, rfl, ended, noEnd⟩ := readStyleBody_eq_some_iff.mp inner
    obtain rfl := readStyleEnd_eq ended
    refine ⟨⟨_, rfl⟩, fun t => ?_, ended, noEnd, rfl, rfl⟩
    have inTag : '>' ∉ behind.takeWhile (· != '>') := by
      intro member
      simpa using List.mem_takeWhile_imp member
    have whole := List.takeWhile_append_dropWhile (p := fun c => c != '>') (l := behind)
    rw [split] at whole
    generalize behind.takeWhile (· != '>') = more at inTag whole ⊢
    subst whole
    obtain ⟨rfl, _⟩ := readTagName_eq tag
    have named : readTagName "<style" (opening ++ (more ++ ['>']) ++ t) = some (opening, more ++ ['>'] ++ t) :=
      readTagName_before (y := value ++ (tail ++ rest)) (by simp) tagEnd_facts.2.1 (by simpa using tag) t
    have parts : opening ++ more ++ ['>'] ++ t = opening ++ (more ++ ['>']) ++ t := by simp
    rw [parts, readStyle_of_tagName named, List.append_assoc, tagOf_append inTag, List.singleton_append, tagOf_cons]
  next => simp at second

namespace StyleHit

variable {hit : Hit}

/-- The body of a match is closed. -/
theorem closed (matched : StyleHit hit) {value rest : Text} (noEnd : NoEndTag value (hit.tail ++ rest)) :
    readStyleBody [] (value ++ (hit.tail ++ rest)) = some (value, hit.tail, rest) :=
  readStyleBody_eq_some_iff.mpr ⟨hit.tail ++ rest, rfl, readStyleEnd_again matched.ended rest, noEnd⟩

/-- **The same is matched** with another body and another text behind it. -/
theorem again (matched : StyleHit hit) {value rest : Text} (noEnd : NoEndTag value (hit.tail ++ rest)) :
    readStyle (hit.lead ++ value ++ hit.tail ++ rest) = some { hit with value, rest } := by
  have whole : hit.lead ++ value ++ hit.tail ++ rest = hit.lead ++ (value ++ (hit.tail ++ rest)) := by simp
  rw [whole, matched.opens, bodyOf, matched.closed noEnd, matched.plain.1, matched.plain.2]
  rfl

/-- **Nothing is matched in front of a match** after a change of its body if nothing was matched before. -/
theorem unmatched (matched : StyleHit hit) (front : Text) {y' : Text}
    (missed : readStyle (front ++ hit.lead ++ (hit.value ++ (hit.tail ++ hit.rest))) = none) :
    readStyle (front ++ hit.lead ++ y') = none := by
  obtain ⟨lead, opened⟩ := matched.opened
  obtain ⟨solid, foreign, foreign'⟩ := tagEnd_facts
  have ends : front ++ hit.lead = front ++ lead ++ ['>'] := by rw [opened, List.append_assoc]
  rcases readStyle_cases ends foreign foreign' solid with
    (never | ⟨other, kept, _, always⟩) | ⟨before, begun, _, _, goesOn⟩ | ⟨different, _⟩
  · exact never y'
  · rw [always] at missed
    simp at missed
  · -- The body of an element around would be closed where the captured one is.
    rw [goesOn, bodyOf, matched.closed matched.noEnd] at missed
    simp at missed
  · exact absurd rfl different

end StyleHit

/-! ### Whole texts -/

/-- What is asked of new bodies: no end tag begins in one if none began in the old one. -/
structure BodyRenews (replace : Segment → Option Text) : Prop where
  careless : Careless replace
  noEnd : ∀ (segment : Segment) (y : Text), NoEndTag segment.value y →
    NoEndTag (segment.replaced replace).value y

/-- **Cutting at the bodies of style elements commutes with replacing them.** -/
theorem BodyRenews.steady {replace : Segment → Option Text} (renews : BodyRenews replace) :
    styleBodies.Steady replace where
  careless := renews.careless
  missed place c rest missed := by
    rcases styleBodies.replaced_cases replace (.after c) rest with same |
      ⟨segment, later, place', front, hit, ran, gap, value, behind, old, new⟩
    · rw [same]
      exact missed
    · have matched := readStyle_some ran
      rw [new, gap]
      refine matched.unmatched (c :: front) ?_
      rw [List.cons_append, ← gap, ← value, ← behind, List.cons_append, ← old]
      exact missed
  again place text hit ran := by
    have matched := readStyle_some ran
    have closed := mem_of_readStyleEnd matched.ended
    exact matched.again ((renews.noEnd ⟨hit.lead, hit.value, hit.quote, hit.name⟩ _ matched.noEnd).of_stop closed _)

end Relabel
