/-
**Scripts before and after their sources are replaced.**

The matcher of scripts goes through a start tag until it finds a source or the end of the tag. A source that
it fails to read before a captured value fails for what stands before the quote that opens the value, or
because a quote is not closed at all. Values that bring no new quotes change neither. So the new text is cut
where the old one is.

* `readSource_none`, `readSource_some`: one attempt to read a source, before and after.
* `searchTag_eq_some`, `searchTag_none`: the search for one in a start tag.
* `readScript_none`, `readScript_some`: the match at one place.
* `scriptAttributes_steady`: cutting commutes with replacing sources.
-/

import Relabel.Proofs.Scan.AttributeReplaced
import Relabel.Proofs.Scan.ElementChange

namespace Relabel

/-! ### One attempt -/

/-- No quote is part of the words that are read. -/
theorem foreign_of_isQuote {q : Char} (quoted : isQuote q = true) : Foreign "src" q ∧ Foreign "<script" q := by
  rcases eq_of_isQuote quoted with rfl | rfl <;> decide

theorem sourceRule_read (text : Text) : sourceRule.read text = sourceRule.readNamed "src" text := by
  show List.findSome? (fun name => sourceRule.readNamed name text) ["src".toList] = _
  rw [List.findSome?_cons]
  cases sourceRule.readNamed "src" text <;> rfl

/-- A source whose value has begun is read if and only if its quote is closed. -/
theorem sourceRule_close_eq_none_iff {written sign begun text : Text} {quote : Char} :
    sourceRule.close written sign quote begun text = none ↔ quote ∉ text := by
  have closing : quote ∉ text ↔ text.dropWhile (· != quote) = [] := by
    rw [List.dropWhile_eq_nil_iff]
    simp only [bne_iff_ne, ne_eq]
    exact ⟨fun absent c member same => absent (same ▸ member), fun other member => other quote member rfl⟩
  rw [closing]
  unfold AttributeRule.close
  cases text.dropWhile (· != quote) with
  | nil => simp
  | cons c rest => simp [AttributeRule.accept, sourceRule]

/-- **A source that is not read** before a quote is not read if what follows the quote changes. -/
theorem readSource_none {b q : Char} {p y y' : Text} (quoted : isQuote q = true) (member : q ∈ p)
    (adds : AddsNoQuotes y y') (missed : readSource b (p ++ y) = none) : readSource b (p ++ y') = none := by
  unfold readSource at missed ⊢
  split at missed
  next blank =>
    rw [if_pos blank]
    rw [sourceRule_read] at missed ⊢
    refine AttributeRule.readNamed_none (fun _ _ _ => rfl) (foreign_of_isQuote quoted).1 quoted member adds ?_ missed
    intro written sign quote isQuote' _ unclosed
    rw [sourceRule_close_eq_none_iff] at unclosed ⊢
    exact fun inNew => unclosed (adds quote isQuote' inNew)
  next solid => rw [if_neg solid]

/-- **A source that is read** is read as well with another value and another text behind it. -/
theorem readSource_some {b : Char} {text : Text} {hit : Hit} (found : readSource b text = some hit) :
    ∃ quote, sourceRule.ReadsAgain (readSource b) quote hit := by
  unfold readSource at found
  split at found
  next blank =>
    rw [sourceRule_read] at found
    obtain ⟨quote, matched⟩ := AttributeRule.readNamed_some found
    refine ⟨quote, matched.quoted, matched.absent, rfl, matched.opened, matched.tail, ?_⟩
    intro value rest addsValue accepted addsRest
    rw [readSource, if_pos blank, sourceRule_read]
    exact matched.again value rest addsValue accepted addsRest
  next => simp at found

/-! ### The search in a start tag -/

section Search

variable {attempt : Char → Text → Option Hit}

/-- **A search that finds something** passes characters at which the attempt fails. It finds as much in a
text in which it fails at them as well. -/
theorem searchTag_eq_some {passed text : Text} {hit : Hit} (found : searchTag attempt passed text = some hit) :
    ∃ front b rest inner, text = front ++ b :: rest ∧ attempt b rest = some inner
      ∧ hit = { inner with lead := passed.reverse ++ (front ++ b :: inner.lead) }
      ∧ ∀ rest' inner', attempt b rest' = some inner' →
          (∀ d t, d :: t <:+ front → attempt d (t ++ b :: rest) = none → attempt d (t ++ b :: rest') = none) →
          searchTag attempt passed (front ++ b :: rest')
            = some { inner' with lead := passed.reverse ++ (front ++ b :: inner'.lead) } := by
  induction text generalizing passed with
  | nil => simp [searchTag] at found
  | cons c text ih =>
    rw [searchTag] at found
    split at found
    next inner read =>
      refine ⟨[], c, text, inner, rfl, read, (Option.some.inj found).symm, fun rest' inner' read' _ => ?_⟩
      rw [List.nil_append, searchTag, read']
      rfl
    next missed =>
      split at found
      next => simp at found
      next inside =>
        obtain ⟨front, b, rest, inner, rfl, read, rfl, again⟩ := ih found
        refine ⟨c :: front, b, rest, inner, rfl, read, by simp, fun rest' inner' read' kept => ?_⟩
        have missed' := kept c front (List.suffix_refl _) missed
        have behind := again rest' inner' read' fun d t suffix => kept d t (suffix.trans (List.suffix_cons c front))
        rw [List.cons_append, searchTag, missed']
        simp only [if_neg inside]
        rw [behind]
        simp

/-- **A search that finds nothing** although the attempt would succeed further on ends at the end of the tag.
It finds nothing either in a text in which it fails where it failed before. -/
theorem searchTag_none {passed front y y' : Text} (missed : searchTag attempt passed (front ++ y) = none)
    (kept : ∀ d t, d :: t <:+ front → attempt d (t ++ y) = none → attempt d (t ++ y') = none)
    (ahead : ∃ d t, d :: t <:+ front ∧ attempt d (t ++ y) ≠ none) :
    searchTag attempt passed (front ++ y') = none := by
  induction front generalizing passed with
  | nil =>
    obtain ⟨d, t, suffix, _⟩ := ahead
    exact absurd (List.suffix_nil.mp suffix) (by simp)
  | cons c front ih =>
    rw [List.cons_append, searchTag] at missed ⊢
    cases failed : attempt c (front ++ y) with
    | some inner => simp [failed] at missed
    | none =>
      rw [kept c front (List.suffix_refl _) failed]
      by_cases ended : c = '>'
      · simp [ended]
      · simp only [failed, if_neg ended] at missed ⊢
        refine ih missed (fun d t suffix => kept d t (suffix.trans (List.suffix_cons c front))) ?_
        obtain ⟨d, t, suffix, succeeds⟩ := ahead
        rcases List.suffix_cons_iff.mp suffix with same | shorter
        · obtain ⟨rfl, rfl⟩ := List.cons.inj same
          exact absurd failed succeeds
        · exact ⟨d, t, shorter, succeeds⟩

end Search

/-! ### One match -/

/-- The beginning of a script's start tag. -/
def scriptOpening : Text := "<script"

/-- Where sources are read ahead of a quote, and whether that changes. -/
theorem readSource_none_before {q : Char} {p y y' : Text} (quoted : isQuote q = true)
    (ends : ∃ front, p = front ++ [q]) (adds : AddsNoQuotes y y') :
    ∀ d t, d :: t <:+ p → readSource d (t ++ y) = none → readSource d (t ++ y') = none := by
  rintro d t ⟨before, parts⟩ missed
  obtain ⟨front, rfl⟩ := ends
  obtain ⟨t', tail⟩ := ends_of_append parts.symm (by simp)
  cases t' with
  | nil =>
    -- The quote itself is no white space.
    obtain ⟨rfl, rfl⟩ := List.cons.inj tail
    rw [readSource, if_neg (by simp [not_isBlank_of_isQuote quoted])]
  | cons c t' =>
    obtain ⟨rfl, rfl⟩ := List.cons.inj tail
    exact readSource_none quoted (by simp) adds missed

/-- **No script is matched** after a change of what follows a quote if none was matched before it, although
a source was read in front of the quote. -/
theorem readScript_none {q : Char} {p y y' : Text} (quoted : isQuote q = true)
    (ends : ∃ front, p = front ++ [q]) (adds : AddsNoQuotes y y')
    (ahead : ∃ a d t, p = a ++ d :: t ∧ scriptOpening.length ≤ a.length ∧ readSource d (t ++ y) ≠ none)
    (missed : readScript (p ++ y) = none) : readScript (p ++ y') = none := by
  obtain ⟨_, foreign⟩ := foreign_of_isQuote quoted
  have member : q ∈ p := by
    obtain ⟨front, rfl⟩ := ends
    simp
  unfold readScript at missed ⊢
  rw [readTagName_append member foreign] at missed ⊢
  cases named : readTagName "<script" p with
  | none => rfl
  | some parts =>
    obtain ⟨opening, behind⟩ := parts
    obtain ⟨whole, inBehind⟩ := mem_of_readTagName member foreign named
    have size : opening.length = scriptOpening.length := (readTagName_eq named).2
    rw [named] at missed
    simp only [Option.map_some, Option.bind_eq_bind, Option.bind_some, Option.bind_eq_none_iff, reduceCtorEq,
      imp_false] at missed ⊢
    have missed' : searchTag readSource [] (behind ++ y) = none := Option.eq_none_iff_forall_ne_some.mpr missed
    have endsBehind : ∃ front, behind = front ++ [q] := by
      obtain ⟨front, rfl⟩ := ends
      exact ends_of_append whole (List.ne_nil_of_mem inBehind)
    refine Option.eq_none_iff_forall_ne_some.mp
      (searchTag_none missed' (readSource_none_before quoted endsBehind adds) ?_)
    obtain ⟨a, d, t, same, long, succeeds⟩ := ahead
    obtain ⟨r, _, split⟩ := exists_between (whole.symm.trans same) (size ▸ long)
    exact ⟨d, t, ⟨r, split.symm⟩, succeeds⟩

/-- The match of a script, before and after, with the source that is read in front of the value. -/
structure SourceHit (quote : Char) (hit : Hit) : Prop extends sourceRule.ReadsAgain readScript quote hit where
  ahead : ∃ a d t, hit.lead = a ++ d :: t ∧ scriptOpening.length ≤ a.length
    ∧ readSource d (t ++ (hit.value ++ (hit.tail ++ hit.rest))) ≠ none

/-- **The match of a script.** -/
theorem readScript_some {text : Text} {hit : Hit} (found : readScript text = some hit) :
    ∃ quote, SourceHit quote hit := by
  simp only [readScript, Option.bind_eq_bind, Option.bind_eq_some_iff] at found
  obtain ⟨⟨opening, behind⟩, named, inner, searched, last⟩ := found
  obtain rfl := Option.some.inj last
  obtain ⟨front, b, source, inner, rfl, read, rfl, again⟩ := searchTag_eq_some searched
  obtain ⟨quote, matched⟩ := readSource_some read
  obtain rfl := readSource_eq read
  obtain ⟨before, opened⟩ := matched.opened
  have member : quote ∈ inner.lead := by simp [opened]
  obtain ⟨_, foreign⟩ := foreign_of_isQuote matched.quoted
  have size : opening.length = scriptOpening.length := (readTagName_eq named).2
  refine ⟨quote, ⟨matched.quoted, matched.absent, rfl, ⟨opening ++ (front ++ b :: before), by simp [opened]⟩,
    matched.tail, ?_⟩, ?_⟩
  · intro value rest addsValue accepted addsRest
    have adds : AddsNoQuotes (inner.value ++ (inner.tail ++ inner.rest)) (value ++ (inner.tail ++ rest)) :=
      addsValue.append ((AddsNoQuotes.refl inner.tail).append addsRest)
    have opens : readTagName "<script" (opening ++ (front ++ b :: inner.lead) ++ (value ++ (inner.tail ++ rest)))
        = some (opening, front ++ b :: inner.lead ++ (value ++ (inner.tail ++ rest))) := by
      refine readTagName_before (by simp [member]) foreign (y := inner.value ++ (inner.tail ++ inner.rest)) ?_ _
      obtain rfl := (readTagName_eq named).1
      simpa [Hit.text] using named
    have unread : ∀ d t, readSource d (t ++ b :: inner.lead ++ (inner.value ++ (inner.tail ++ inner.rest))) = none →
        readSource d (t ++ b :: inner.lead ++ (value ++ (inner.tail ++ rest))) = none :=
      fun d t => readSource_none matched.quoted (by simp [member]) adds
    have searches := again (inner.lead ++ value ++ inner.tail ++ rest) _
      (matched.again value rest addsValue accepted addsRest)
      fun d t _ missed => by simpa using unread d t (by simpa [Hit.text] using missed)
    have whole : opening ++ ([].reverse ++ (front ++ b :: inner.lead)) ++ value ++ inner.tail ++ rest
        = opening ++ (front ++ b :: inner.lead) ++ (value ++ (inner.tail ++ rest)) := by simp
    have behind : front ++ b :: inner.lead ++ (value ++ (inner.tail ++ rest))
        = front ++ b :: (inner.lead ++ value ++ inner.tail ++ rest) := by simp
    unfold readScript
    rw [whole, opens, behind]
    simp only [Option.bind_eq_bind, Option.bind_some, searches]
  · refine ⟨opening ++ front, b, inner.lead, by simp, by simp [size], ?_⟩
    have same : inner.lead ++ (inner.value ++ (inner.tail ++ inner.rest)) = inner.text := by simp [Hit.text]
    show readSource b (inner.lead ++ (inner.value ++ (inner.tail ++ inner.rest))) ≠ none
    rw [same, read]
    simp

/-! ### All matches -/

/-- The new values have no quotes. -/
def Quoteless (replace : Segment → Option Text) : Prop :=
  ∀ segment value, replace segment = some value → ∀ q ∈ value, isQuote q = false

theorem Quoteless.adds {replace : Segment → Option Text} (quoteless : Quoteless replace) (segment : Segment) :
    AddsNoQuotes segment.value (segment.replaced replace).value := by
  intro q quoted member
  unfold Segment.replaced at member
  cases given : replace segment with
  | none => simpa [given] using member
  | some value =>
    rw [given] at member
    exact absurd quoted (by simp [quoteless segment value given q member])

/-- **Cutting commutes with replacing sources** by values without quotes. -/
theorem scriptAttributes_steady {replace : Segment → Option Text} (quoteless : Quoteless replace)
    (careless : Careless replace) : scriptAttributes.Steady replace where
  careless := careless
  missed place c rest missed := by
    rcases scriptAttributes.replaced_cases replace (.after c) rest with same |
      ⟨segment, later, _, front, hit, ran, gap, value, behind, old, new⟩
    · rw [same]
      exact missed
    · obtain ⟨q, matched⟩ := readScript_some ran
      obtain ⟨lead, opened⟩ := matched.opened
      obtain ⟨a, d, t, split, long, succeeds⟩ := matched.ahead
      have endsBehind : ∃ front, c :: segment.gap = front ++ [q] := ⟨c :: (front ++ lead), by simp [gap, opened]⟩
      have adds := (quoteless.adds segment).append (AddsNoQuotes.text_replaced quoteless.adds later)
      rw [new]
      refine readScript_none matched.quoted endsBehind adds ⟨c :: (front ++ a), d, t, ?_, ?_, ?_⟩ ?_
      · simp [gap, split]
      · simp only [List.length_cons, List.length_append]
        omega
      · rw [value, behind]
        exact succeeds
      · rw [List.cons_append, ← old]
        exact missed
  again place text hit ran := by
    obtain ⟨q, matched⟩ := readScript_some ran
    refine matched.again _ _ (quoteless.adds ⟨hit.lead, hit.value, hit.quote, hit.name⟩) rfl ?_
    have adds := AddsNoQuotes.text_replaced quoteless.adds (scriptAttributes.cutFrom .joined [] hit.rest)
    rwa [Matcher.text_cutFrom_nil] at adds

end Relabel
