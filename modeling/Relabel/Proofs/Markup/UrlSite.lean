/-
**References are found wherever they stand.**

No reference of the form `url(#name)` begins within another: its only opening parenthesis stands behind
its first three letters, and it ends with a closing one. So the matcher passes over none of them, and
whether a name is captured is decided by what stands right around it.

* `site_url_iff`: the surroundings of a name.
* `Site.url_within`, `Site.url_after`, `Site.url_until`: text further away does not matter.
* `not_within_url`: no reference begins within another.
* `captures_urlReferences_iff`: a name is captured exactly if it has the surroundings of one.
-/

import Relabel.Proofs.Markup.Site

namespace Relabel

/-! ### What stands around a name -/

/-- **The surroundings of a name.** -/
theorem site_url_iff {x v y : Text} :
    Site .url x v y ↔ ∃ front lead tail rest, x = front ++ lead ∧ OpensUrl lead ∧ v ≠ []
      ∧ (∀ d ∈ v, isUrlNameChar d = true) ∧ y = tail ++ rest ∧ EndsUrl tail := by
  constructor
  · intro site
    cases site with
    | attr isRule => simp [Surface.rule?] at isRule
    | url spells blank opens nonempty inName closes blank' =>
      exact ⟨_, _, _, _, rfl, ⟨_, _, _, rfl, spells, blank, opens⟩, nonempty, inName,
        List.append_cons _ _ _, ⟨_, _, rfl, closes, blank'⟩⟩
  · rintro ⟨front, _, _, rest, rfl, ⟨word, blanks, opening, rfl, spells, blank, opens⟩, nonempty, inName,
      rfl, ⟨closing, blanks', rfl, closes, blank'⟩⟩
    rw [← List.append_cons]
    exact Site.url spells blank opens nonempty inName closes blank'

theorem QuoteOrNone.isQuote {text : Text} (quote : QuoteOrNone text) {c : Char} (member : c ∈ text) :
    Relabel.isQuote c = true := by
  rcases quote with rfl | ⟨q, quoted, rfl⟩
  · simp at member
  · exact List.mem_singleton.mp member ▸ quoted

/-- The letters and what stands behind the opening parenthesis. -/
theorem OpensUrl.parts {lead : Text} (opens : OpensUrl lead) :
    ∃ letters more, lead = letters ++ '(' :: more ∧ Spells "url" letters
      ∧ ∀ c ∈ more, isBlank c = true ∨ isQuote c = true ∨ c = '#' := by
  obtain ⟨word, blanks, opening, rfl, spells, blank, opens⟩ := opens
  obtain ⟨letters, paren, rfl, isParen, spelt⟩ :=
    (show Spells ("url".toList ++ ['(']) word from spells).last
  obtain rfl : paren = '(' := eq_of_sameLetter (by decide) isParen
  refine ⟨letters, blanks ++ opening ++ ['#'], by simp, spelt, fun c member => ?_⟩
  simp only [List.mem_append, List.mem_singleton] at member
  rcases member with (inBlanks | inOpening) | rfl
  · exact Or.inl (blank c inBlanks)
  · exact Or.inr (Or.inl (opens.isQuote inOpening))
  · exact Or.inr (Or.inr rfl)

theorem EndsUrl.of_mem {tail : Text} (ends : EndsUrl tail) {c : Char} (member : c ∈ tail) :
    isBlank c = true ∨ isQuote c = true ∨ c = ')' := by
  obtain ⟨closing, blanks, rfl, closes, blank⟩ := ends
  simp only [List.mem_append, List.mem_singleton] at member
  rcases member with (inClosing | inBlanks) | rfl
  · exact Or.inr (Or.inl (closes.isQuote inClosing))
  · exact Or.inl (blank c inBlanks)
  · exact Or.inr (Or.inr rfl)

/-- What ends a name does not belong to it. -/
theorem EndsUrl.stops {tail : Text} (ends : EndsUrl tail) (rest : Text) :
    ∀ c ∈ (tail ++ rest).head?, isUrlNameChar c = false := by
  intro c isHead
  have nonempty : tail ≠ [] := by
    obtain ⟨closing, blanks, rfl, _⟩ := ends
    simp
  rw [List.head?_append_of_ne_nil _ nonempty] at isHead
  rcases ends.of_mem (List.mem_of_mem_head? isHead) with blank | quoted | rfl
  · simp [isUrlNameChar, blank]
  · simp [isUrlNameChar, quoted]
  · decide

/-- What stands behind a name does not belong to it. -/
theorem Site.url_stops {x v y : Text} (site : Site .url x v y) :
    ∀ c ∈ y.head?, isUrlNameChar c = false := by
  obtain ⟨_, _, tail, rest, _, _, _, _, rfl, ends⟩ := site_url_iff.mp site
  exact ends.stops rest

/-- A character that does not belong to what stands before a name. -/
theorem OpensUrl.not_mem {lead : Text} (opens : OpensUrl lead) {c : Char} (foreign : Foreign "url(" c)
    (solid : isBlank c = false) (notQuote : isQuote c = false) (other : c ≠ '#') : c ∉ lead := by
  obtain ⟨word, blanks, opening, rfl, spells, blank, opens⟩ := opens
  simp only [List.mem_append, List.mem_singleton, not_or]
  refine ⟨⟨⟨spells.not_mem foreign, fun member => ?_⟩, fun member => ?_⟩, other⟩
  · simp [blank c member] at solid
  · simp [opens.isQuote member] at notQuote

theorem EndsUrl.not_mem {tail : Text} (ends : EndsUrl tail) {c : Char} (solid : isBlank c = false)
    (notQuote : isQuote c = false) (other : c ≠ ')') : c ∉ tail := by
  intro member
  rcases ends.of_mem member with blank | quoted | same
  · simp [blank] at solid
  · simp [quoted] at notQuote
  · exact other same

/-- A name has the same surroundings within more text. -/
theorem Site.url_within {x v y : Text} (site : Site .url x v y) (before behind : Text) :
    Site .url (before ++ x) v (y ++ behind) := by
  obtain ⟨front, lead, tail, rest, rfl, opens, nonempty, inName, rfl, ends⟩ := site_url_iff.mp site
  exact site_url_iff.mpr ⟨before ++ front, lead, tail, rest ++ behind, by simp, opens, nonempty, inName,
    by simp, ends⟩

/-- Text before a name may be left out up to a character that a reference cannot hold. -/
theorem Site.url_after {x r v y : Text} {c : Char} (site : Site .url (x ++ c :: r) v y)
    (foreign : Foreign "url(" c) (solid : isBlank c = false) (notQuote : isQuote c = false)
    (other : c ≠ '#') : Site .url r v y := by
  obtain ⟨front, lead, tail, rest, parts, opens, named⟩ := site_url_iff.mp site
  have absent := opens.not_mem foreign solid notQuote other
  obtain ⟨_ | ⟨d, between⟩, split, _⟩ := exists_before parts.symm List.mem_cons_self absent
  · exact absurd (by simp [← show c :: r = lead from split]) absent
  · obtain ⟨rfl, rfl⟩ := List.cons.inj split
    exact site_url_iff.mpr ⟨between, lead, tail, rest, rfl, opens, named⟩

/-- Text behind a name may be left out from a character on that a reference cannot hold. -/
theorem Site.url_until {x v r y : Text} {c : Char} (site : Site .url x v (r ++ c :: y))
    (solid : isBlank c = false) (notQuote : isQuote c = false) (other : c ≠ ')') :
    Site .url x v r := by
  obtain ⟨front, lead, tail, rest, rfl, opens, nonempty, inName, parts, ends⟩ := site_url_iff.mp site
  have absent := ends.not_mem solid notQuote other
  have whole : tail ++ rest = (r ++ [c]) ++ y := by rw [← parts, List.append_cons]
  obtain ⟨between, split, _⟩ := exists_behind whole (by simp) absent
  have nonempty' : between ≠ [] := by
    rintro rfl
    rw [List.append_nil] at split
    exact absent (split ▸ by simp)
  obtain ⟨between', rfl⟩ := ends_of_append split nonempty'
  rw [← List.append_assoc] at split
  obtain ⟨rfl, _⟩ := List.append_inj' split rfl
  exact site_url_iff.mpr ⟨front, lead, tail, between', rfl, opens, nonempty, inName, rfl, ends⟩

/-- Text before a name does not matter if a character stands between that a reference cannot hold. -/
theorem Site.url_front {x v y r : Text} {c : Char} (site : Site .url (x ++ r) v y) (member : c ∈ r)
    (foreign : Foreign "url(" c) (solid : isBlank c = false) (notQuote : isQuote c = false)
    (other : c ≠ '#') (x' : Text) : Site .url (x' ++ r) v y := by
  obtain ⟨between, r, rfl⟩ := List.append_of_mem member
  rw [← List.append_assoc] at site
  have later := (site.url_after foreign solid notQuote other).url_within (x' ++ between ++ [c]) []
  simpa using later

/-- Text behind a name does not matter if a character stands between that a reference cannot hold. -/
theorem Site.url_behind {x v y r : Text} {c : Char} (site : Site .url x v (r ++ y)) (member : c ∈ r)
    (solid : isBlank c = false) (notQuote : isQuote c = false) (other : c ≠ ')') (y' : Text) :
    Site .url x v (r ++ y') := by
  obtain ⟨r, between, rfl⟩ := List.append_of_mem member
  rw [List.append_assoc, List.cons_append] at site
  have earlier := (site.url_until solid notQuote other).url_within [] (c :: (between ++ y'))
  simpa using earlier

/-- Any name may stand in place of another. -/
theorem Site.url_named {x v v' y : Text} (site : Site .url x v y) (nonempty : v' ≠ [])
    (inName : ∀ d ∈ v', isUrlNameChar d = true) : Site .url x v' y := by
  obtain ⟨front, lead, tail, rest, rfl, opens, _, _, rfl, ends⟩ := site_url_iff.mp site
  exact site_url_iff.mpr ⟨front, lead, tail, rest, rfl, opens, nonempty, inName, rfl, ends⟩

/-! ### Reading -/

theorem readUrlStart_of_opens {lead text : Text} (opens : OpensUrl lead) :
    readUrlStart (lead ++ text) = some (lead, text) := by
  obtain ⟨word, blanks, opening, rfl, spells, blank, rfl | ⟨quote, quoted, rfl⟩⟩ := opens
  · have read : readUrlStart (word ++ blanks ++ '#' :: text) = _ :=
      readUrlStart_of spells blank (by decide)
    simpa [show isQuote '#' = false by decide] using read
  · have read : readUrlStart (word ++ blanks ++ quote :: '#' :: text) = _ :=
      readUrlStart_of spells blank (not_isBlank_of_isQuote quoted)
    simpa [quoted] using read

theorem readUrlEnd_of_ends {tail rest : Text} (ends : EndsUrl tail) :
    readUrlEnd (tail ++ rest) = some (tail, rest) := by
  obtain ⟨closing, blanks, rfl, closes, blank⟩ := ends
  have closed : isBlank ')' = false := by decide
  have drops : (blanks ++ ')' :: rest).dropWhile isBlank = ')' :: rest := by
    rw [List.dropWhile_append_of_pos blank, List.dropWhile_cons_of_neg (by simp [closed])]
  have takes : (blanks ++ ')' :: rest).takeWhile isBlank = blanks := by
    rw [List.takeWhile_append_of_pos blank, List.takeWhile_cons_of_neg (by simp [closed])]
    simp
  have parts : closing ++ blanks ++ [')'] ++ rest = closing ++ (blanks ++ ')' :: rest) := by simp
  have quotes : readOptionalQuote (closing ++ (blanks ++ ')' :: rest))
      = (closing, blanks ++ ')' :: rest) := by
    rcases closes with rfl | ⟨quote, quoted, rfl⟩
    · rcases blanks with _ | ⟨b, blanks⟩
      · rfl
      · have notQuote : isQuote b = false := by
          by_contra quoted
          have solid := not_isBlank_of_isQuote (by simpa using quoted : isQuote b = true)
          simp [blank b List.mem_cons_self] at solid
        simp [readOptionalQuote, notQuote]
    · simp [readOptionalQuote, quoted]
  rw [parts, readUrlEnd, quotes]
  simp only [drops, takes]

/-- A reference is read where it stands. -/
theorem readUrl_of_opens {lead v tail rest : Text} (opens : OpensUrl lead) (nonempty : v ≠ [])
    (inName : ∀ d ∈ v, isUrlNameChar d = true) (ends : EndsUrl tail) :
    readUrl (lead ++ v ++ tail ++ rest) = some ⟨lead, v, tail, rest, none, none⟩ := by
  have takes : (v ++ (tail ++ rest)).takeWhile isUrlNameChar = v := by
    rw [List.takeWhile_append_of_pos inName]
    cases split : tail ++ rest with
    | nil => simp
    | cons c text => simp [ends.stops rest c (by rw [split]; rfl)]
  have drops : (v ++ (tail ++ rest)).dropWhile isUrlNameChar = tail ++ rest := by
    rw [List.dropWhile_append_of_pos inName]
    cases split : tail ++ rest with
    | nil => simp
    | cons c text => simp [ends.stops rest c (by rw [split]; rfl)]
  rw [List.append_assoc, List.append_assoc, readUrl_of_start (readUrlStart_of_opens opens), nameUrl]
  simp [takes, drops, nonempty, readUrlEnd_of_ends ends]

/-! ### Places -/

/-- **No reference begins within another.** -/
theorem not_within_url {lead v tail before within behind lead' text : Text} (opens : OpensUrl lead)
    (inName : ∀ d ∈ v, isUrlNameChar d = true) (ends : EndsUrl tail)
    (parts : lead ++ v ++ tail = before ++ within) (nonempty : before ≠ []) (nonempty' : within ≠ [])
    (opens' : OpensUrl lead') : lead' ++ text ≠ within ++ behind := by
  intro same
  obtain ⟨letters, more, rfl, spells, inMore⟩ := opens.parts
  obtain ⟨letters', more', rfl, spells', _⟩ := opens'.parts
  have noParen : ∀ {read : Text}, Spells "url" read → '(' ∉ read ∧ ')' ∉ read :=
    fun spells => ⟨spells.not_mem (by decide), spells.not_mem (by decide)⟩
  have noMore : '(' ∉ more ++ v ++ tail := by
    simp only [List.mem_append, not_or]
    refine ⟨⟨fun member => ?_, fun member => ?_⟩, fun member => ?_⟩
    · exact absurd (inMore '(' member) (by decide)
    · exact absurd (inName '(' member) (by decide)
    · exact absurd (ends.of_mem member) (by decide)
  -- The last character of the first reference is a closing parenthesis, which is no letter.
  have closed : ')' ∉ within → False := by
    intro absent
    obtain ⟨closing, blanks, rfl, _⟩ := ends
    rw [← List.append_assoc] at parts
    obtain ⟨within', rfl⟩ := ends_of_append parts nonempty'
    simp at absent
  rw [List.append_assoc] at same
  rcases List.append_eq_append_iff.mp same with ⟨_ | ⟨c, inside⟩, rfl, split⟩ | ⟨rest, rfl, _⟩
  · rw [List.append_nil] at closed
    exact closed (noParen spells').2
  · obtain ⟨rfl, _⟩ := List.cons.inj split
    have twice : letters ++ '(' :: (more ++ v ++ tail) = (before ++ letters') ++ '(' :: inside := by
      simpa using parts
    obtain ⟨all, _⟩ := (List.append_cons_inj_of_notMem (noParen spells).1 noMore).mp twice
    have sizes := congrArg List.length all
    have size := spells.length_eq
    have size' := spells'.length_eq
    have positive := List.length_pos_iff.mpr nonempty
    rw [List.length_append] at sizes
    omega
  · exact closed fun member => (noParen spells').2 (List.mem_append_left rest member)

/-- A reference that is read before another one ends before it. -/
theorem ends_before_url {front lead behind : Text} {hit : Hit} (nonempty : front ≠ [])
    (found : readUrl (front ++ (lead ++ behind)) = some hit) (opens : OpensUrl lead) :
    ∃ kept, front = hit.lead ++ hit.value ++ hit.tail ++ kept
      ∧ hit.rest = kept ++ (lead ++ behind) := by
  obtain ⟨opens', _, inName', ends'⟩ := readUrl_eq_some found
  have parts : front ++ (lead ++ behind) = (hit.lead ++ hit.value ++ hit.tail) ++ hit.rest := by
    simpa [Hit.text] using (readUrl_eq found).1
  rcases List.append_eq_append_iff.mp parts with ⟨within, whole, split⟩ | apart
  · by_cases empty : within = []
    · subst empty
      exact ⟨[], by simpa using whole.symm, by simpa using split.symm⟩
    · exact absurd split (not_within_url opens' inName' ends' whole nonempty empty opens)
  · exact apart

/-- **A name is captured wherever it has the surroundings of one.** The induction is on the text before
the reference. -/
theorem captures_of_site {place : Place} {x v y : Text} (site : Site .url x v y) :
    (urlReferences.cutFrom place [] (x ++ v ++ y)).Captures x v y := by
  obtain ⟨front, lead, tail, rest, rfl, opens, nonempty, inName, rfl, ends⟩ := site_url_iff.mp site
  clear site
  induction size : front.length using Nat.strong_induction_on generalizing place front with
  | _ n ih =>
    rcases front with _ | ⟨c, front⟩
    · have found : urlReferences.run place ([] ++ lead ++ v ++ (tail ++ rest))
          = some ⟨lead, v, tail, rest, none, none⟩ := by
        rw [← List.append_assoc]
        exact readUrl_of_opens opens nonempty inName ends
      rw [Matcher.cutFrom_some found]
      refine Segments.captures_push.mpr (Or.inl ⟨rfl, rfl, ?_⟩)
      simp [Matcher.text_cutFrom_nil]
    · have whole : c :: front ++ lead ++ v ++ (tail ++ rest)
          = c :: (front ++ lead ++ v ++ (tail ++ rest)) := rfl
      rw [whole]
      cases found : urlReferences.run place (c :: (front ++ lead ++ v ++ (tail ++ rest))) with
      | none =>
        rw [Matcher.cutFrom_none found]
        exact Segments.captures_prepend.mpr ⟨front ++ lead, rfl, ih _ (by simp [← size]) front rfl⟩
      | some hit =>
        have split : urlReferences.run place (c :: front ++ (lead ++ (v ++ (tail ++ rest))))
            = some hit := by
          simpa using found
        obtain ⟨kept, before, behind⟩ := ends_before_url (List.cons_ne_nil c front) split opens
        have lengths := congrArg List.length before
        have positive := List.length_pos_iff.mpr (urlReferences.advances _ _ _ found)
        have shorter : kept.length < n := by
          simp only [List.length_append] at lengths
          omega
        have deeper : (urlReferences.cutFrom .joined [] (kept ++ lead ++ v ++ (tail ++ rest))).Captures
            (kept ++ lead) v (tail ++ rest) := ih _ shorter kept rfl
        rw [Matcher.cutFrom_some found, behind]
        refine Segments.captures_push.mpr (Or.inr ⟨hit.tail ++ (kept ++ lead), ?_, ?_⟩)
        · rw [before]
          simp
        · refine Segments.captures_prepend.mpr ⟨kept ++ lead, rfl, ?_⟩
          simpa using deeper

/-- **A name is captured exactly if it has the surroundings of one.** -/
theorem captures_urlReferences_iff {text x v y : Text} :
    (urlReferences.cut text).Captures x v y ↔ text = x ++ v ++ y ∧ Site .url x v y := by
  constructor
  · intro captured
    have site : Site .url x v y := site_of_captures captured
    exact ⟨(Matcher.text_cut _ text).symm.trans captured.text_eq, site⟩
  · rintro ⟨rfl, site⟩
    exact captures_of_site site

end Relabel
