/-
**References of the form `url(#name)` before and after a change.**

A reference that begins before the region ends before it, or its name reaches the region, or a quote
that stands right before the region is the last of it that has been read.

* `readUrl_cases`: what can be found at a place before a stopper.
* `UrlChange`: what is asked of a change.
* `UrlChange.stable`: cutting at references commutes with the change.
-/

import Relabel.Proofs.Scan.Cut
import Relabel.Proofs.Scan.Reading
import Relabel.Scan.Url

namespace Relabel

variable {p t v v' x y : Text} {c : Char}

/-! ### The parts of a reference -/

/-- `text` holds, white space aside, a closing parenthesis. -/
def ClosesUrl (text : Text) : Prop :=
  ∃ rest, text.dropWhile isBlank = ')' :: rest

theorem readOptionalQuote_append (nonempty : p ≠ []) :
    readOptionalQuote (p ++ t) = ((readOptionalQuote p).1, (readOptionalQuote p).2 ++ t) := by
  obtain ⟨d, p, rfl⟩ := List.exists_cons_of_ne_nil nonempty
  simp only [List.cons_append, readOptionalQuote]
  split <;> rfl

/-- The end of a reference is read before a stopper or not at all. -/
theorem readUrlEnd_append (member : c ∈ (readOptionalQuote p).2) (solid : isBlank c = false) :
    readUrlEnd (p ++ t) = (readUrlEnd p).map fun (tail, rest) => (tail, rest ++ t) := by
  have nonempty : p ≠ [] := by
    rintro rfl
    simp [readOptionalQuote] at member
  have inRest := mem_dropWhile_of_stop member solid
  simp only [readUrlEnd, readOptionalQuote_append nonempty, dropWhile_append_of_stop member solid,
    takeWhile_append_of_stop member solid]
  cases split : (readOptionalQuote p).2.dropWhile isBlank with
  | nil => simp [split] at inRest
  | cons d rest =>
    by_cases closing : d = ')'
    · subst closing
      rfl
    · simp [closing]

/-- The tail of a reference is not empty. -/
theorem readUrlEnd_ne_nil {tail rest : Text} (found : readUrlEnd p = some (tail, rest)) :
    tail ≠ [] := by
  simp only [readUrlEnd] at found
  split at found
  · obtain ⟨rfl, _⟩ := Prod.mk.inj (Option.some.inj found)
    simp
  · simp at found

/-- Behind a quote, the end of a reference is white space and a parenthesis. -/
theorem readUrlEnd_quote_ne_none_iff (quoted : isQuote c = true) :
    readUrlEnd (c :: t) ≠ none ↔ ClosesUrl t := by
  simp only [readUrlEnd, readOptionalQuote, quoted, if_true, ClosesUrl]
  split
  next rest split => simp [split]
  next notClosing => simp only [ne_eq, not_true_eq_false, false_iff, not_exists]; exact notClosing

/-- What follows the opening parenthesis of a reference. -/
theorem readUrlStart_of {word blanks rest : Text} {d : Char} (spells : Spells "url(" word)
    (allBlank : ∀ b ∈ blanks, isBlank b = true) (solid : isBlank d = false) :
    readUrlStart (word ++ blanks ++ d :: rest)
      = if isQuote d then
          match rest with
          | '#' :: begun => some (word ++ blanks ++ [d, '#'], begun)
          | _ => none
        else if d = '#' then some (word ++ blanks ++ ['#'], rest) else none := by
  have first : readWord "url(" (word ++ blanks ++ d :: rest) = some (word, blanks ++ d :: rest) :=
    readWord_eq_some_iff.mpr ⟨by simp, spells⟩
  have drops : (blanks ++ d :: rest).dropWhile isBlank = d :: rest := by
    rw [List.dropWhile_append_of_pos allBlank, List.dropWhile_cons_of_neg (by simp [solid])]
  have takes : (blanks ++ d :: rest).takeWhile isBlank = blanks := by
    rw [List.takeWhile_append_of_pos allBlank, List.takeWhile_cons_of_neg (by simp [solid])]
    simp
  simp only [readUrlStart, first, Option.bind_eq_bind, Option.bind_some, drops, takes,
    readOptionalQuote]
  by_cases quoted : isQuote d = true
  · simp only [quoted, if_true]
    split <;> simp
  · by_cases sharp : d = '#'
    · subst sharp
      simp [quoted]
    · simp [quoted, sharp]

/-- What opens a reference is read before a stopper, or not at all, or the stopper is a quote that may
belong to it. -/
theorem readUrlStart_cases (member : c ∈ p) (foreign : Foreign "url(" c) (solid : isBlank c = false) :
    (∀ t, readUrlStart (p ++ t) = none)
      ∨ (∃ word blanks, p = word ++ blanks ++ [c] ∧ isQuote c = true ∧ Spells "url(" word
          ∧ ∀ b ∈ blanks, isBlank b = true)
      ∨ ∃ front begun, p = front ++ '#' :: begun
          ∧ ∀ t, readUrlStart (p ++ t) = some (front ++ ['#'], begun ++ t) := by
  cases read : readWord "url(" p with
  | none =>
    refine Or.inl fun t => ?_
    rw [readUrlStart, readWord_append member foreign, read]
    rfl
  | some parts =>
    obtain ⟨word, behind⟩ := parts
    obtain ⟨rfl, spells⟩ := readWord_eq_some_iff.mp read
    obtain ⟨blanks, d, rest, rfl, allBlank, solidHead, inRest⟩ :=
      exists_run_of_stop (mem_of_readWord member foreign read) solid
    have starts : ∀ t, word ++ (blanks ++ d :: rest) ++ t = word ++ blanks ++ d :: (rest ++ t) := by
      simp
    by_cases quoted : isQuote d = true
    · rcases rest with _ | ⟨e, begun⟩
      · obtain rfl : c = d := List.mem_singleton.mp inRest
        exact Or.inr (Or.inl ⟨word, blanks, by simp, quoted, spells, allBlank⟩)
      · by_cases sharp : e = '#'
        · subst sharp
          refine Or.inr (Or.inr ⟨word ++ blanks ++ [d], begun, by simp, fun t => ?_⟩)
          rw [starts, readUrlStart_of spells allBlank solidHead]
          simp [quoted]
        · refine Or.inl fun t => ?_
          rw [starts, readUrlStart_of spells allBlank solidHead]
          simp [quoted, sharp]
    · by_cases sharp : d = '#'
      · subst sharp
        refine Or.inr (Or.inr ⟨word ++ blanks, rest, by simp, fun t => ?_⟩)
        rw [starts, readUrlStart_of spells allBlank solidHead]
        simp [quoted]
      · refine Or.inl fun t => ?_
        rw [starts, readUrlStart_of spells allBlank solidHead]
        simp [quoted, sharp]

/-! ### Whole references -/

/-- The match of a reference that has been opened and of whose name `begun` has been read. -/
def nameUrl (lead begun text : Text) : Option Hit :=
  let value := begun ++ text.takeWhile isUrlNameChar
  if value = [] then none
  else
    (readUrlEnd (text.dropWhile isUrlNameChar)).map fun (tail, rest) => { lead, value, tail, rest }

theorem nameUrl_eq_some {lead begun text : Text} {hit : Hit}
    (found : nameUrl lead begun text = some hit) :
    hit.lead = lead ∧ hit.value = begun ++ text.takeWhile isUrlNameChar := by
  unfold nameUrl at found
  simp only at found
  split at found
  · simp at found
  · obtain ⟨parts, _, rfl⟩ := Option.map_eq_some_iff.mp found
    exact ⟨rfl, rfl⟩

theorem readUrl_of_start {lead begun : Text} (starts : readUrlStart p = some (lead, begun)) :
    readUrl p = nameUrl lead [] begun := by
  simp only [readUrl, starts, Option.bind_eq_bind, Option.bind_some, nameUrl, List.nil_append]
  split
  · rfl
  · cases readUrlEnd (begun.dropWhile isUrlNameChar) <;> rfl

/-- A name that has begun is continued. -/
theorem nameUrl_append {lead begun text : Text} (inName : ∀ d ∈ begun, isUrlNameChar d = true) :
    nameUrl lead [] (begun ++ text) = nameUrl lead begun text := by
  simp only [nameUrl, List.nil_append, List.takeWhile_append_of_pos inName,
    List.dropWhile_append_of_pos inName]

/-- The name of a reference ends at the first character that may not stand in a name. -/
theorem nameUrl_stopped {lead name rest : Text} {e : Char}
    (allName : ∀ d ∈ name, isUrlNameChar d = true) (stops : isUrlNameChar e = false) (t : Text) :
    nameUrl lead [] (name ++ e :: rest ++ t) = if name = [] then none
      else (readUrlEnd (e :: rest ++ t)).map fun (tail, rest) =>
        { lead, value := name, tail, rest } := by
  have stopped : ∀ c ∈ (e :: rest ++ t).head?, isUrlNameChar c = false := by simpa using stops
  rw [List.append_assoc]
  simp only [nameUrl, List.nil_append, takeWhile_dropWhile_append allName stopped]

/-- The last character of a text stands behind the optional quote, or is the quote. -/
theorem last_behind_quote {front lead rest : Text} {e : Char}
    (same : front ++ [c] = lead ++ e :: rest) :
    c ∈ (readOptionalQuote (e :: rest)).2 ∨ (c = e ∧ rest = [] ∧ isQuote e = true) := by
  rcases rest.eq_nil_or_concat with rfl | ⟨earlier, last, rfl⟩
  · obtain rfl : c = e := (List.append_singleton_inj.mp same).2
    by_cases quoted : isQuote c = true
    · exact Or.inr ⟨rfl, rfl, quoted⟩
    · exact Or.inl (by simp [readOptionalQuote, quoted])
  · have split : front ++ [c] = (lead ++ e :: earlier) ++ [last] := by simpa using same
    obtain rfl : c = last := (List.append_singleton_inj.mp split).2
    refine Or.inl ?_
    rw [readOptionalQuote]
    split <;> simp

/-- If a stopper stands in what follows the name of a reference, then the reference ends before the
stopper or there is none. -/
theorem settled_of_readUrlEnd {lead name rest : Text} (member : c ∈ (readOptionalQuote rest).2)
    (solid : isBlank c = false)
    (reads : ∀ t, readUrl (p ++ t) = (readUrlEnd (rest ++ t)).map fun (tail, rest) =>
      { lead, value := name, tail, rest }) : Settled readUrl p := by
  cases closed : readUrlEnd rest with
  | none =>
    refine Or.inl fun t => ?_
    rw [reads, readUrlEnd_append member solid, closed]
    rfl
  | some closing =>
    obtain ⟨tail, kept⟩ := closing
    refine Or.inr ⟨⟨lead, name, tail, [], none, none⟩, kept, readUrlEnd_ne_nil closed, fun t => ?_⟩
    rw [reads, readUrlEnd_append member solid, closed]
    rfl

/-- What can be found if the name ends before the stopper or with it: nothing or a reference that ends
before whatever follows, or all but the end of a reference. -/
theorem readUrl_ended {front lead begun : Text} (ends : p = front ++ [c]) (solid : isBlank c = false)
    (parts : p = lead ++ '#' :: begun)
    (starts : ∀ t, readUrlStart (p ++ t) = some (lead ++ ['#'], begun ++ t))
    (ended : ∃ d ∈ begun, isUrlNameChar d = false) :
    Settled readUrl p
      ∨ ∃ lead name, p = lead ++ name ++ [c] ∧ isQuote c = true ∧ name ≠ []
          ∧ (∀ d ∈ name, isUrlNameChar d = true)
          ∧ ∀ t, (∀ hit, readUrl (p ++ t) = some hit → hit.value = name)
            ∧ (readUrl (p ++ t) ≠ none ↔ ClosesUrl t) := by
  obtain ⟨stop, inBegun, stops⟩ := ended
  obtain ⟨name, e, rest, rfl, allName, notName, _⟩ := exists_run_of_stop inBegun stops
  have reads : ∀ t, readUrl (p ++ t) = nameUrl (lead ++ ['#']) [] (name ++ e :: rest ++ t) :=
    fun t => readUrl_of_start (starts t)
  simp only [nameUrl_stopped allName notName] at reads
  by_cases empty : name = []
  · exact Or.inl (Or.inl fun t => by rw [reads, if_pos empty])
  simp only [if_neg empty] at reads
  have last : front ++ [c] = (lead ++ '#' :: name) ++ e :: rest := by
    rw [← ends, parts]
    simp
  rcases last_behind_quote last with behind | ⟨rfl, rfl, quoted⟩
  · exact Or.inl (settled_of_readUrlEnd behind solid reads)
  · refine Or.inr ⟨lead ++ ['#'], name, by simp [parts], quoted, empty, allName,
      fun t => ⟨fun hit found => ?_, ?_⟩⟩
    · rw [reads] at found
      obtain ⟨closing, _, rfl⟩ := Option.map_eq_some_iff.mp found
      rfl
    · rw [reads, Ne, Option.map_eq_none_iff]
      exact readUrlEnd_quote_ne_none_iff quoted

/-- What can be found where a stopper is ahead: nothing or a reference that ends before whatever
follows; the beginning of a reference up to the stopper; all but the end of a reference; or a reference
whose name goes on. -/
theorem readUrl_cases {front : Text} (ends : p = front ++ [c]) (foreign : Foreign "url(" c)
    (solid : isBlank c = false) :
    Settled readUrl p
      ∨ (∃ word blanks, p = word ++ blanks ++ [c] ∧ isQuote c = true ∧ Spells "url(" word
          ∧ ∀ b ∈ blanks, isBlank b = true)
      ∨ (∃ lead name, p = lead ++ name ++ [c] ∧ isQuote c = true ∧ name ≠ []
          ∧ (∀ d ∈ name, isUrlNameChar d = true)
          ∧ ∀ t, (∀ hit, readUrl (p ++ t) = some hit → hit.value = name)
            ∧ (readUrl (p ++ t) ≠ none ↔ ClosesUrl t))
      ∨ ∃ lead begun, p = lead ++ begun ∧ lead.getLast? = some '#'
          ∧ (∀ d ∈ begun, isUrlNameChar d = true)
          ∧ ∀ t, readUrl (p ++ t) = nameUrl lead begun t := by
  have member : c ∈ p := by simp [ends]
  rcases readUrlStart_cases member foreign solid with misses | atQuote | ⟨lead, begun, parts, starts⟩
  · refine Or.inl (Or.inl fun t => ?_)
    rw [readUrl, misses]
    rfl
  · exact Or.inr (Or.inl atQuote)
  · by_cases inName : ∀ d ∈ begun, isUrlNameChar d = true
    · refine Or.inr (Or.inr (Or.inr ⟨lead ++ ['#'], begun, by simp [parts], by simp, inName, ?_⟩))
      intro t
      rw [readUrl_of_start (starts t), nameUrl_append inName]
    · have ended : ∃ d ∈ begun, isUrlNameChar d = false := by simpa using inName
      rcases readUrl_ended ends solid parts starts ended with settled | atEnd
      · exact Or.inl settled
      · exact Or.inr (Or.inr (Or.inl atEnd))

/-! ### Changes -/

/-- What is asked of a change of `x ++ v ++ y` to `x ++ v' ++ y` for cutting at references. The text
before the region ends with the stopper `c`. -/
structure UrlChange (exact : Prop) (c : Char) (x v v' y : Text) : Prop where
  last : ∃ front, x = front ++ [c]
  solid : isBlank c = false
  foreign : Foreign "url(" c
  /-- A stopper that is a quote opens the value of an attribute, and the change does not make the region
  the end of a reference. -/
  quoted : isQuote c = true →
    (∃ front blanks, x = front ++ '=' :: blanks ++ [c] ∧ ∀ b ∈ blanks, isBlank b = true)
      ∧ (ClosesUrl (v' ++ y) → ClosesUrl (v ++ y))
  /-- If a name may reach the region, then the change does not make the region the end of a reference. -/
  named : isUrlNameChar c = true →
    readUrlEnd ((v' ++ y).dropWhile isUrlNameChar) ≠ none →
    readUrlEnd ((v ++ y).dropWhile isUrlNameChar) ≠ none
  /-- If the region may be a name, then it is one before and after the change. -/
  sharp : c = '#' → v ≠ [] ∧ v' ≠ [] ∧ (∀ d ∈ v, isUrlNameChar d = true)
    ∧ (∀ d ∈ v', isUrlNameChar d = true) ∧ y.takeWhile isUrlNameChar = []
  short : ¬ exact → ∀ r hit, r ≠ [] → r <:+ v → readUrl (r ++ y) = some hit →
    hit.lead.length ≤ r.length
  idle : ¬ exact → urlReferences.Idle v y → urlReferences.Idle v' y

theorem nameUrl_ne_none_iff {lead begun : Text} (nonempty : begun ≠ []) :
    nameUrl lead begun t ≠ none ↔ readUrlEnd (t.dropWhile isUrlNameChar) ≠ none := by
  simp [nameUrl, nonempty]

/-- A name that stands right before an opening quote ends with the equals sign. -/
theorem sign_mem_of_suffix {name front blanks lead : Text} (nonempty : name ≠ [])
    (inName : ∀ d ∈ name, isUrlNameChar d = true) (allBlank : ∀ b ∈ blanks, isBlank b = true)
    (suffix : lead ++ name ++ [c] <:+ front ++ '=' :: blanks ++ [c]) : '=' ∈ name := by
  obtain ⟨more, same⟩ := suffix
  rw [← List.append_assoc] at same
  have inner : front ++ '=' :: blanks = more ++ lead ++ name := by
    simpa using (List.append_inj' same rfl).1.symm
  rcases List.eq_nil_or_concat blanks with rfl | ⟨earlier, b, rfl⟩
  · obtain ⟨_, last⟩ := ends_of_append inner nonempty
    simp [last]
  · have blank : isBlank b = true := allBlank b (by simp)
    have lasts : (front ++ '=' :: earlier) ++ [b] = (more ++ lead) ++ name := by simpa using inner
    obtain ⟨name', last⟩ := ends_of_append lasts nonempty
    have nameChar := inName b (by simp [last])
    simp [isUrlNameChar, blank] at nameChar

/-- The opening of a reference does not stand right before the quote that opens a value. -/
theorem not_suffix_of_spells {word blanks front blanks' : Text} (spells : Spells "url(" word)
    (allBlank : ∀ b ∈ blanks, isBlank b = true) (blankBehind : ∀ b ∈ blanks', isBlank b = true) :
    ¬ word ++ blanks ++ [c] <:+ front ++ '=' :: blanks' ++ [c] := by
  rintro ⟨more, same⟩
  have spelt : Spells ("url".toList ++ ['(']) word := spells
  obtain ⟨letters, paren, rfl, sameParen, _⟩ := spelt.last
  obtain rfl : paren = '(' := eq_of_sameLetter (by decide) sameParen
  rw [← List.append_assoc] at same
  have inner := (List.append_inj' same rfl).1
  refine cons_append_ne (s := more ++ letters) (c := '(') (a := blanks) (d := '=') (b := blanks')
    (t := front) ?_ ?_ (by decide) (by simpa using inner)
  · exact fun member => absurd (allBlank '=' member) (by decide)
  · exact fun member => absurd (blankBehind '(' member) (by decide)

/-- Without an opening parenthesis in the region, no reference begins in it. -/
theorem readUrl_region {r blanks rest : Text} {e : Char} (noParen : '(' ∉ r)
    (allBlank : ∀ b ∈ blanks, isBlank b = true) (foreign : Foreign "url(" e) :
    readUrl (r ++ (blanks ++ e :: rest)) = none := by
  by_contra found
  obtain ⟨hit, found⟩ := Option.ne_none_iff_exists'.mp found
  simp only [readUrl, Option.bind_eq_bind, Option.bind_eq_some_iff, readUrlStart] at found
  obtain ⟨_, ⟨⟨word, behind⟩, first, _⟩, _⟩ := found
  obtain ⟨parts, spells⟩ := readWord_eq_some_iff.mp first
  have spelt : Spells ("url".toList ++ ['(']) word := spells
  obtain ⟨letters, paren, rfl, sameParen, spellsLetters⟩ := spelt.last
  obtain rfl : paren = '(' := eq_of_sameLetter (by decide) sameParen
  have notInLetters : e ∉ letters := spellsLetters.not_mem fun small member =>
    foreign small (List.mem_append_left ['('] member)
  have notParen : e ≠ '(' := by
    rintro rfl
    exact absurd (foreign '(' (by decide)) (by decide)
  refine append_cons_ne (a := r ++ blanks) (c := e) (s := rest) (b := letters) (d := '(')
    (t := behind) ?_ notInLetters notParen (by simpa using parts)
  intro member
  rcases List.mem_append.mp member with inRegion | inBlanks
  · exact noParen inRegion
  · exact absurd (allBlank '(' inBlanks) (by decide)

namespace UrlChange

variable {exact : Prop}

/-- A reference whose name is the region. -/
theorem tracks_sharp (change : UrlChange exact '#' x v v' y) (lead : Text) :
    Tracks lead v v' y (nameUrl lead [] (v ++ y)) (nameUrl lead [] (v' ++ y)) := by
  obtain ⟨oldNonempty, newNonempty, oldName, newName, stops⟩ := change.sharp rfl
  simp only [nameUrl, List.nil_append, List.takeWhile_append_of_pos oldName,
    List.takeWhile_append_of_pos newName, List.dropWhile_append_of_pos oldName,
    List.dropWhile_append_of_pos newName, stops, List.append_nil, oldNonempty, newNonempty, if_false]
  cases readUrlEnd (y.dropWhile isUrlNameChar) with
  | none => exact Tracks.missed
  | some closing => exact Tracks.filled ⟨lead, v, closing.1, closing.2, none, none⟩

/-- A reference whose name would reach the region. -/
theorem tracks_begun (change : UrlChange exact c x v v' y) {lead begun : Text} (nonempty : begun ≠ [])
    (nameChar : isUrlNameChar c = true)
    (respects : ∀ hit, nameUrl lead begun (v ++ y) = some hit → hit.Respects (lead ++ begun) v) :
    Tracks (lead ++ begun) v v' y (nameUrl lead begun (v ++ y)) (nameUrl lead begun (v' ++ y)) := by
  refine Tracks.begun nonempty (fun hit found => ?_) respects fun found => ?_
  · obtain ⟨sameLead, sameValue⟩ := nameUrl_eq_some found
    exact ⟨sameLead, _, sameValue⟩
  · exact (nameUrl_ne_none_iff nonempty).mpr
      (change.named nameChar ((nameUrl_ne_none_iff nonempty).mp found))

/-- A reference before the region. -/
theorem tracks (change : UrlChange exact c x v v' y) (nonempty : p ≠ []) (suffix : p <:+ x)
    (respects : ∀ hit, readUrl (p ++ v ++ y) = some hit → hit.Respects p v ∧ '=' ∉ hit.value) :
    Tracks p v v' y (readUrl (p ++ v ++ y)) (readUrl (p ++ v' ++ y)) := by
  obtain ⟨front, ends⟩ := ends_of_suffix change.last nonempty suffix
  rcases readUrl_cases ends change.foreign change.solid with settled | ⟨word, blanks, parts, quoted,
    spells, allBlank⟩ | ⟨lead, name, parts, quoted, named, inName, finds⟩ | ⟨lead, begun, parts,
    sharp, inName, finds⟩
  · exact settled.tracks v v' y
  · obtain ⟨⟨front, blanks', rfl, blankBehind⟩, _⟩ := change.quoted quoted
    exact absurd (parts ▸ suffix) (not_suffix_of_spells spells allBlank blankBehind)
  · -- The name of a match would end with the equals sign of the attribute.
    obtain ⟨⟨front, blanks, rfl, allBlank⟩, closes⟩ := change.quoted quoted
    have sign := sign_mem_of_suffix named inName allBlank (parts ▸ suffix)
    rw [List.append_assoc] at respects
    rw [List.append_assoc, List.append_assoc]
    have old : readUrl (p ++ (v ++ y)) = none := by
      by_contra found
      obtain ⟨hit, found⟩ := Option.ne_none_iff_exists'.mp found
      exact (respects hit found).2 ((finds _).1 hit found ▸ sign)
    have new : readUrl (p ++ (v' ++ y)) = none := by
      by_contra found
      exact (finds _).2.mpr (closes ((finds _).2.mp found)) old
    rw [old, new]
    exact Tracks.missed
  · rw [List.append_assoc, finds] at respects
    rw [List.append_assoc, List.append_assoc, finds, finds]
    by_cases empty : begun = []
    · subst empty
      rw [List.append_nil] at parts
      subst parts
      obtain rfl : c = '#' := by simpa [ends] using sharp
      exact change.tracks_sharp p
    · have nameChar : isUrlNameChar c = true := by
        obtain ⟨_, last⟩ := ends_of_append (ends.symm.trans parts) empty
        exact inName c (by simp [last])
      subst parts
      exact change.tracks_begun empty nameChar fun hit found => (respects hit found).1

/-- **Cutting at references commutes with the change**, if no captured name holds an equals sign. -/
theorem stable (change : UrlChange exact c x v v' y) {good : Text → Prop}
    (noSign : ∀ value, good value → '=' ∉ value) : urlReferences.Stable exact good x v v' y where
  placeless _ _ _ _ _ := rfl
  tracks _ _ nonempty suffix respects := change.tracks nonempty suffix fun hit found =>
    ⟨(respects hit found).1, noSign _ (respects hit found).2⟩
  short notExact _ r hit _ nonempty suffix found :=
    change.short notExact r hit nonempty suffix found
  idle := change.idle

end UrlChange

end Relabel
