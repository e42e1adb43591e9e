/-
**References within stylesheets.**

The body of a style element may hold `url(#name)` if the name is that of a selector: the selector `#name`
between two parentheses. Relabelling a stylesheet never brings forth a reference to another name, for a
reference ends before a sigil, is the new name itself, or begins behind the new name.

* `UrlsSelected`: names that are referred to are those of selectors.
* `Site.url_name`: a reference behind a new name does not reach into the name.
* `UrlsSelected.swap`: one name replaced, the step.
* `UrlsSelected.relabelStylesheet`: relabelling keeps the condition.
-/

import Relabel.Proofs.Markup.UrlSite
import Relabel.Proofs.Substitution.OneName
import Relabel.Proofs.Substitution.Respelled

namespace Relabel

/-- Names that are referred to in a stylesheet are those of selectors. -/
def UrlsSelected (css : Text) : Prop :=
  ∀ x v y, css = x ++ v ++ y → Site .url x v y → IsName v → (selectors.cut css).Captures x v y

/-- New names make selectors and cannot be the beginning of `url(`. -/
def Renamings.Apt (names : Renamings) : Prop :=
  ∀ kind token name, (names.ofKind kind).get? token = some name →
    isIdentifierStart name = true ∧ Discreet name

theorem isNameChar_of_isIdentifierChar {c : Char} (plain : isIdentifierChar c = true) :
    isNameChar c = true := by
  simp [isNameChar, plain]

/-! ### Names and references -/

/-- Two names at the front of a text are the same. -/
theorem eq_of_names {first second y y' : Text} (isFirst : IsName first) (isSecond : IsName second)
    (stops : ∀ c ∈ y.head?, isNameChar c = false) (stops' : ∀ c ∈ y'.head?, isUrlNameChar c = false)
    (same : first ++ y = second ++ y') : first = second ∧ y = y' := by
  rcases List.append_eq_append_iff.mp same with ⟨_ | ⟨c, more⟩, rfl, rfl⟩ | ⟨_ | ⟨c, more⟩, rfl, rfl⟩
  · exact ⟨by simp, rfl⟩
  · have stopped := stops c rfl
    rw [isNameChar_of_isIdentifierChar (isSecond.2 c (by simp))] at stopped
    exact absurd stopped (by decide)
  · exact ⟨by simp, rfl⟩
  · have stopped := stops' c rfl
    rw [(identifier_facts (isFirst.2 c (by simp))).2.2.1] at stopped
    exact absurd stopped (by decide)

/-- **A reference behind a name does not reach into the name** if the name is discreet and ends there. -/
theorem Site.url_name {w name r v y : Text} (site : Site .url (w ++ name ++ r) v y)
    (discreet : Discreet name) (stops : ∀ c ∈ r.head?, isNameChar c = false) (w' : Text) :
    Site .url (w' ++ r) v y := by
  obtain ⟨front, lead, tail, rest, parts, opens, named⟩ := site_url_iff.mp site
  obtain ⟨letters, more, spelt, spells, inMore⟩ := opens.parts
  rcases List.append_eq_append_iff.mp parts with ⟨between, _, rfl⟩ | ⟨inside, overlap, split⟩
  · exact site_url_iff.mpr ⟨w' ++ between, lead, tail, rest, by simp, opens, named⟩
  rcases List.eq_nil_or_concat' inside with rfl | ⟨before, c, rfl⟩
  · rw [List.nil_append] at split
    exact site_url_iff.mpr ⟨w', lead, tail, rest, by rw [split], opens, named⟩
  · exfalso
    -- The last character of the name would stand behind the parenthesis.
    obtain ⟨name', rfl⟩ : ∃ name', name = name' ++ [c] :=
      ends_of_append (show front ++ before ++ [c] = w ++ name by simp [overlap]) discreet.isName.1
    have plain := discreet.isName.2 c (by simp)
    obtain ⟨further, whole, rfl⟩ := exists_behind_paren spells (discreet.last c (by simp)) stops
      (split.symm.trans spelt)
    obtain ⟨solid, notQuote, _, others⟩ := identifier_facts plain
    obtain ⟨behind, last⟩ := ends_of_append whole (List.cons_ne_nil _ _)
    have member : c ∈ '(' :: further := by simp [last]
    rcases List.mem_cons.mp member with rfl | inFurther
    · exact others (by decide)
    · rcases inMore c (List.mem_append_left r inFurther) with blank | quoted | rfl
      · simp [solid] at blank
      · simp [notQuote] at quoted
      · exact others (by decide)

/-- What holds of both sigils with regard to references. -/
theorem sigil_facts_url {c : Char} (isSigil : (kindOfSigil? c).isSome = true) :
    isBlank c = false ∧ isQuote c = false ∧ c ≠ ')' ∧ isIdentifierChar c = false := by
  rcases eq_of_kindOfSigil? isSigil with rfl | rfl <;> decide

/-! ### One name replaced -/

/-- A reference behind the new name was one behind the old name. -/
theorem UrlsSelected.captures_behind {x old new r v y : Text}
    (selected : UrlsSelected (x ++ old ++ (r ++ (v ++ y)))) (site : Site .url (x ++ new ++ r) v y)
    (isName : IsName v) (discreet : Discreet new)
    (stops : ∀ c ∈ (r ++ (v ++ y)).head?, isNameChar c = false) (nonempty : r ≠ []) :
    (selectors.cut (x ++ old ++ (r ++ (v ++ y)))).Captures (x ++ old ++ r) v y := by
  have stopsHere : ∀ c ∈ r.head?, isNameChar c = false := by
    intro c isHead
    refine stops c ?_
    rw [List.head?_append_of_ne_nil _ nonempty]
    exact isHead
  exact selected _ v y (by simp) (site.url_name discreet stopsHere _) isName

/-- **Replacing the name of one selector brings forth no reference to another name.** A reference stands
before the sigil of the selector, is the new name itself, or stands behind it. -/
theorem UrlsSelected.swap {x old new y : Text} (selected : UrlsSelected (x ++ old ++ y))
    (captured : (selectors.cut (x ++ old ++ y)).Captures x old y)
    (starts : isIdentifierStart new = true) (discreet : Discreet new) :
    UrlsSelected (x ++ new ++ y) := by
  intro x' v y' same site isName
  obtain ⟨segments, swaps⟩ := captured.exists_swaps new
  rw [selectors_cut_swap swaps starts]
  obtain ⟨front, sigil, ends, isSigil, _, _, stops⟩ := selector_site captured
  obtain ⟨solid, notQuote, notParen, notPlain⟩ := sigil_facts_url isSigil
  obtain ⟨word, blanks, opening, front', _, _, _, sharp, _⟩ := site.of_url
  rw [List.append_assoc, List.append_assoc] at same
  by_cases place : x' = x
  · subst place
    obtain ⟨rfl, rfl⟩ := eq_of_names discreet.isName isName stops site.url_stops
      (List.append_cancel_left same)
    exact swaps.symm.captures
  rcases List.append_eq_append_iff.mp same with ⟨r, rfl, behind⟩ | ⟨r, rfl, behind⟩
  · -- The reference stands behind the new name.
    have nonempty : r ≠ [] := fun empty => place (by simp [empty])
    obtain ⟨r', last⟩ := ends_of_append sharp.symm nonempty
    have notInName : '#' ∉ new := fun member => absurd (discreet.isName.2 '#' member) (by decide)
    obtain ⟨r, rfl, rfl⟩ := exists_behind behind (by simp [last]) notInName
    have nonempty' : r ≠ [] := by
      rintro rfl
      rw [List.append_nil] at last
      exact notInName (by simp [last])
    rw [← List.append_assoc] at site ⊢
    exact swaps.captures_behind nonempty'
      (selected.captures_behind site isName discreet stops nonempty')
  · -- The reference stands before the sigil.
    have nonempty : r ≠ [] := fun empty => place (by simp [empty])
    obtain ⟨r', last⟩ := ends_of_append ends.symm nonempty
    have notInName : sigil ∉ v := fun member => by simp [isName.2 sigil member] at notPlain
    obtain ⟨r, rfl, rfl⟩ := exists_behind behind (by simp [last]) notInName
    have inside : sigil ∈ r := by
      have member : sigil ∈ v ++ r := by simp [last]
      exact (List.mem_append.mp member).resolve_left notInName
    rw [← List.append_assoc] at swaps
    rw [← List.append_assoc]
    refine swaps.captures_ahead (List.ne_nil_of_mem inside) ?_
    simpa using selected x' v (r ++ (old ++ y)) (by simp)
      (site.url_behind inside solid notQuote notParen _) isName

/-- **Relabelling a stylesheet brings forth no reference to another name.** -/
theorem UrlsSelected.relabelStylesheet {names : Renamings} (apt : names.Apt) {css : Text}
    (selected : UrlsSelected css) : UrlsSelected (relabelStylesheet names css) := by
  refine relabelStylesheet_induction (fun kind name member => ?_) selected
    fun x old new y kind captured found holds => ?_
  · obtain ⟨⟨token, _⟩, isEntry, rfl⟩ := List.mem_map.mp member
    exact (apt kind token _ (OrderedMap.get?_eq_some_iff.mpr isEntry)).1
  · obtain ⟨starts, discreet⟩ := apt kind old new found
    exact holds.swap captured starts discreet

end Relabel
