/-
**The characters of addresses that have been read.**

Reading an address leaves printable characters of ASCII in every part of it, and a number sign in no part but the
fragment: what has a rule for escapes is escaped, the names of hosts take their ASCII form, and the text of a part
with no rule for the number sign ends in front of it.

* `Url.Printed`: texts of such characters; `Url.printed_escape`: the escaped form of a part is one.
* `Host.printed_render`, `Host.printed_renderForeign`: the text of a host.
* `Url.printedAuthority_of_read`: the parts of an authority.
* `Url.printedPath_segmentsFrom`, `Url.printedPath_fileUrl`: the segments that a path leads to.
-/

import Relabel.Proofs.Url.Resolution

namespace Relabel

namespace Url

/-! ### Printed texts -/

/-- A printable character of ASCII that does not begin a fragment. -/
def IsPrinted (c : Char) : Prop :=
  0x20 ≤ c.toNat ∧ c.toNat < 0x7F ∧ c ≠ '#'

instance : DecidablePred IsPrinted :=
  fun c => inferInstanceAs (Decidable (0x20 ≤ c.toNat ∧ c.toNat < 0x7F ∧ c ≠ '#'))

/-- A text of such characters. -/
def Printed (text : Text) : Prop :=
  ∀ c ∈ text, IsPrinted c

instance (text : Text) : Decidable (Printed text) :=
  inferInstanceAs (Decidable (∀ c ∈ text, IsPrinted c))

variable {text other : Text}

@[simp]
theorem printed_nil : Printed [] :=
  fun _ absent => absurd absent List.not_mem_nil

@[simp]
theorem printed_cons {c : Char} : Printed (c :: text) ↔ IsPrinted c ∧ Printed text :=
  List.forall_mem_cons

@[simp]
theorem printed_append : Printed (text ++ other) ↔ Printed text ∧ Printed other :=
  List.forall_mem_append

theorem isPrinted_of_isHexDigit {c : Char} (digit : Text.isHexDigit c = true) : IsPrinted c := by
  have range := Text.isHexDigit_iff.mp digit
  rw [isDigit_iff] at range
  refine ⟨by omega, by omega, ?_⟩
  rintro rfl
  exact absurd digit (by decide)

theorem printed_decimal (n : Nat) : Printed (Text.decimal n) :=
  fun _ member => isPrinted_of_isHexDigit (isHexDigit_of_isDigit (Text.isDigit_of_mem_decimal member))

/-- **A part in escaped form** is printed, if it cannot hold a number sign or none is written. -/
theorem printed_escape {part : Part} (unmarked : '#' ∉ text ∨ mustEscape part '#' = true) :
    Printed (escape part text) := by
  intro c member
  rcases mem_escape member with ⟨inText, free⟩ | rfl | digit
  · obtain ⟨notControl, allowed⟩ := Bool.or_eq_false_iff.mp free
    obtain ⟨notLow, notHigh⟩ := Bool.or_eq_false_iff.mp notControl
    refine ⟨Nat.le_of_not_lt (of_decide_eq_false notLow), Nat.lt_of_not_le (of_decide_eq_false notHigh), ?_⟩
    rintro rfl
    rcases unmarked with absent | escaped
    · exact absent inText
    · exact absurd (escaped.symm.trans free) nofun
  · decide
  · exact isPrinted_of_isHexDigit digit

end Url

/-! ### Hosts -/

namespace Host

open Url (Printed printed_append printed_escape isPrinted_of_isHexDigit)

theorem printed_renderIpv4 (address : Nat) : Printed (renderIpv4 address) := by
  intro c member
  rcases mem_renderIpv4 member with rfl | digit
  · decide
  · exact isPrinted_of_isHexDigit (isHexDigit_of_isDigit digit)

theorem printed_renderIpv6 (pieces : List Nat) : Printed (Host.ipv6 pieces).render := by
  have plain : Printed (renderIpv6 pieces) := by
    intro c member
    rcases mem_renderIpv6 member with rfl | digit
    · decide
    · exact isPrinted_of_isHexDigit digit
  exact printed_append.mpr ⟨printed_append.mpr ⟨by decide, plain⟩, by decide⟩

/-- The ASCII form of a name is printed: what a name cannot hold includes every character of ASCII that is not
printable. -/
theorem printed_asciiName [InternationalNames] {name ascii : Text} (named : asciiName? name = some ascii) :
    Printed ascii := by
  obtain ⟨isAscii, free⟩ := facts_of_asciiName named
  intro c member
  have small : c.toNat < 128 := isAscii c member
  have notForbidden := free c member
  simp only [isForbidden, Bool.or_eq_false_iff, decide_eq_false_iff_not, beq_eq_false_iff_ne] at notForbidden
  obtain ⟨⟨visible, notDelete⟩, unlisted⟩ := notForbidden
  refine ⟨by omega, by omega, ?_⟩
  rintro rfl
  exact absurd unlisted (by decide)

/-- **The host of an address of the web** is printed. -/
theorem printed_render [InternationalNames] {text : Text} {host : Host} (parsed : parse? text = some host) :
    Printed host.render := by
  rcases cases_of_parse parsed with ⟨pieces, rfl⟩ | ⟨address, rfl⟩ | ⟨name, ascii, named, -, rfl⟩
  · exact printed_renderIpv6 pieces
  · exact printed_renderIpv4 address
  · exact printed_asciiName named

/-- **The host of any other address** is printed. -/
theorem printed_renderForeign {text : Text} {host : Host} (parsed : parseForeign? text = some host) :
    Printed host.render := by
  rcases cases_of_parseForeign parsed with ⟨pieces, rfl⟩ | ⟨allowed, rfl⟩
  · exact printed_renderIpv6 pieces
  · exact printed_escape (Or.inl fun member => absurd (allowed '#' member) (by decide))

end Host

namespace Url

/-! ### Authorities -/

/-- The parts of an authority are printed. -/
structure PrintedAuthority (authority : Authority) : Prop where
  username : Printed authority.username
  password : Printed authority.password
  host : ∀ host ∈ authority.host, Printed host.render

theorem printed_readUser (text : Text) : Printed (readUser text).1 ∧ Printed (readUser text).2 := by
  have escaped : ∀ text, Printed (escape .userInfo text) := fun text => printed_escape (Or.inr (by decide))
  unfold readUser
  split
  · exact ⟨escaped _, escaped _⟩
  · exact ⟨escaped _, printed_nil⟩

theorem printed_readHost [InternationalNames] {scheme text behind : Text} {host : Host} {port : Option Nat}
    (read : readHost? scheme text = some (host, port, behind)) : Printed host.render := by
  have parsed := (exists_of_readHost read).1
  split at parsed
  · exact Host.printed_render parsed
  · exact Host.printed_renderForeign parsed

/-- **An authority that has been read** is printed. -/
theorem printedAuthority_of_read [InternationalNames] {scheme text rest : Text} {authority : Authority}
    (read : readAuthority? scheme text = some (authority, rest)) : PrintedAuthority authority := by
  obtain ⟨info, _, host, _, _, hosted, rfl, -⟩ := exists_of_readAuthority read
  obtain ⟨username, password⟩ := printed_readUser info
  refine ⟨username, password, fun other some => ?_⟩
  obtain rfl := Option.some.inj some
  exact printed_readHost hosted

/-! ### Paths -/

theorem Trail.printed_put {trail : Trail} (before : ∀ segment ∈ trail.segments, Printed segment) (piece : Text) :
    ∀ segment ∈ (trail.put piece).segments, Printed segment :=
  List.forall_mem_cons.mpr ⟨printed_escape (Or.inr (by decide)), before⟩

theorem isPrinted_of_isAlpha {c : Char} (letter : c.isAlpha = true) : IsPrinted c := by
  have range := isAlpha_iff.mp letter
  refine ⟨by omega, by omega, ?_⟩
  rintro rfl
  exact absurd letter (by decide)

theorem Trail.printed_putInFile {trail : Trail} (before : ∀ segment ∈ trail.segments, Printed segment) (piece : Text) :
    ∀ segment ∈ (trail.putInFile piece).segments, Printed segment := by
  have drive : ∀ letter : Char, letter.isAlpha = true → Printed [letter, ':'] := fun letter isLetter =>
    printed_cons.mpr ⟨isPrinted_of_isAlpha isLetter, by decide⟩
  unfold putInFile
  split
  · split
    next mark => exact List.forall_mem_singleton.mpr (drive _ (Bool.and_eq_true_iff.mp mark).1)
    next => exact printed_put before _
  · split
    next letter => exact printed_put (List.forall_mem_cons.mpr ⟨drive _ letter, before⟩) _
    next => exact printed_put before _
  · exact printed_put before _

/-- The parts of a path are printed. -/
def PrintedPath : Path → Prop
  | .flat text => Printed text
  | .divided segments => ∀ segment ∈ segments, Printed segment

theorem printedPath_segmentsFrom {origin : List Text} (before : ∀ segment ∈ origin, Printed segment) (special : Bool)
    (path : Text) : PrintedPath (.divided (segmentsFrom special origin path)) := by
  intro segment member
  have start : ∀ segment ∈ (⟨origin.reverse, false⟩ : Trail).segments, Printed segment :=
    fun segment member => before segment (List.mem_reverse.mp member)
  exact Trail.follow_forall printed_nil (fun piece _ _ before => Trail.printed_put before piece) start segment
    (List.mem_reverse.mp member)

theorem printedPath_absoluteSegments (special : Bool) (path : Text) :
    PrintedPath (.divided (absoluteSegments special path)) := by
  have none : ∀ segment ∈ [], Printed segment := fun _ absent => absurd absent List.not_mem_nil
  unfold absoluteSegments
  split
  · split
    · exact List.forall_mem_singleton.mpr printed_nil
    · exact none
  · exact printedPath_segmentsFrom none _ _

theorem printedPath_fileUrl (host : Host) (tail : Tailed) (path : Text) :
    PrintedPath (fileUrl host tail path).path := by
  have start : ∀ segment ∈ ({} : Trail).segments, Printed segment := fun _ absent => absurd absent List.not_mem_nil
  have all := Trail.follow_forall printed_nil
    (fun piece (_ : piece ∈ divide true path) _ before => Trail.printed_putInFile before piece) start
  unfold fileUrl withTail
  dsimp only
  split
  · exact List.forall_mem_singleton.mpr printed_nil
  · exact fun segment member => all segment (List.mem_reverse.mp (List.dropWhile_subset _ member))

/-- What stands in front of the first separator does not hold it, and neither does a text without one. -/
theorem notMem_cutFirst (separator : Char) (text : Text) :
    separator ∉ ((Text.cutFirst separator text).elim text Prod.fst) := by
  have inFront : separator ∉ text.takeWhile (· != separator) := fun member => by
    simpa using List.mem_takeWhile_imp member
  unfold Text.cutFirst
  rw [List.span_eq_takeWhile_dropWhile]
  cases left : text.dropWhile (· != separator) with
  | nil =>
    rw [List.takeWhile_eq_self_iff.mpr (List.dropWhile_eq_nil_iff.mp left)] at inFront
    exact inFront
  | cons c rest => exact inFront

/-- The body of a text has no number sign. -/
theorem numberSign_notMem_body (text : Text) : '#' ∉ (cutTail text).body := by
  have inFront := notMem_cutFirst '#' text
  have shorter : ∀ front : Text, '#' ∉ front → ∀ before behind, Text.cutFirst '?' front = some (before, behind) →
      '#' ∉ before := by
    intro front absent before behind cut member
    rw [cutFirst_eq_some cut] at absent
    exact absent (List.mem_append_left _ member)
  unfold cutTail
  cases marked : Text.cutFirst '#' text with
  | none =>
    rw [marked] at inFront
    cases asked : Text.cutFirst '?' text with
    | none => simpa [asked] using inFront
    | some parts => simpa [asked] using shorter text inFront parts.1 parts.2 asked
  | some parts =>
    rw [marked] at inFront
    obtain ⟨front, fragment⟩ := parts
    cases asked : Text.cutFirst '?' front with
    | none => simpa [asked] using inFront
    | some parts => simpa [asked] using shorter front inFront parts.1 parts.2 asked

end Url

end Relabel
