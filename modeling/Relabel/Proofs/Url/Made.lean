/-
**What reading makes an address of.**

Reading follows the forms of addresses through many cases, but few things come out: an authority with a path, a path
alone, the address of a file, and what a reference changes of the address that it is read from. What is true of all
addresses that have been read is shown for these.

* `Url.IsScheme`: the schemes that a text can begin with.
* `Url.Made`: the addresses that reading makes, alone or from others that it has made.
* `Url.made_of_parse`: there are no others.
-/

import Relabel.Url.Parse

namespace Relabel.Url

/-- A scheme that a text can begin with. -/
def IsScheme (scheme : Text) : Prop :=
  ∃ text rest, cutScheme? text = some (scheme, rest)

theorem isScheme_file : IsScheme "file" :=
  ⟨"file:", [], by decide⟩

variable [InternationalNames]

/-- What reading makes an address of. The parts of a text behind its body are escaped whatever they are. -/
inductive Made : Url → Prop
  /-- An authority and a path behind two slashes. Those of files are not read so. -/
  | server {scheme text rest : Text} {authority : Authority} (isScheme : IsScheme scheme)
      (notFile : scheme ≠ "file".toList) (read : readAuthority? scheme text = some (authority, rest)) (path : Text)
      (tail : Tailed) : Made (withTail scheme authority (.divided (absoluteSegments (isSpecialScheme scheme) path)) tail)
  /-- A path of a scheme that is not used on the web. -/
  | rooted {scheme : Text} (isScheme : IsScheme scheme) (foreign : isSpecialScheme scheme = false) (path : Text)
      (tail : Tailed) : Made (withTail scheme {} (.divided (segmentsFrom false [] path)) tail)
  /-- Text of such a scheme in front of a query and a fragment. -/
  | flat {scheme : Text} (isScheme : IsScheme scheme) (foreign : isSpecialScheme scheme = false) (text : Text)
      (tail : Tailed) : Made (withTail scheme {} (.flat (escape .flatPath (cutTail text).body)) tail)
  /-- A file on a server, or here. -/
  | file {host : Host} (known : host = .name [] ∨ ∃ name, Host.parse? name = some host) (tail : Tailed) (path : Text) :
      Made (fileUrl host tail path)
  /-- A reference to a place in what an address leads to, -/
  | marked {base : Url} (before : Made base) (fragment : Option Text) : Made { base with fragment := fragment }
  /-- one with a query and no path, -/
  | asked {base : Url} (before : Made base) (tail : Tailed) :
      Made (withTail base.scheme base.authority base.path tail)
  /-- and one with a path, which begins at some of the segments of the address. -/
  | moved {base : Url} (before : Made base) {origin kept : List Text} (divided : base.path = .divided origin)
      (fromOrigin : kept ⊆ origin) (special : Bool) (path : Text) (tail : Tailed) :
      Made (withTail base.scheme base.authority (.divided (segmentsFrom special kept path)) tail)

theorem Made.isScheme {url : Url} (made : url.Made) : IsScheme url.scheme := by
  induction made with
  | server isScheme => exact isScheme
  | rooted isScheme => exact isScheme
  | flat isScheme => exact isScheme
  | file => exact isScheme_file
  | marked _ _ ih => exact ih
  | asked _ _ ih => exact ih
  | moved _ _ _ _ _ _ ih => exact ih

theorem made_ofAuthority {scheme text : Text} (isScheme : IsScheme scheme) (notFile : scheme ≠ "file".toList) :
    ∀ url ∈ ofAuthority? scheme text, url.Made := by
  intro url read
  unfold ofAuthority? at read
  simp only [Option.mem_def, Option.bind_eq_bind, Option.bind_eq_some_iff] at read
  obtain ⟨⟨authority, rest⟩, found, made⟩ := read
  obtain rfl := Option.some.inj made
  exact .server isScheme notFile found _ _

theorem made_ofForeign {scheme text : Text} (isScheme : IsScheme scheme) (foreign : isSpecialScheme scheme = false) :
    ∀ url ∈ ofForeign? scheme text, url.Made := by
  have notFile : scheme ≠ "file".toList := by
    rintro rfl
    exact absurd foreign (by decide)
  intro url read
  unfold ofForeign? at read
  split at read
  · exact made_ofAuthority isScheme notFile url read
  · dsimp only at read
    split at read
    · obtain rfl := Option.some.inj read
      exact .rooted isScheme foreign _ _
    · obtain rfl := Option.some.inj read
      exact .flat isScheme foreign _ _

theorem made_ofFileHost (text : Text) : ∀ url ∈ ofFileHost? text, url.Made := by
  intro url read
  unfold ofFileHost? at read
  dsimp only at read
  split at read
  · obtain rfl := Option.some.inj read
    exact .file (Or.inl rfl) _ _
  · split at read
    · obtain rfl := Option.some.inj read
      exact .file (Or.inl rfl) _ _
    · obtain ⟨host, parsed, made⟩ := Option.bind_eq_some_iff.mp read
      split at made
      · obtain rfl := Option.some.inj made
        exact .file (Or.inl rfl) _ _
      · obtain rfl := Option.some.inj made
        exact .file (Or.inr ⟨_, parsed⟩) _ _

/-- **A reference** makes an address of one that has been made. -/
theorem made_ofReference {base : Url} (before : base.Made) (reference : Text) :
    ∀ url ∈ ofReference? base reference, url.Made := by
  intro url read
  unfold ofReference? at read
  dsimp only at read
  split at read
  next =>
    split at read
    · obtain rfl := Option.some.inj read
      exact before.marked _
    · exact absurd read nofun
  next origin divided =>
    split at read
    · obtain rfl := Option.some.inj read
      split
      · exact before.marked _
      · exact before.asked _
    · split at read
      · obtain rfl := Option.some.inj read
        exact before.moved divided (List.dropLast_subset origin) _ _ _
      · split at read
        · split at read
          next => exact made_ofFileHost _ url read
          next notFile => exact made_ofAuthority before.isScheme notFile url read
        · obtain rfl := Option.some.inj read
          exact before.moved divided (List.nil_subset origin) _ _ _

theorem made_ofFile {base : Option Url} (before : ∀ url ∈ base, url.Made) (text : Text) :
    ∀ url ∈ ofFile? base text, url.Made := by
  intro url read
  unfold ofFile? at read
  split at read
  · exact made_ofFileHost _ url read
  next _ base' _ sameScheme =>
    exact made_ofReference (before base' (Option.filter_eq_some_iff.mp sameScheme).1) text url read
  · obtain rfl := Option.some.inj read
    exact .file (Or.inl rfl) _ _

theorem made_ofScheme {base : Option Url} (before : ∀ url ∈ base, url.Made) {scheme : Text} (isScheme : IsScheme scheme)
    (text : Text) : ∀ url ∈ ofScheme? base scheme text, url.Made := by
  unfold ofScheme?
  split
  · exact made_ofFile before text
  next notFile =>
    split
    · dsimp only
      split
      · split
        · exact made_ofReference (before _ rfl) text
        · exact made_ofAuthority isScheme notFile
      · exact made_ofAuthority isScheme notFile
    next foreign => exact made_ofForeign isScheme (Bool.eq_false_iff.mpr foreign)

/-- **Reading** makes addresses, alone or from one that has been made. -/
theorem made_of_parse {base : Option Url} (before : ∀ url ∈ base, url.Made) {text : Text} {url : Url}
    (parsed : parse base text = .ok url) : url.Made := by
  have found : ∀ {read : Option Url}, (∀ other ∈ read, other.Made) →
      read.elim (.error .malformed) .ok = (.ok url : Except UrlError Url) → url.Made := by
    intro read all made
    cases read with
    | none => exact absurd made nofun
    | some other => exact Except.ok.inj made ▸ all other rfl
  unfold parse at parsed
  dsimp only at parsed
  split at parsed
  next cut => exact found (made_ofScheme before ⟨_, _, cut⟩ _) parsed
  next => exact found (made_ofReference (before _ rfl) _) parsed
  next => exact absurd parsed nofun

end Relabel.Url
