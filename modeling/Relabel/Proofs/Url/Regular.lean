/-
**Addresses that have been read.**

Reading an address escapes every character that would end a part of it too early. So in the text of an address of
the web the first question mark begins the query, and the last slash in front of it begins the last segment.

* `notMem_escape`: a part in escaped form has no character that it cannot hold.
* `Url.Regular`: what is known of an address of the web that has been read.
* `Url.Trail.follow_forall`: what holds of every segment that a path leads to.
* `Url.Parsed`: addresses that have been read, alone or from one another.
* `Url.Parsed.made`, `Url.Parsed.regular`: they are made as described, and those of the web are regular.
-/

import Relabel.Proofs.Text.Letters
import Relabel.Proofs.Url.Hosts
import Relabel.Proofs.Url.Made

namespace Relabel

namespace Url

/-! ### Escapes -/

/-- Where the characters of an escaped text come from. -/
theorem mem_escape {part : Part} {text : Text} {c : Char} (member : c ∈ escape part text) :
    c ∈ text ∧ mustEscape part c = false ∨ c = '%' ∨ Text.isHexDigit c = true := by
  have digits : ∀ n < 16, Text.isHexDigit (capitalDigit n) = true := by decide
  obtain ⟨d, inText, inForm⟩ := List.mem_flatMap.mp member
  unfold escapeChar at inForm
  split at inForm
  next =>
    right
    obtain ⟨byte, _, inByte⟩ := List.mem_flatMap.mp inForm
    have small : byte.toNat < 256 := byte.toNat_lt
    simp only [escapeByte, List.mem_cons, List.not_mem_nil, or_false] at inByte
    rcases inByte with rfl | rfl | rfl
    · exact Or.inl rfl
    · exact Or.inr (digits _ (by omega))
    · exact Or.inr (digits _ (by omega))
  next free =>
    obtain rfl := List.mem_singleton.mp inForm
    exact Or.inl ⟨inText, Bool.eq_false_iff.mpr free⟩

/-- **A part in escaped form** has no mark that it cannot hold or that is not written. -/
theorem notMem_escape {part : Part} {text : Text} {c : Char} (absent : c ∉ text ∨ mustEscape part c = true)
    (notPercent : c ≠ '%') (notDigit : Text.isHexDigit c = false) : c ∉ escape part text := by
  intro member
  rcases mem_escape member with ⟨inText, free⟩ | percent | digit
  · rcases absent with notThere | escaped
    · exact notThere inText
    · exact absurd (escaped.symm.trans free) nofun
  · exact notPercent percent
  · exact absurd (digit.symm.trans notDigit) nofun

theorem questionMark_notMem_escape {part : Part} (escaped : mustEscape part '?' = true) (text : Text) :
    '?' ∉ escape part text :=
  notMem_escape (Or.inr escaped) (by decide) (by decide)

/-! ### Segments -/

/-- A text that can stand between slashes in a path. -/
def IsSegment (segment : Text) : Prop :=
  '/' ∉ segment ∧ '?' ∉ segment

theorem isSegment_nil : IsSegment [] :=
  ⟨List.not_mem_nil, List.not_mem_nil⟩

theorem isSegment_escape {piece : Text} (whole : '/' ∉ piece) : IsSegment (escape .path piece) :=
  ⟨notMem_escape (Or.inl whole) (by decide) (by decide), questionMark_notMem_escape (by decide) piece⟩

theorem whole_of_mem_divide {special : Bool} {path piece : Text} (member : piece ∈ divide special path) : '/' ∉ piece := by
  intro slash
  have separates := (Text.mem_splitWhen member).1 '/' slash
  simp [isSlash] at separates

theorem dropSegment_subset (segments : List Text) : dropSegment segments ⊆ segments := by
  cases segments with
  | nil => exact List.nil_subset _
  | cons segment segments =>
    rw [dropSegment]
    split
    · exact List.Subset.refl _
    · exact List.subset_cons_self _ _

/-- **What holds of every segment that a path leads to**: what holds of the empty segment and of all that its pieces
add. The induction is on the pieces of the path. -/
theorem Trail.follow_forall {holds : Text → Prop} {put : Trail → Text → Trail} {pieces : List Text} (empty : holds [])
    (puts : ∀ piece ∈ pieces, ∀ trail : Trail, (∀ segment ∈ trail.segments, holds segment) →
      ∀ segment ∈ (put trail piece).segments, holds segment)
    {trail : Trail} (before : ∀ segment ∈ trail.segments, holds segment) :
    ∀ segment ∈ (trail.follow put pieces).segments, holds segment := by
  induction pieces generalizing trail with
  | nil => exact before
  | cons piece pieces ih =>
    obtain ⟨putsPiece, putsBehind⟩ := List.forall_mem_cons.mp puts
    unfold follow
    split
    next =>
      have reached : ∀ segment ∈ (if isBack piece then trail.back else trail).segments, holds segment := by
        split
        · exact fun segment member => before segment (dropSegment_subset _ member)
        · exact before
      dsimp only
      split
      · exact List.forall_mem_cons.mpr ⟨empty, reached⟩
      · exact ih putsBehind reached
    next => exact ih putsBehind (putsPiece trail before)

/-- A path with a piece leads to a segment. -/
theorem Trail.follow_ne_nil (trail : Trail) {pieces : List Text} (some : pieces ≠ []) :
    (trail.follow Trail.put pieces).segments ≠ [] := by
  induction pieces generalizing trail with
  | nil => exact absurd rfl some
  | cons piece pieces ih =>
    unfold follow
    split
    next =>
      dsimp only
      split
      next => exact List.cons_ne_nil _ _
      next more => exact ih _ (mt List.isEmpty_iff.mpr more)
    next =>
      cases pieces with
      | nil => exact List.cons_ne_nil _ _
      | cons next others => exact ih _ (List.cons_ne_nil _ _)

/-- A path with at least one segment, in which no segment could be taken for more. -/
def RegularPath (path : Path) : Prop :=
  ∃ segments, path = .divided segments ∧ segments ≠ [] ∧ ∀ segment ∈ segments, IsSegment segment

theorem regularPath_segmentsFrom {origin : List Text} (before : ∀ segment ∈ origin, IsSegment segment) (special : Bool)
    (path : Text) : RegularPath (.divided (segmentsFrom special origin path)) := by
  have start : ∀ segment ∈ (⟨origin.reverse, false⟩ : Trail).segments, IsSegment segment :=
    fun segment member => before segment (List.mem_reverse.mp member)
  have puts : ∀ piece ∈ divide special path, ∀ trail : Trail, (∀ segment ∈ trail.segments, IsSegment segment) →
      ∀ segment ∈ (trail.put piece).segments, IsSegment segment := fun piece member trail before =>
    List.forall_mem_cons.mpr ⟨isSegment_escape (whole_of_mem_divide member), before⟩
  refine ⟨_, rfl, ?_, fun segment member => ?_⟩
  · exact List.reverse_ne_nil_iff.mpr (Trail.follow_ne_nil _ (Text.splitWhen_ne_nil _ _))
  · exact Trail.follow_forall isSegment_nil puts start segment (List.mem_reverse.mp member)

theorem regularPath_absoluteSegments (path : Text) : RegularPath (.divided (absoluteSegments true path)) := by
  unfold absoluteSegments
  cases path with
  | nil => exact ⟨[[]], rfl, List.cons_ne_nil _ _, by simpa using isSegment_nil⟩
  | cons c rest => exact regularPath_segmentsFrom (fun _ absent => absurd absent List.not_mem_nil) _ _

end Url

/-! ### Authorities -/

/-- **The host of an address of the web** holds no question mark. -/
theorem Host.questionMark_notMem_render [InternationalNames] {text : Text} {host : Host}
    (parsed : Host.parse? text = some host) :
    '?' ∉ host.render := by
  intro member
  rcases cases_of_parse parsed with ⟨pieces, rfl⟩ | ⟨address, rfl⟩ | ⟨name, ascii, named, -, rfl⟩
  · have inPieces : '?' ∈ renderIpv6 pieces := by simpa [render] using member
    rcases mem_renderIpv6 inPieces with colon | digit
    · exact absurd colon (by decide)
    · exact absurd digit (by decide)
  · rcases mem_renderIpv4 member with point | digit
    · exact absurd point (by decide)
    · exact absurd digit (by decide)
  · obtain ⟨_, free⟩ := facts_of_asciiName named
    exact absurd (free '?' member) (by decide)

namespace Url

/-- The authority of an address of the web. -/
structure RegularAuthority (authority : Authority) : Prop where
  host : ∃ host, authority.host = some host ∧ '?' ∉ host.render
  username : '?' ∉ authority.username
  password : '?' ∉ authority.password

theorem questionMark_notMem_readUser (text : Text) : '?' ∉ (readUser text).1 ∧ '?' ∉ (readUser text).2 := by
  have escaped : ∀ text, '?' ∉ escape .userInfo text := questionMark_notMem_escape (by decide)
  unfold readUser
  split
  · exact ⟨escaped _, escaped _⟩
  · exact ⟨escaped _, List.not_mem_nil⟩

/-- **The authority of an address of the web** holds no question mark. -/
theorem regularAuthority_of_read [InternationalNames] {scheme text rest : Text} {authority : Authority}
    (special : isSpecialScheme scheme = true) (read : readAuthority? scheme text = some (authority, rest)) : RegularAuthority authority := by
  obtain ⟨info, _, host, _, _, hosted, rfl, -⟩ := exists_of_readAuthority read
  have parsed := (exists_of_readHost hosted).1
  rw [if_pos special] at parsed
  exact
    { host := ⟨host, rfl, Host.questionMark_notMem_render parsed⟩
      username := (questionMark_notMem_readUser info).1
      password := (questionMark_notMem_readUser info).2 }

/-! ### Addresses -/

/-- An address of the web in whose text nothing can be taken for another part. -/
structure Regular (url : Url) : Prop where
  authority : RegularAuthority url.authority
  path : RegularPath url.path

theorem isSpecialScheme_of_isHttpScheme {scheme : Text} (http : isHttpScheme scheme = true) :
    isSpecialScheme scheme = true := by
  simp only [isHttpScheme, Bool.or_eq_true, decide_eq_true_eq] at http
  rcases http with rfl | rfl <;> decide

/-- **Addresses of the web** are made regular. The induction is on how they are made. -/
theorem Made.regular [InternationalNames] {url : Url} (made : url.Made) (http : url.isHttp = true) : url.Regular := by
  have notForeign : ∀ {scheme : Text}, isHttpScheme scheme = true → isSpecialScheme scheme ≠ false :=
    fun http foreign => absurd (foreign.symm.trans (isSpecialScheme_of_isHttpScheme http)) nofun
  have notFile : isHttpScheme "file" = false := by decide
  induction made with
  | @server scheme _ _ _ _ _ read path =>
    have special : isSpecialScheme scheme = true := isSpecialScheme_of_isHttpScheme http
    have divided : RegularPath (.divided (absoluteSegments (isSpecialScheme scheme) path)) :=
      special.symm ▸ regularPath_absoluteSegments path
    exact ⟨regularAuthority_of_read special read, divided⟩
  | rooted _ foreign => exact absurd foreign (notForeign http)
  | flat _ foreign => exact absurd foreign (notForeign http)
  | file => exact absurd (notFile.symm.trans http) nofun
  | marked _ _ ih => exact ⟨(ih http).authority, (ih http).path⟩
  | asked _ _ ih => exact ⟨(ih http).authority, (ih http).path⟩
  | moved _ divided fromOrigin special path _ ih =>
    obtain ⟨segments, same, _, all⟩ := (ih http).path
    obtain rfl := Path.divided.inj (divided.symm.trans same)
    exact ⟨(ih http).authority, regularPath_segmentsFrom (fun segment member => all segment (fromOrigin member)) _ _⟩

/-- Addresses that have been read, alone or from one another. -/
inductive Parsed [InternationalNames] : Url → Prop
  | alone {text : Text} {url : Url} (parsed : parse none text = .ok url) : Parsed url
  | reference {base url : Url} {text : Text} (before : Parsed base) (parsed : parse (some base) text = .ok url) :
      Parsed url

/-- **Addresses that have been read** are made as described. The induction is on how they have been read. -/
theorem Parsed.made [InternationalNames] {url : Url} (parsed : Parsed url) : url.Made := by
  induction parsed with
  | alone parsed => exact made_of_parse (fun url absent => absurd absent (Option.not_mem_none url)) parsed
  | reference _ parsed ih =>
    refine made_of_parse (fun base same => ?_) parsed
    obtain rfl := Option.some.inj same
    exact ih

/-- **Addresses of the web that have been read** are regular. -/
theorem Parsed.regular [InternationalNames] {url : Url} (parsed : Parsed url) (http : url.isHttp = true) :
    url.Regular :=
  parsed.made.regular http

/-! ### The text of an address -/

section Text

variable {url : Url} (regular : url.Regular)

include regular

/-- The text of an address is that without its fragment, and the fragment. -/
theorem Regular.render_eq :
    url.render = url.withoutFragment.render ++ (url.fragment.elim [] ('#' :: ·)) := by
  obtain ⟨segments, divided, _⟩ := regular.path
  unfold withoutFragment render
  simp [divided, trimPath]

theorem Regular.questionMark_notMem_authority : '?' ∉ renderAuthority url.authority url.path := by
  obtain ⟨⟨host, some, plainHost⟩, plainName, plainPassword⟩ := regular.authority
  have port : '?' ∉ (url.authority.port.elim [] fun port => ':' :: Text.decimal port : Text) := by
    cases url.authority.port with
    | none => exact List.not_mem_nil
    | some port =>
      rintro (_ | ⟨_, digit⟩)
      exact absurd (Text.isDigit_of_mem_decimal digit) (by decide)
  have user : '?' ∉ renderUser url.authority := by
    unfold renderUser
    split
    · exact List.not_mem_nil
    · split <;> simp [plainName, plainPassword]
  unfold renderAuthority
  rw [some]
  simp only [List.mem_append, not_or]
  exact ⟨⟨⟨by decide, user⟩, plainHost⟩, port⟩

/-- **The text of an address tells its last segment**: it is what follows the last slash in front of the query. -/
theorem Regular.lastSegment?_eq (http : url.isHttp = true) :
    url.lastSegment? = (Text.splitOn '/' (url.withoutFragment.render.takeWhile (· != '?'))).getLast? := by
  obtain ⟨segments, divided, some, all⟩ := regular.path
  obtain rfl | ⟨front, last, rfl⟩ := List.eq_nil_or_concat segments
  · exact absurd rfl some
  rw [List.concat_eq_append] at divided all
  obtain ⟨inFront, own⟩ := List.forall_mem_append.mp all
  obtain ⟨wholeLast, plainLast⟩ := own last List.mem_cons_self
  have plainScheme : '?' ∉ url.scheme := by
    simp only [isHttp, isHttpScheme, Bool.or_eq_true, decide_eq_true_eq] at http
    rcases http with same | same <;> rw [same] <;> decide
  let start : Text := url.scheme ++ [':'] ++ renderAuthority url.authority url.path ++ front.flatMap ('/' :: ·)
  have plainStart : '?' ∉ start ++ '/' :: last := by
    simp only [start, List.mem_append, List.mem_cons, List.mem_flatMap, not_or, not_exists, not_and]
    exact ⟨⟨⟨⟨plainScheme, by decide, List.not_mem_nil⟩, regular.questionMark_notMem_authority⟩,
      fun segment member => ⟨by decide, (inFront segment member).2⟩⟩, by decide, plainLast⟩
  have written : url.withoutFragment.render = start ++ '/' :: last ++ url.query.elim [] ('?' :: ·) := by
    unfold withoutFragment render
    simp [start, divided, trimPath, renderPath]
  have inPath : ∀ c ∈ start ++ '/' :: last, (c != '?') = true := by
    intro c member
    exact bne_iff_ne.mpr fun same => plainStart (same ▸ member)
  have cut : url.withoutFragment.render.takeWhile (· != '?') = start ++ '/' :: last := by
    rw [written, List.takeWhile_append_of_pos inPath]
    cases url.query with
    | none => exact List.append_nil _
    | some query => exact List.append_nil _
  unfold lastSegment?
  rw [cut, Text.splitOn_append, Text.splitOn_of_notMem wholeLast, divided, List.getLast?_concat]
  exact List.getLast?_concat

end Text

end Url

end Relabel
