/-
**The address that a server learns of a reader's document.**

It is the address of the document without its user and without its fragment. Both are taken out part by part, and
the user only of an address that can have one; so it takes the reading of addresses to tell that nothing is left of
either. An address is read with a user only if it has a host that is not empty, and no part in front of its fragment
is read with a number sign in it.

* `Url.Composed`: what is known of every part of an address that has been read; `Url.Parsed.composed`.
* `Url.Composed.asReferer_eq`: what is left of such an address.
* `Url.Parsed.referred`: the address that a server learns has no user and no fragment, and is the address of the
  document in everything else; its text can be sent.
-/

import Relabel.Command.Tables
import Relabel.Proofs.Text.ByteOrder
import Relabel.Proofs.Url.Printed
import Relabel.Script.Session

namespace Relabel

/-! ### Hosts that can have a user -/

theorem Host.parse?_ne_empty [InternationalNames] {text : Text} : Host.parse? text ≠ some (.name []) := by
  intro parsed
  rcases cases_of_parse parsed with ⟨_, same⟩ | ⟨_, same⟩ | ⟨_, ascii, _, nonempty, same⟩
  · exact absurd same nofun
  · exact absurd same nofun
  · exact nonempty (Host.name.inj same).symm

theorem Url.escape_eq_nil {part : Part} {text : Text} (empty : escape part text = []) : text = [] := by
  cases text with
  | nil => rfl
  | cons c text =>
    obtain ⟨first, -⟩ := List.append_eq_nil_iff.mp empty
    unfold escapeChar at first
    split at first
    · obtain ⟨byte, bytes, form⟩ := List.exists_cons_of_ne_nil (Utf8.encodeChar_ne_nil c)
      simp [form, escapeByte] at first
    · exact absurd first (List.cons_ne_nil _ _)

theorem Host.parseForeign?_empty {text : Text} (parsed : Host.parseForeign? text = some (.name [])) : text = [] := by
  rcases cases_of_parseForeign parsed with ⟨_, same⟩ | ⟨_, same⟩
  · exact absurd same nofun
  · exact Url.escape_eq_nil (Host.name.inj same).symm

namespace Url

theorem eq_nil_of_cutPort {text : Text} (nameless : (cutPort false text).1 = [])
    (portless : (cutPort false text).2 = none) : text = [] := by
  cases text with
  | nil => rfl
  | cons c rest =>
    unfold cutPort at nameless portless
    split at nameless
    next colon =>
      rw [if_pos colon] at portless
      exact absurd portless nofun
    next => exact absurd nameless (List.cons_ne_nil _ _)

/-- The empty host is read from nothing. -/
theorem eq_nil_of_readHost [InternationalNames] {scheme text behind : Text} {port : Option Nat}
    (read : readHost? scheme text = some (.name [], port, behind)) : text = [] := by
  obtain ⟨parsed, portless⟩ := exists_of_readHost read
  split at parsed
  · exact absurd parsed Host.parse?_ne_empty
  · have nameless := Host.parseForeign?_empty parsed
    exact eq_nil_of_cutPort nameless (portless nameless)

/-- **A user is read only with a host** that is not empty. -/
theorem user_of_read [InternationalNames] {scheme text rest : Text} {authority : Authority}
    (read : readAuthority? scheme text = some (authority, rest)) (hostless : ∀ host ∈ authority.host, host = .name []) :
    authority.username = [] ∧ authority.password = [] := by
  obtain ⟨_, _, host, _, _, hosted, rfl, userless⟩ := exists_of_readAuthority read
  obtain rfl := hostless host rfl
  exact userless (eq_nil_of_readHost hosted)

/-- An address that cannot have a user has no host or an empty one, unless it is that of a file. -/
theorem eq_empty_of_takesUser {url : Url} (refused : url.takesUser = false) (notFile : url.scheme ≠ "file".toList) :
    ∀ host ∈ url.authority.host, host = .name [] := by
  intro host some
  unfold takesUser at refused
  rw [Option.mem_def.mp some] at refused
  simp only [Option.any_some, Bool.and_eq_false_iff, decide_eq_false_iff_not, not_not] at refused
  exact refused.resolve_right fun file => absurd file notFile

/-! ### Addresses -/

/-- What is known of an address that has been read: it is printed up to its fragment, and it has a user only if it
can have one. -/
structure Composed (url : Url) : Prop where
  scheme : Printed url.scheme
  authority : PrintedAuthority url.authority
  path : PrintedPath url.path
  query : ∀ query ∈ url.query, Printed query
  user : url.takesUser = false → url.authority.username = [] ∧ url.authority.password = []

theorem composed_withTail {scheme : Text} (printedScheme : Printed scheme) {authority : Authority}
    (printed : PrintedAuthority authority) {path : Path} (printedPath : PrintedPath path) (tail : Tailed)
    (user : (withTail scheme authority path tail).takesUser = false →
      authority.username = [] ∧ authority.password = []) :
    (withTail scheme authority path tail).Composed where
  scheme := printedScheme
  authority := printed
  path := printedPath
  query := by
    intro query some
    obtain ⟨text, _, rfl⟩ := Option.map_eq_some_iff.mp some
    refine printed_escape (Or.inr ?_)
    split <;> decide
  user := user

theorem printedAuthority_hostless : PrintedAuthority {} :=
  ⟨printed_nil, printed_nil, fun _ absent => absurd absent (Option.not_mem_none _)⟩

theorem printed_noHost : Printed (Host.name []).render :=
  printed_nil

theorem composed_fileUrl {host : Host} (printed : Printed host.render) (tail : Tailed) (path : Text) :
    (fileUrl host tail path).Composed := by
  have printedHost : ∀ leavesHost : Bool, Printed (if leavesHost then Host.name [] else host).render := by
    intro leavesHost
    cases leavesHost
    · exact printed
    · exact printed_noHost
  have segments := printedPath_fileUrl host tail path
  unfold fileUrl at segments ⊢
  refine composed_withTail (by decide) ⟨printed_nil, printed_nil, fun other some => ?_⟩ segments _ fun _ => ⟨rfl, rfl⟩
  obtain rfl := Option.some.inj some
  exact printedHost _

theorem isPrinted_toLower {c : Char} (allowed : isSchemeChar c = true) : IsPrinted c.toLower := by
  have listed : ∀ n < 128, isSchemeChar (Char.ofNat n) = true → IsPrinted (Char.ofNat n).toLower := by decide
  have small : c.toNat < 128 := by
    simp only [isSchemeChar, Char.isAlphanum, Bool.or_eq_true, beq_iff_eq, isAlpha_iff, isDigit_iff] at allowed
    rcases allowed with (((letter | digit) | rfl) | rfl) | rfl
    · omega
    · omega
    all_goals decide
  simpa using listed c.toNat small (by simpa using allowed)

/-- A scheme is written in small letters. -/
theorem IsScheme.printed {scheme : Text} (isScheme : IsScheme scheme) : Printed scheme := by
  obtain ⟨text, rest, cut⟩ := isScheme
  unfold cutScheme? at cut
  rw [List.span_eq_takeWhile_dropWhile] at cut
  split at cut
  next c front _ parts =>
    split at cut
    · obtain ⟨rfl, -⟩ := Prod.mk.inj (Option.some.inj cut)
      intro d member
      obtain ⟨e, inFront, rfl⟩ := List.mem_map.mp member
      rw [← (Prod.mk.inj parts).1] at inFront
      exact isPrinted_toLower (List.mem_takeWhile_imp inFront)
    · exact absurd cut nofun
  · exact absurd cut nofun

/-- **Addresses are made composed.** The induction is on how they are made. -/
theorem Made.composed [InternationalNames] {url : Url} (made : url.Made) : url.Composed := by
  induction made with
  | server isScheme notFile read path tail =>
    exact composed_withTail isScheme.printed (printedAuthority_of_read read) (printedPath_absoluteSegments _ _) tail
      fun refused => user_of_read read (eq_empty_of_takesUser refused notFile)
  | rooted isScheme foreign path tail =>
    have segments := printedPath_segmentsFrom (fun _ absent => absurd absent List.not_mem_nil) false path
    exact composed_withTail isScheme.printed printedAuthority_hostless segments tail fun _ => ⟨rfl, rfl⟩
  | flat isScheme foreign text tail =>
    have flat : PrintedPath (.flat (escape .flatPath (cutTail text).body)) :=
      printed_escape (Or.inl (numberSign_notMem_body text))
    exact composed_withTail isScheme.printed printedAuthority_hostless flat tail fun _ => ⟨rfl, rfl⟩
  | file known tail path =>
    rcases known with rfl | ⟨name, parsed⟩
    · exact composed_fileUrl printed_noHost tail path
    · exact composed_fileUrl (Host.printed_render parsed) tail path
  | marked _ _ ih => exact { ih with }
  | asked _ tail ih => exact composed_withTail ih.scheme ih.authority ih.path tail ih.user
  | moved _ divided fromOrigin special path tail ih =>
    have origin := ih.path
    rw [divided] at origin
    have segments := printedPath_segmentsFrom (fun segment member => origin segment (fromOrigin member)) special path
    exact composed_withTail ih.scheme ih.authority segments tail ih.user

/-- **Addresses that have been read** are composed. -/
theorem Parsed.composed [InternationalNames] {url : Url} (parsed : Parsed url) : url.Composed :=
  parsed.made.composed

/-! ### What is left of an address -/

/-- A path loses spaces at its end at most. -/
theorem exists_trimPath (query : Option Text) (path : Path) :
    path = trimPath query path
      ∨ query = none ∧ ∃ text spaces,
        trimPath query path = .flat text ∧ path = .flat (text ++ List.replicate spaces ' ') := by
  cases path with
  | divided segments => exact Or.inl rfl
  | flat text =>
    cases query with
    | some query => exact Or.inl rfl
    | none =>
      have whole := List.rdropWhile_append_rtakeWhile (p := (· == ' ')) (l := text)
      have spaces : text.rtakeWhile (· == ' ') = List.replicate (text.rtakeWhile (· == ' ')).length ' ' :=
        List.eq_replicate_of_mem fun c member => by simpa using List.mem_rtakeWhile_imp member
      refine Or.inr ⟨rfl, text.rdropWhile (· == ' '), (text.rtakeWhile (· == ' ')).length, rfl, ?_⟩
      rw [← spaces, whole]

theorem trimPath_trimPath (query : Option Text) (path : Path) :
    trimPath query (trimPath query path) = trimPath query path := by
  cases path with
  | divided segments => rfl
  | flat text =>
    cases query with
    | some query => rfl
    | none => exact congrArg Path.flat (List.rdropWhile_idempotent _ text)

theorem printedPath_trimPath {path : Path} (printed : PrintedPath path) (query : Option Text) :
    PrintedPath (trimPath query path) := by
  rcases exists_trimPath query path with same | ⟨_, text, spaces, trimmed, whole⟩
  · exact same ▸ printed
  · rw [trimmed]
    rw [whole] at printed
    exact (printed_append.mp printed).1

/-- **What is left of an address** that has been read: everything but its user and its fragment. -/
theorem Composed.asReferer_eq {url : Url} (composed : url.Composed) :
    url.asReferer =
      { scheme := url.scheme
        authority := { host := url.authority.host, port := url.authority.port }
        path := trimPath url.query url.path
        query := url.query } := by
  unfold asReferer withoutUser
  split
  next => rfl
  next refused =>
    obtain ⟨username, password⟩ := composed.user (Bool.eq_false_iff.mpr refused)
    obtain ⟨scheme, ⟨name, word, host, port⟩, path, query, fragment⟩ := url
    obtain rfl : name = [] := username
    obtain rfl : word = [] := password
    rfl

/-- What is left of an address is composed as well. -/
theorem Composed.asReferer {url : Url} (composed : url.Composed) : url.asReferer.Composed := by
  rw [composed.asReferer_eq]
  exact
    { scheme := composed.scheme
      authority := ⟨printed_nil, printed_nil, composed.authority.host⟩
      path := printedPath_trimPath composed.path url.query
      query := composed.query
      user := fun _ => ⟨rfl, rfl⟩ }

theorem printed_renderAuthority {authority : Authority} (printed : PrintedAuthority authority) (path : Path) :
    Printed (renderAuthority authority path) := by
  have user : Printed (renderUser authority) := by
    unfold renderUser
    split
    · exact printed_nil
    · refine printed_append.mpr ⟨printed_append.mpr ⟨printed.username, ?_⟩, by decide⟩
      split
      · exact printed_nil
      · exact printed_cons.mpr ⟨by decide, printed.password⟩
  have port : Printed (authority.port.elim [] fun port => ':' :: Text.decimal port) := by
    cases authority.port with
    | none => exact printed_nil
    | some port => exact printed_cons.mpr ⟨by decide, printed_decimal port⟩
  unfold renderAuthority
  split
  next host path some =>
    have name := printed.host _ some
    exact printed_append.mpr ⟨printed_append.mpr ⟨printed_append.mpr ⟨by decide, user⟩, name⟩, port⟩
  · decide
  · exact printed_nil

theorem printed_renderPath {path : Path} (printed : PrintedPath path) : Printed (renderPath path) := by
  cases path with
  | flat text => exact printed
  | divided segments =>
    intro c member
    obtain ⟨segment, inPath, inSegment⟩ := List.mem_flatMap.mp member
    exact printed_cons.mpr ⟨by decide, printed segment inPath⟩ c inSegment

/-- **The text of an address without a fragment** is printed. -/
theorem Composed.printed_render {url : Url} (composed : url.Composed) (whole : url.fragment = none) :
    Printed url.render := by
  have query : Printed (url.query.elim [] ('?' :: ·)) := by
    cases some : url.query with
    | none => exact printed_nil
    | some query => exact printed_cons.mpr ⟨by decide, composed.query query some⟩
  have fragment : Printed (url.fragment.elim [] ('#' :: ·)) := by
    rw [whole]
    exact printed_nil
  have scheme : Printed (url.scheme ++ [':']) := printed_append.mpr ⟨composed.scheme, by decide⟩
  have authority := printed_renderAuthority composed.authority url.path
  have path := printed_renderPath composed.path
  exact printed_append.mpr ⟨printed_append.mpr ⟨printed_append.mpr ⟨printed_append.mpr
    ⟨scheme, authority⟩, path⟩, query⟩, fragment⟩

/-- Printed text is a line of a request. -/
theorem line?_of_printed {text : Text} (printed : Printed text) : Session.line? text = some text := by
  refine if_pos (List.all_eq_true.mpr fun c member => ?_)
  obtain ⟨low, high, _⟩ := printed c member
  simp [Session.isLineChar, low, Nat.ne_of_lt high]

/-- What a server learns of the address of a reader's document. -/
structure SafelyReferred [InternationalNames] (url : Url) : Prop where
  /-- It learns neither who the user is -/
  username : url.asReferer.authority.username = []
  password : url.asReferer.authority.password = []
  /-- nor a place in the document. -/
  fragment : url.asReferer.fragment = none
  /-- It learns everything else, -/
  scheme : url.asReferer.scheme = url.scheme
  host : url.asReferer.authority.host = url.authority.host
  port : url.asReferer.authority.port = url.authority.port
  query : url.asReferer.query = url.query
  /-- but not the spaces at the end of flat text that ends the address. -/
  path : url.path = url.asReferer.path ∨ url.query = none ∧ ∃ text spaces,
    url.asReferer.path = .flat text ∧ url.path = .flat (text ++ List.replicate spaces ' ')
  /-- An address that cannot have a user has none that would be left in it. -/
  nothing : url.takesUser = false → url.authority.username = [] ∧ url.authority.password = []
  /-- What it learns has nothing more to leave out. -/
  again : url.asReferer.asReferer = url.asReferer
  /-- Addresses that differ in their user and their fragment are the same to it. -/
  alike : ∀ other : Url, other.Parsed → other.scheme = url.scheme → other.authority.host = url.authority.host →
    other.authority.port = url.authority.port → other.path = url.path → other.query = url.query →
    other.asReferer = url.asReferer
  /-- What is sent is the text of this address, which begins no fragment. -/
  sent : ∀ session : Session, (session.referredBy (some url)).referer = some url.asReferer.render
  unmarked : '#' ∉ url.asReferer.render

/-- **A server learns neither the user nor the fragment** of the address of a reader's document. -/
theorem Parsed.referred [InternationalNames] {url : Url} (parsed : url.Parsed) : url.SafelyReferred := by
  have composed := parsed.composed
  have left := composed.asReferer_eq
  have printed : Printed url.asReferer.render := composed.asReferer.printed_render (congrArg (·.fragment) left)
  exact
    { username := congrArg (·.authority.username) left
      password := congrArg (·.authority.password) left
      fragment := congrArg (·.fragment) left
      scheme := congrArg (·.scheme) left
      host := congrArg (·.authority.host) left
      port := congrArg (·.authority.port) left
      query := congrArg (·.query) left
      path := by
        rw [left]
        exact exists_trimPath url.query url.path
      nothing := composed.user
      again := by
        rw [composed.asReferer.asReferer_eq, left, trimPath_trimPath]
      alike := fun other parsedOther scheme host port path query => by
        rw [parsedOther.composed.asReferer_eq, left, scheme, host, port, path, query]
      sent := fun _ => line?_of_printed printed
      unmarked := fun member => (printed '#' member).2.2 rfl }

/-- The address of a document that is open to one user. -/
def userAddress : Url where
  scheme := "https"
  authority := { username := "me", password := "p%40ss", host := some (.name "example.com"), port := some 8080 }
  path := .divided ["site", []]
  query := some "a=b"
  fragment := some "top"

/-- It is so for an address with a user and for one without a host, whose flat path ends in spaces. -/
theorem Parsed.referred_user :
    (userAddress.Parsed ∧ userAddress.SafelyReferred)
      ∧ Parsed ⟨"data", {}, .flat "a b  ", none, some "x"⟩
      ∧ SafelyReferred ⟨"data", {}, .flat "a b  ", none, some "x"⟩ := by
  have user : parse none "https://me:p@ss@Example.com:8080/./site/?a=b#top" = .ok userAddress := by decide +kernel
  have flat : parse none "data:a b  #x" = .ok ⟨"data", {}, .flat "a b  ", none, some "x"⟩ := by decide +kernel
  exact ⟨⟨.alone user, Parsed.referred (.alone user)⟩, .alone flat, Parsed.referred (.alone flat)⟩

end Url

end Relabel
