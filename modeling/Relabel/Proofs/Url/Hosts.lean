/-
**Hosts and authorities that have been read.**

What the text in front of a path can be read as, told once for each function that reads it, with what it refuses.

* `Host.mem_renderIpv4`, `Host.mem_renderIpv6`: the characters of addresses by numbers.
* `Host.cases_of_parse`, `Host.cases_of_parseForeign`: the hosts of the web, and all others.
* `Url.exists_of_readHost`, `Url.exists_of_readAuthority`: a host with its port, and a user in front of it.
-/

import Relabel.Proofs.Naming.Numbering
import Relabel.Proofs.Text.Words
import Relabel.Url.Authority

namespace Relabel

/-! ### Hosts -/

namespace Host

variable {text : Text} {host : Host} {c : Char}

/-- Addresses of four bytes are written with digits and points. -/
theorem mem_renderIpv4 {address : Nat} (member : c ∈ renderIpv4 address) : c = '.' ∨ c.isDigit = true := by
  rcases Text.mem_join member with point | ⟨piece, inPieces, inPiece⟩
  · exact Or.inl (List.mem_singleton.mp point)
  · obtain ⟨bits, _, rfl⟩ := List.mem_map.mp inPieces
    exact Or.inr (Text.isDigit_of_mem_decimal inPiece)

/-- Addresses of eight pieces are written with hexadecimal digits and colons. -/
theorem mem_renderIpv6 {pieces : List Nat} (member : c ∈ renderIpv6 pieces) : c = ':' ∨ Text.isHexDigit c = true := by
  have list : ∀ pieces : List Nat, c ∈ Text.join ":" (pieces.map Text.hex) → c = ':' ∨ Text.isHexDigit c = true := by
    intro pieces member
    rcases Text.mem_join member with colon | ⟨piece, inPieces, inPiece⟩
    · exact Or.inl (List.mem_singleton.mp colon)
    · obtain ⟨number, _, rfl⟩ := List.mem_map.mp inPieces
      exact Or.inr (Text.isHexDigit_of_mem_hex inPiece)
  unfold renderIpv6 at member
  dsimp only at member
  split at member
  · exact list pieces member
  · rcases List.mem_append.mp member with inFront | behind
    · rcases List.mem_append.mp inFront with before | colons
      · exact list _ before
      · exact Or.inl (by simpa using colons)
    · exact list _ behind

theorem exists_of_bracketed (bracketed : bracketed? text = some host) : ∃ pieces, host = .ipv6 pieces := by
  unfold bracketed? at bracketed
  split at bracketed
  · obtain ⟨pieces, _, rfl⟩ := Option.map_eq_some_iff.mp bracketed
    exact ⟨pieces, rfl⟩
  · exact absurd bracketed nofun

/-- A name in ASCII form is ASCII, and nothing in it is forbidden. -/
theorem facts_of_asciiName [InternationalNames] {name ascii : Text} (named : asciiName? name = some ascii) :
    IsAscii ascii ∧ ∀ c ∈ ascii, isForbidden c = false := by
  obtain ⟨formed, free⟩ := Option.filter_eq_some_iff.mp named
  rw [Bool.not_eq_true', List.any_eq_false] at free
  refine ⟨?_, fun c member => Bool.eq_false_iff.mpr (free c member)⟩
  split at formed
  next plain =>
    have small : ∀ n < 128, (Char.ofNat n).toLower.toNat < 128 := by decide
    obtain rfl := Option.some.inj formed
    intro c member
    obtain ⟨d, inName, rfl⟩ := List.mem_map.mp member
    have code : d.toNat < 128 := of_decide_eq_true (List.all_eq_true.mp (Bool.and_eq_true_iff.mp plain).1 d inName)
    simpa using small d.toNat code
  next => exact InternationalNames.isAscii formed

/-- **The hosts of the web**: addresses of both kinds, and names that are not empty. -/
theorem cases_of_parse [InternationalNames] (parsed : parse? text = some host) :
    (∃ pieces, host = .ipv6 pieces) ∨ (∃ address, host = .ipv4 address)
      ∨ ∃ name ascii, asciiName? name = some ascii ∧ ascii ≠ [] ∧ host = .name ascii := by
  unfold parse? at parsed
  split at parsed
  · exact Or.inl (exists_of_bracketed parsed)
  · simp only [Option.bind_eq_bind, Option.bind_eq_some_iff] at parsed
    obtain ⟨decoded, _, ascii, named, made⟩ := parsed
    split at made
    · exact absurd made nofun
    next nonempty =>
      split at made
      · obtain ⟨address, _, rfl⟩ := Option.map_eq_some_iff.mp made
        exact Or.inr (Or.inl ⟨address, rfl⟩)
      · exact Or.inr (Or.inr ⟨decoded, ascii, named, nonempty, (Option.some.inj made).symm⟩)

/-- **The hosts of other addresses**: addresses of eight pieces, and the text as it is written. -/
theorem cases_of_parseForeign (parsed : parseForeign? text = some host) :
    (∃ pieces, host = .ipv6 pieces)
      ∨ (∀ c ∈ text, isForbiddenForeign c = false) ∧ host = .name (Url.escape .foreignHost text) := by
  unfold parseForeign? at parsed
  split at parsed
  · exact Or.inl (exists_of_bracketed parsed)
  · split at parsed
    · exact absurd parsed nofun
    next allowed =>
      rw [Bool.not_eq_true, List.any_eq_false] at allowed
      exact Or.inr ⟨fun c member => Bool.eq_false_iff.mpr (allowed c member), (Option.some.inj parsed).symm⟩

end Host

/-! ### Authorities -/

namespace Url

variable {scheme text rest : Text} {authority : Authority}

/-- What is read as a host and a port: the text in front of a colon, which is empty only without a port. -/
theorem exists_of_readHost [InternationalNames] {behind : Text} {host : Host} {port : Option Nat}
    (read : readHost? scheme text = some (host, port, behind)) :
    (if isSpecialScheme scheme then Host.parse? (cutPort false text).1 else Host.parseForeign? (cutPort false text).1)
        = some host
      ∧ ((cutPort false text).1 = [] → (cutPort false text).2 = none) := by
  have behindHost : ∀ {parsed : Option Host}, (parsed.bind fun host =>
      if (cutPort false text).1 = [] && (cutPort false text).2.isSome then none
      else ((cutPort false text).2.elim (some (none, [])) (readPort? scheme)).bind fun read =>
        some (host, read.1, read.2)) = some (host, port, behind) →
      parsed = some host ∧ ((cutPort false text).1 = [] → (cutPort false text).2 = none) := by
    intro parsed made
    obtain ⟨host', rfl, ported⟩ := Option.bind_eq_some_iff.mp made
    split at ported
    · exact absurd ported nofun
    next allowed =>
      obtain ⟨_, _, same⟩ := Option.bind_eq_some_iff.mp ported
      refine ⟨congrArg some (Prod.mk.inj (Option.some.inj same)).1, fun nameless => ?_⟩
      simpa [nameless] using allowed
  unfold readHost? at read
  dsimp only at read
  split at read
  next special => exact (if_pos special).symm ▸ behindHost read
  next foreign => exact (if_neg foreign).symm ▸ behindHost read

/-- What is read as an authority: a user, who needs text behind the sign, and a host with a port. -/
theorem exists_of_readAuthority [InternationalNames] (read : readAuthority? scheme text = some (authority, rest)) :
    ∃ info hosted host port behind, readHost? scheme hosted = some (host, port, behind)
      ∧ authority = ⟨(readUser info).1, (readUser info).2, some host, port⟩
      ∧ (hosted = [] → (readUser info).1 = [] ∧ (readUser info).2 = []) := by
  unfold readAuthority? at read
  dsimp only at read
  split at read
  · exact absurd read nofun
  · simp only [Option.bind_eq_bind, Option.bind_eq_some_iff] at read
    obtain ⟨⟨host, port, behind⟩, hosted, made⟩ := read
    dsimp only at made
    split at made
    · exact absurd made nofun
    next allowed =>
      refine ⟨_, _, host, port, behind, hosted, (Prod.mk.inj (Option.some.inj made)).1.symm, fun nothing => ?_⟩
      simpa only [nothing, decide_true, Bool.true_and, Bool.or_eq_true, decide_eq_true_eq, not_or, not_not, ne_eq]
        using allowed

end Url

end Relabel
