/-
**References that are read from the address of a document.**

A reference with a scheme is read on its own, the address of its document left aside. That address matters for one
kind of reference with a scheme only: it repeats the scheme of the document and has fewer than two slashes behind
it. Read from the document, it leads to a place on the same server. Read on its own, it is taken for an address
whose slashes have been left out, and what follows names the server.

* `cutTail_body`: the body of a text comes first in it.
* `clean_behind`: what has been cleaned is not cleaned again behind a scheme.
* `Url.ofScheme?_eq`: where the address of the document does not matter behind a scheme.
* `Url.parse_withSlashes`, `Url.parse_short`: references that repeat the scheme and lack their slashes.
* `reference_resolvedFrom`: what references lead to, compared with reading them from the address of the document.
-/

import Mathlib.Data.List.DropRight
import Relabel.Command.Tables
import Relabel.Proofs.Scan.Reading
import Relabel.Proofs.Url.Regular
import Relabel.Url.Reference

namespace Relabel

namespace Url

/-! ### Pieces -/

theorem cutFirst_eq_some {separator : Char} {text before behind : Text}
    (cut : Text.cutFirst separator text = some (before, behind)) : text = before ++ separator :: behind := by
  unfold Text.cutFirst at cut
  rw [List.span_eq_takeWhile_dropWhile] at cut
  have whole := List.takeWhile_append_dropWhile (p := (· != separator)) (l := text)
  cases left : text.dropWhile (· != separator) with
  | nil =>
    rw [left] at cut
    exact absurd cut nofun
  | cons c rest =>
    rw [left] at cut
    obtain ⟨rfl, rfl⟩ := Prod.mk.inj (Option.some.inj cut)
    have isSeparator : c = separator := by simpa using head_dropWhile left
    rw [left, isSeparator] at whole
    exact whole.symm

/-- **The body of a text** comes first in it. -/
theorem cutTail_body (text : Text) : ∃ tail, text = (cutTail text).body ++ tail := by
  unfold cutTail
  cases marked : Text.cutFirst '#' text with
  | none =>
    dsimp only
    cases asked : Text.cutFirst '?' text with
    | none => exact ⟨[], (List.append_nil _).symm⟩
    | some parts => exact ⟨_, cutFirst_eq_some asked⟩
  | some parts =>
    obtain ⟨front, fragment⟩ := parts
    dsimp only
    have whole := cutFirst_eq_some marked
    cases asked : Text.cutFirst '?' front with
    | none => exact ⟨_, whole⟩
    | some parts =>
      rw [cutFirst_eq_some asked, List.append_assoc] at whole
      exact ⟨_, whole⟩

/-! ### Texts that have been cleaned -/

/-- Whether a character is left out wherever it stands. -/
def isLeftOut (c : Char) : Bool :=
  c == '\t' || c == '\n' || c == '\r'

/-- A text from which nothing is left out but perhaps at its beginning. -/
structure CleanBehind (text : Text) : Prop where
  inside : ∀ c ∈ text, isLeftOut c = false
  last : ∀ c ∈ text.getLast?, 0x20 < c.toNat

theorem clean_eq (text : Text) :
    clean text = (((text.dropWhile (·.toNat ≤ 0x20)).reverse.dropWhile (·.toNat ≤ 0x20)).filter
      (!isLeftOut ·)).reverse := by
  have keep : (fun c : Char => c != '\t' && c != '\n' && c != '\r') = (!isLeftOut ·) := by
    funext c
    simp [isLeftOut, bne]
  unfold clean Text.trim Text.trimEnd Text.trimStart
  rw [keep, List.filter_reverse]

theorem cleanBehind_clean (text : Text) : CleanBehind (clean text) := by
  rw [clean_eq]
  constructor
  · intro c member
    simpa using (List.mem_filter.mp (List.mem_reverse.mp member)).2
  · intro c isLast
    rw [List.getLast?_reverse] at isLast
    cases ending : (text.dropWhile (·.toNat ≤ 0x20)).reverse.dropWhile (·.toNat ≤ 0x20) with
    | nil =>
      rw [ending] at isLast
      exact absurd isLast nofun
    | cons d rest =>
      have visible : 0x20 < d.toNat := by simpa using head_dropWhile ending
      have kept : (!isLeftOut d) = true := by
        simp only [isLeftOut, Bool.not_eq_true', Bool.or_eq_false_iff, beq_eq_false_iff_ne]
        refine ⟨⟨?_, ?_⟩, ?_⟩ <;> rintro rfl <;> exact absurd visible (by decide)
      rw [ending, List.filter_cons_of_pos (p := (!isLeftOut ·)) kept] at isLast
      obtain rfl := Option.some.inj isLast
      exact visible

theorem CleanBehind.suffix {text behind : Text} (isClean : CleanBehind text) (suffix : behind <:+ text) :
    CleanBehind behind := by
  obtain ⟨front, rfl⟩ := suffix
  refine ⟨fun c member => isClean.inside c (List.mem_append_right _ member), fun c isLast => isClean.last c ?_⟩
  rw [List.getLast?_append, Option.mem_def.mp isLast]
  rfl

/-- **Nothing has to be cleaned** behind characters that are visible. -/
theorem clean_behind {front behind : Text} (visible : ∀ c ∈ front, 0x20 < c.toNat) (nonempty : front ≠ [])
    (isClean : CleanBehind behind) : clean (front ++ behind) = front ++ behind := by
  have inside : ∀ c ∈ front ++ behind, (!isLeftOut c) = true := by
    intro c member
    rcases List.mem_append.mp member with inFront | inBehind
    · have bound := visible c inFront
      simp only [isLeftOut, Bool.not_eq_true', Bool.or_eq_false_iff, beq_eq_false_iff_ne]
      refine ⟨⟨?_, ?_⟩, ?_⟩ <;> rintro rfl <;> exact absurd bound (by decide)
    · simpa using isClean.inside c inBehind
  have last : ∀ c ∈ (front ++ behind).reverse.head?, 0x20 < c.toNat := by
    intro c isLast
    rw [List.head?_reverse, List.getLast?_append] at isLast
    cases ending : behind.getLast? with
    | none =>
      rw [ending, Option.none_or] at isLast
      exact visible c (List.mem_of_getLast? isLast)
    | some d =>
      rw [ending] at isLast
      obtain rfl := Option.some.inj isLast
      exact isClean.last _ ending
  have front' : (front ++ behind).dropWhile (·.toNat ≤ 0x20) = front ++ behind := by
    obtain ⟨c, rest, rfl⟩ := List.exists_cons_of_ne_nil nonempty
    have bound := visible c List.mem_cons_self
    exact List.dropWhile_cons_of_neg (by simpa using bound)
  have back : (front ++ behind).reverse.dropWhile (·.toNat ≤ 0x20) = (front ++ behind).reverse := by
    cases ending : (front ++ behind).reverse with
    | nil => rfl
    | cons c rest =>
      rw [ending] at last
      exact List.dropWhile_cons_of_neg (by simpa using last c rfl)
  rw [clean_eq, front', back, List.filter_reverse, List.filter_eq_self.mpr inside, List.reverse_reverse]

/-! ### Behind a scheme -/

variable {base : Url} {scheme text behind : Text}

/-- Whether a text has fewer than two slashes in front, which is too few for a server to follow. -/
def hasFewSlashes (text : Text) : Bool :=
  (text.takeWhile (isSlash true)).length < 2

theorem ne_file_of_isHttp (http : base.isHttp = true) : base.scheme ≠ "file".toList := by
  intro file
  unfold isHttp at http
  rw [file] at http
  exact absurd http (by decide)

/-- The address of a document of the web does not matter to addresses of files. -/
theorem ofFile?_eq [InternationalNames] (http : base.isHttp = true) (text : Text) :
    ofFile? (some base) text = ofFile? none text := by
  have noFile : (some base).filter (fun base => decide (base.scheme = "file".toList)) = none := by
    rw [Option.filter_some, if_neg]
    simpa using ne_file_of_isHttp http
  unfold ofFile?
  rw [noFile, Option.filter_none]

/-- Alone, a scheme of the web is followed by a server, behind any number of slashes. -/
theorem ofScheme?_alone [InternationalNames] (http : isHttpScheme scheme = true) (text : Text) :
    ofScheme? none scheme text = ofAuthority? scheme (text.dropWhile (isSlash true)) := by
  have notFile : scheme ≠ "file".toList := by
    rintro rfl
    exact absurd http (by decide)
  unfold ofScheme?
  rw [if_neg notFile, if_pos (isSpecialScheme_of_isHttpScheme http), List.span_eq_takeWhile_dropWhile]

/-- **The address of a document of the web does not matter** behind a scheme, unless it is the same and too few
slashes follow. -/
theorem ofScheme?_eq [InternationalNames] (http : base.isHttp = true)
    (complete : ¬ (scheme = base.scheme ∧ hasFewSlashes text = true)) :
    ofScheme? (some base) scheme text = ofScheme? none scheme text := by
  have notBoth : ¬ ((decide (base.scheme = scheme) && decide ((text.takeWhile (isSlash true)).length < 2)) = true) := by
    intro both
    obtain ⟨same, few⟩ := Bool.and_eq_true_iff.mp both
    exact complete ⟨(of_decide_eq_true same).symm, few⟩
  unfold ofScheme?
  rw [List.span_eq_takeWhile_dropWhile, ofFile?_eq http]
  dsimp only
  rw [if_neg notBoth]

/-- **Behind few slashes** a reference leads to a place on the server of the document. -/
theorem ofReference?_few [InternationalNames] {origin : List Text} (http : base.isHttp = true)
    (divided : base.path = .divided origin) (few : hasFewSlashes text = true) :
    ∃ url, ofReference? base text = some url ∧ url.scheme = base.scheme ∧ url.authority = base.authority := by
  have special := isSpecialScheme_of_isHttpScheme http
  obtain ⟨tail, whole⟩ := cutTail_body text
  have notTwo : ∀ c d rest, (cutTail text).body = c :: d :: rest → isSlash true c = true → isSlash true d = false := by
    intro c d rest body slash
    by_contra again
    rw [hasFewSlashes, whole, body] at few
    simp [slash, Bool.not_eq_false _ ▸ again] at few
  unfold ofReference?
  rw [divided, special]
  dsimp only
  cases body : (cutTail text).body with
  | nil => exact ⟨_, rfl, by split <;> rfl, by split <;> rfl⟩
  | cons c path =>
    dsimp only
    split
    next => exact ⟨_, rfl, rfl, rfl⟩
    next slash =>
      have isFirst : isSlash true c = true := by simpa using slash
      have noSecond : path.head?.any (isSlash true) = false := by
        cases path with
        | nil => rfl
        | cons d rest => exact notTwo c d rest body isFirst
      rw [noSecond, if_neg Bool.false_ne_true]
      exact ⟨_, rfl, rfl, rfl⟩

/-! ### Whole references -/

/-- What a text writes behind its scheme and slashes, if the scheme is that of an address and too few slashes
follow. -/
def unslashed? (base : Url) (text : Text) : Option Text :=
  match cutScheme? (clean text) with
  | some (scheme, rest) =>
    if scheme = base.scheme && hasFewSlashes rest then some (rest.dropWhile (isSlash true)) else none
  | none => none

theorem unslashed?_eq_some_iff :
    base.unslashed? text = some behind
      ↔ ∃ rest, cutScheme? (clean text) = some (base.scheme, rest) ∧ hasFewSlashes rest = true
          ∧ rest.dropWhile (isSlash true) = behind := by
  unfold unslashed?
  cases cut : cutScheme? (clean text) with
  | none => simp
  | some parts =>
    obtain ⟨scheme, rest⟩ := parts
    simp only [Option.some.injEq, Prod.mk.injEq]
    constructor
    · intro found
      split at found
      next both =>
        obtain ⟨same, few⟩ := Bool.and_eq_true_iff.mp both
        exact ⟨rest, ⟨of_decide_eq_true same, rfl⟩, few, Option.some.inj found⟩
      next => exact absurd found nofun
    · rintro ⟨_, ⟨rfl, rfl⟩, few, rfl⟩
      rw [if_pos (Bool.and_eq_true_iff.mpr ⟨decide_eq_true rfl, few⟩)]

theorem parse_of_cutScheme [InternationalNames] {base : Option Url}
    (cut : cutScheme? (clean text) = some (scheme, behind)) :
    parse base text = (ofScheme? base scheme behind).elim (.error .malformed) .ok := by
  unfold parse
  dsimp only
  rw [cut]

/-- What follows the scheme of a text comes last in it. -/
theorem suffix_of_cutScheme (cut : cutScheme? text = some (scheme, behind)) : behind <:+ text := by
  unfold cutScheme? at cut
  rw [List.span_eq_takeWhile_dropWhile] at cut
  have suffix := List.dropWhile_suffix isSchemeChar (l := text)
  split at cut
  next c letters rest parts =>
    split at cut
    next =>
      obtain ⟨_, rfl⟩ := Prod.mk.inj (Option.some.inj cut)
      rw [(Prod.mk.inj parts).2] at suffix
      exact (List.suffix_cons _ _).trans suffix
    next => exact absurd cut nofun
  next => exact absurd cut nofun

/-- **With its slashes written**, a reference with too few is an address of its own, and read alike with and without
the address of the document. -/
theorem parse_withSlashes [InternationalNames] (http : base.isHttp = true)
    (short : base.unslashed? text = some behind) :
    parse none text = parse (some base) (base.scheme ++ "://" ++ behind) := by
  obtain ⟨rest, cut, few, rfl⟩ := unslashed?_eq_some_iff.mp short
  have isClean : CleanBehind (rest.dropWhile (isSlash true)) :=
    (cleanBehind_clean text).suffix ((List.dropWhile_suffix _).trans (suffix_of_cutScheme cut))
  have scheme := http
  simp only [isHttp, isHttpScheme, Bool.or_eq_true, decide_eq_true_eq] at scheme
  have visible : ∀ c ∈ base.scheme ++ "://", 0x20 < c.toNat := by
    rcases scheme with same | same <;> rw [same] <;> decide
  have written : cutScheme? (base.scheme ++ "://" ++ rest.dropWhile (isSlash true))
      = some (base.scheme, '/' :: '/' :: rest.dropWhile (isSlash true)) := by
    rcases scheme with same | same <;> rw [same] <;> rfl
  have cleaned := clean_behind visible (by simp) isClean
  have same : ofScheme? none base.scheme rest
      = ofScheme? (some base) base.scheme ('/' :: '/' :: rest.dropWhile (isSlash true)) := by
    have complete : ¬ (base.scheme = base.scheme ∧ hasFewSlashes ('/' :: '/' :: rest.dropWhile (isSlash true)) = true) := by
      rintro ⟨_, few⟩
      simp [hasFewSlashes, isSlash] at few
    rw [ofScheme?_eq http complete, ofScheme?_alone http, ofScheme?_alone http]
    exact congrArg (ofAuthority? base.scheme) (List.dropWhile_idempotent _ _).symm
  rw [parse_of_cutScheme cut, parse_of_cutScheme ((congrArg cutScheme? cleaned).trans written), same]

/-- A reference with too few slashes, read from the address of the document, leads to its server. -/
theorem parse_short [InternationalNames] {base : Url} {text behind : Text} (http : base.isHttp = true)
    (parsed : base.Parsed) (short : base.unslashed? text = some behind) :
    ∃ url, parse (some base) text = .ok url ∧ url.scheme = base.scheme ∧ url.authority = base.authority := by
  obtain ⟨rest, cut, few, -⟩ := unslashed?_eq_some_iff.mp short
  obtain ⟨origin, divided, -⟩ := (parsed.regular http).path
  obtain ⟨url, found, server⟩ := ofReference?_few http divided few
  have notFile : base.scheme ≠ "file".toList := ne_file_of_isHttp http
  have both : (decide (base.scheme = base.scheme) && decide ((rest.takeWhile (isSlash true)).length < 2)) = true :=
    Bool.and_eq_true_iff.mpr ⟨decide_eq_true rfl, few⟩
  have read : ofScheme? (some base) base.scheme rest = some url := by
    unfold ofScheme?
    rw [if_neg notFile, if_pos (isSpecialScheme_of_isHttpScheme http), List.span_eq_takeWhile_dropWhile]
    dsimp only
    rw [if_pos both, found]
  exact ⟨url, by rw [parse_of_cutScheme cut, read]; rfl, server⟩

end Url

/-! ### Resolution -/

section Resolution

variable [InternationalNames] {base : Url} {reference : Text} (written : Text.strip reference ≠ [])
  (outside : isInline (Text.strip reference) = false)

include written outside

/-- A reference with a scheme is read on its own. -/
theorem resolve?_of_scheme {parts : Text × Text} (cut : Url.cutScheme? (Url.clean (Text.strip reference)) = some parts) :
    resolve? (some base) reference = fetchable? (Url.parse none (Text.strip reference)) := by
  have notInline : ¬ (decide (Text.strip reference = []) || isInline (Text.strip reference)) = true := by
    simp [written, outside]
  unfold resolve?
  dsimp only
  rw [if_neg notInline, Url.parse_of_cutScheme cut]
  cases Url.ofScheme? none parts.1 parts.2 <;> rfl

/-- A reference without a scheme is read from the address of the document. -/
theorem resolve?_of_noScheme (cut : Url.cutScheme? (Url.clean (Text.strip reference)) = none) :
    resolve? (some base) reference = fetchable? (Url.parse (some base) (Text.strip reference)) := by
  have notInline : ¬ (decide (Text.strip reference = []) || isInline (Text.strip reference)) = true := by
    simp [written, outside]
  have relative : Url.parse none (Text.strip reference) = .error .needsBase := by
    unfold Url.parse
    dsimp only
    rw [cut]
  unfold resolve?
  dsimp only
  rw [if_neg notInline, relative]

/-- What a reference leads to from the address of a document, compared with what reading it from there gives. -/
structure ResolvedFrom (base : Url) (reference : Text) : Prop where
  /-- It is the same, if the reference has no scheme, another one, or two slashes behind it. -/
  agrees : base.unslashed? (Text.strip reference) = none →
    resolve? (some base) reference = fetchable? (Url.parse (some base) (Text.strip reference))
  /-- Otherwise two slashes are read that are not there, -/
  slashed : ∀ behind, base.unslashed? (Text.strip reference) = some behind →
    resolve? (some base) reference = fetchable? (Url.parse (some base) (base.scheme ++ "://" ++ behind))
  /-- where reading the reference from the address of the document stays on its server. -/
  near : ∀ behind, base.unslashed? (Text.strip reference) = some behind →
    ∃ url, fetchable? (Url.parse (some base) (Text.strip reference)) = some url
      ∧ url.scheme = base.scheme ∧ url.authority = base.authority

/-- **A reference is read from the address of its document** as if it were read there, unless it repeats the scheme
of the address and has fewer than two slashes behind it. -/
theorem reference_resolvedFrom (http : base.isHttp = true) (parsed : base.Parsed) : ResolvedFrom base reference := by
  constructor
  · intro complete
    cases cut : Url.cutScheme? (Url.clean (Text.strip reference)) with
    | none => exact resolve?_of_noScheme written outside cut
    | some parts =>
      obtain ⟨scheme, behind⟩ := parts
      have notShort : ¬ (scheme = base.scheme ∧ Url.hasFewSlashes behind = true) := by
        rintro ⟨rfl, few⟩
        exact absurd (complete.symm.trans (Url.unslashed?_eq_some_iff.mpr ⟨behind, cut, few, rfl⟩)) nofun
      rw [resolve?_of_scheme written outside cut, Url.parse_of_cutScheme cut, Url.parse_of_cutScheme cut,
        Url.ofScheme?_eq http notShort]
  · intro behind short
    obtain ⟨rest, cut, -⟩ := Url.unslashed?_eq_some_iff.mp short
    rw [resolve?_of_scheme written outside cut, Url.parse_withSlashes http short]
  · intro behind short
    obtain ⟨url, read, scheme, server⟩ := Url.parse_short http parsed short
    have urlHttp : url.isHttp = true := by
      unfold Url.isHttp
      rw [scheme]
      exact http
    refine ⟨url, ?_, scheme, server⟩
    rw [read, fetchable?, if_pos urlHttp]

end Resolution

/-- The address of a document. -/
def siteAddress : Url where
  scheme := "https"
  authority := { host := some (.name "example.com") }
  path := .divided ["site", "index.html"]

theorem parse_siteAddress : Url.parse none "https://example.com/site/index.html" = .ok siteAddress := by
  decide +kernel

/-- It is so for a reference to another server and for one that lacks its slashes. -/
theorem reference_resolvedFrom_site :
    siteAddress.isHttp = true ∧ siteAddress.Parsed
      ∧ siteAddress.unslashed? "//cdn.org/x.js" = none ∧ ResolvedFrom siteAddress "//cdn.org/x.js"
      ∧ siteAddress.unslashed? "https:/lib/a.js" = some "lib/a.js" ∧ ResolvedFrom siteAddress "https:/lib/a.js" := by
  have http : siteAddress.isHttp = true := by decide
  have parsed : siteAddress.Parsed := .alone parse_siteAddress
  refine ⟨http, parsed, by decide +kernel, ?_, by decide +kernel, ?_⟩
  · exact reference_resolvedFrom (by decide) (by decide) http parsed
  · exact reference_resolvedFrom (by decide) (by decide) http parsed

/-- **A reference without its slashes leads to another server**, although reading it from the address of the
document leads to a script beside the document. -/
theorem reference_leavesServer :
    siteAddress.Parsed ∧ siteAddress.isHttp = true
      ∧ Text.strip "https:lib/a.js" ≠ [] ∧ isInline (Text.strip "https:lib/a.js") = false
      ∧ resolve? (some siteAddress) "https:lib/a.js"
          ≠ fetchable? (Url.parse (some siteAddress) (Text.strip "https:lib/a.js"))
      ∧ (fetchable? (Url.parse (some siteAddress) (Text.strip "https:lib/a.js"))).map Url.render
          = some "https://example.com/site/lib/a.js".toList
      ∧ (resolve? (some siteAddress) "https:lib/a.js").map Url.render = some "https://lib/a.js".toList :=
  ⟨.alone parse_siteAddress, by decide +kernel⟩

end Relabel
