/-
**References that lead to the same scripts.**

References that differ in fragments lead to the same script, and their order does not matter: the same copies are
made of the scripts of two documents that lead to the same ones. The fragment shows in one place only. The name
of a copy is made from the digest of the address that is found first, with its fragment, if the address does not
end in a name of its own.

* `scriptName_congr`: addresses of one script have one name, unless the fragment shows.
* `storeScripts_congr`: what is stored depends on the keys, the contents and the names of scripts.
* `localizeScripts_sameCopies`: documents with the same scripts have the same copies.
-/

import Relabel.Proofs.Script.Accounted
import Relabel.Proofs.Url.Regular

namespace Relabel

/-! ### Names -/

/-- The name that an address ends in, if it is one for a file. -/
def ownName? (url : Url) : Option Text :=
  (url.lastSegment?.bind fun segment => Utf8.decode? (Url.unescape segment)).filter isPlainFile

theorem scriptName_eq (url : Url) : scriptName url = (ownName? url).getD (digestName url) := by
  unfold scriptName ownName?
  cases url.lastSegment?.bind fun segment => Utf8.decode? (Url.unescape segment) with
  | none => rfl
  | some name =>
    dsimp only
    split
    next plain => rw [Option.filter_some, if_pos plain, Option.getD_some]
    next notPlain => rw [Option.filter_some, if_neg notPlain, Option.getD_none]

/-- Whether the fragments of two addresses of one script do not show in the names of its copies. -/
def NamedAlike (first second : Url) : Prop :=
  (ownName? first).isSome = true ∨ first.fragment = second.fragment

instance (first second : Url) : Decidable (NamedAlike first second) :=
  inferInstanceAs (Decidable (_ ∨ _))

/-- **Addresses of one script** have one name. -/
theorem scriptName_congr {first second : Url} (regular : first.Regular) (regular' : second.Regular)
    (http : first.isHttp = true) (http' : second.isHttp = true) (same : scriptAddress first = scriptAddress second)
    (alike : NamedAlike first second) : scriptName first = scriptName second := by
  have segment : first.lastSegment? = second.lastSegment? := by
    unfold scriptAddress at same
    rw [regular.lastSegment?_eq http, regular'.lastSegment?_eq http', same]
  have own : ownName? first = ownName? second := by
    unfold ownName?
    rw [segment]
  rw [scriptName_eq, scriptName_eq, own]
  rcases alike with named | fragment
  · rw [own] at named
    obtain ⟨name, found⟩ := Option.isSome_iff_exists.mp named
    rw [found, Option.getD_some, Option.getD_some]
  · have text : first.render = second.render := by
      unfold scriptAddress at same
      rw [regular.render_eq, regular'.render_eq, same, fragment]
    unfold digestName
    rw [text]

theorem read_of_fetchable {read : Except UrlError Url} {url : Url} (found : fetchable? read = some url) :
    read = .ok url := by
  unfold fetchable? at found
  split at found
  · split at found
    · exact congrArg Except.ok (Option.some.inj found)
    · simp at found
  · simp at found

/-- The address of a document has been read. -/
theorem parsed_of_baseUrl [InternationalNames] {text : Text} {url : Url} (found : baseUrl? text = some url) :
    url.Parsed :=
  .alone (read_of_fetchable found)

/-- An address to which a reference leads has been read. -/
theorem parsed_of_resolve [InternationalNames] {base : Option Url} (parsed : ∀ url ∈ base, url.Parsed)
    {reference : Text} {url : Url} (resolved : resolve? base reference = some url) : url.Parsed := by
  unfold resolve? at resolved
  dsimp only at resolved
  split at resolved
  · simp at resolved
  · split at resolved
    next base' _ => exact .reference (parsed base' rfl) (read_of_fetchable resolved)
    · exact .alone (read_of_fetchable resolved)

/-! ### Copies -/

section Copies

variable {surroundings : Surroundings} {fetch : Fetch} {directory shown : Text}

/-- What is left of an attempt when it is forgotten which address it was made with. -/
def Attempt.kept (attempt : Attempt) : Text × Except ScriptLoss StoredScript :=
  (attempt.key, attempt.result)

/-- One script is stored alike if its content and its name are the same. -/
theorem storeScript_congr {key : Text} {url url' : Url} {taken taken₁ taken₂ : NamesTaken} {world world₁ world₂ : World}
    {attempt attempt' : Attempt} (content : fetch url = fetch url') (name : scriptName url = scriptName url')
    (ran : (storeScript (fun url => pure (fetch url)) directory shown taken key url : Amid surroundings _) world
      = ((attempt, taken₁), world₁))
    (ran' : (storeScript (fun url => pure (fetch url)) directory shown taken key url' : Amid surroundings _) world
      = ((attempt', taken₂), world₂)) :
    attempt.kept = attempt'.kept ∧ taken₁ = taken₂ ∧ world₁ = world₂ := by
  have asked : ∀ url, (pure (fetch url) : Amid surroundings _) world = (fetch url, world) := fun _ => rfl
  unfold storeScript at ran ran'
  simp only [Amid.bind_apply, asked] at ran ran'
  rw [content] at ran
  cases answer : fetch url' with
  | error error =>
    rw [answer] at ran ran'
    obtain ⟨parts, rfl⟩ := Prod.mk.inj ran
    obtain ⟨parts', rfl⟩ := Prod.mk.inj ran'
    obtain ⟨rfl, rfl⟩ := Prod.mk.inj parts
    obtain ⟨rfl, rfl⟩ := Prod.mk.inj parts'
    exact ⟨rfl, rfl, rfl⟩
  | ok bytes =>
    rw [answer] at ran ran'
    simp only [NamesTaken.handOut, Amid.bind_apply, name] at ran ran'
    rcases replaced : (replaceFile directory (taken.choose (scriptName url')) bytes : Amid surroundings _) world
      with ⟨result, last⟩
    rw [replaced] at ran ran'
    cases result with
    | error error | ok _ =>
      obtain ⟨parts, rfl⟩ := Prod.mk.inj ran
      obtain ⟨parts', rfl⟩ := Prod.mk.inj ran'
      obtain ⟨rfl, rfl⟩ := Prod.mk.inj parts
      obtain ⟨rfl, rfl⟩ := Prod.mk.inj parts'
      exact ⟨rfl, rfl, rfl⟩

/-- **Scripts in turn** are stored alike if their keys, contents and names are the same. The induction is on the
scripts. -/
theorem storeScripts_congr {scripts scripts' : List (Text × Url)} {taken : NamesTaken} {world world₁ world₂ : World}
    {attempts attempts' : List Attempt} (keys : scripts.map Prod.fst = scripts'.map Prod.fst)
    (same : ∀ key url url', (key, url) ∈ scripts → (key, url') ∈ scripts' →
      fetch url = fetch url' ∧ scriptName url = scriptName url')
    (ran : (storeScripts (fun url => pure (fetch url)) directory shown taken scripts : Amid surroundings _) world
      = (attempts, world₁))
    (ran' : (storeScripts (fun url => pure (fetch url)) directory shown taken scripts' : Amid surroundings _) world
      = (attempts', world₂)) :
    attempts.map Attempt.kept = attempts'.map Attempt.kept ∧ world₁ = world₂ := by
  induction scripts generalizing scripts' taken world attempts attempts' with
  | nil =>
    obtain rfl : scripts' = [] := List.map_eq_nil_iff.mp keys.symm
    obtain ⟨rfl, rfl⟩ := Prod.mk.inj ran
    obtain ⟨rfl, rfl⟩ := Prod.mk.inj ran'
    exact ⟨rfl, rfl⟩
  | cons script scripts ih =>
    obtain ⟨key, url⟩ := script
    cases scripts' with
    | nil => exact absurd keys nofun
    | cons script' scripts' =>
      obtain ⟨key', url'⟩ := script'
      obtain ⟨rfl, keysBehind⟩ := List.cons.inj keys
      obtain ⟨content, name⟩ := same key url url' List.mem_cons_self List.mem_cons_self
      unfold storeScripts at ran ran'
      obtain ⟨⟨attempt, taken₁⟩, middle₁, one, ran⟩ := Amid.bind_eq ran
      obtain ⟨⟨attempt', taken₂⟩, middle₂, one', ran'⟩ := Amid.bind_eq ran'
      obtain ⟨kept, rfl, rfl⟩ := storeScript_congr content name one one'
      obtain ⟨behind, last, others, ran⟩ := Amid.bind_eq ran
      obtain ⟨behind', last', others', ran'⟩ := Amid.bind_eq ran'
      obtain ⟨rfl, rfl⟩ := Prod.mk.inj ran
      obtain ⟨rfl, rfl⟩ := Prod.mk.inj ran'
      obtain ⟨keptBehind, sameWorld⟩ := ih keysBehind
        (fun key url url' member member' => same key url url' (List.mem_cons_of_mem _ member)
          (List.mem_cons_of_mem _ member')) others others'
      rw [List.map_cons, List.map_cons, kept, keptBehind]
      exact ⟨rfl, sameWorld⟩

end Copies

/-- A selection that does not look at the addresses. The induction is on the attempts. -/
theorem filterMap_congr_of_kept {α : Type} {select : Attempt → Option α}
    (only : ∀ attempt attempt' : Attempt, attempt.kept = attempt'.kept → select attempt = select attempt')
    {attempts attempts' : List Attempt} (kept : attempts.map Attempt.kept = attempts'.map Attempt.kept) :
    attempts.filterMap select = attempts'.filterMap select := by
  induction attempts generalizing attempts' with
  | nil =>
    obtain rfl : attempts' = [] := List.map_eq_nil_iff.mp kept.symm
    rfl
  | cons attempt attempts ih =>
    cases attempts' with
    | nil => exact absurd kept nofun
    | cons attempt' attempts' =>
      obtain ⟨first, behind⟩ := List.cons.inj kept
      rw [List.filterMap_cons, List.filterMap_cons, only attempt attempt' first, ih behind]

theorem Attempt.stored?_congr {attempt attempt' : Attempt} (kept : attempt.kept = attempt'.kept) :
    attempt.stored? = attempt'.stored? := by
  obtain ⟨key, result⟩ := Prod.mk.inj kept
  unfold stored?
  rw [key, result]

theorem Attempt.lost?_congr {attempt attempt' : Attempt} (kept : attempt.kept = attempt'.kept) :
    attempt.lost? = attempt'.lost? := by
  obtain ⟨key, result⟩ := Prod.mk.inj kept
  unfold lost?
  rw [key, result]

/-! ### Documents -/

/-- Documents with the same scripts have the same keys to be fetched. -/
theorem keys_pendingScripts_congr [InternationalNames] {base : Option Url} {html html' : Text}
    (sameKeys : ∀ key, IsScriptKey base html key ↔ IsScriptKey base html' key) :
    (pendingScripts base html).keys = (pendingScripts base html').keys :=
  TextSet.eq_of_sorted sorted_keys_pendingScripts sorted_keys_pendingScripts fun key => by
    rw [mem_keys_pendingScripts, mem_keys_pendingScripts, sameKeys]

/-- **Documents with the same scripts** have the same copies, if the content of a script does not depend on the
fragment of its address, and the fragments do not show in the names. -/
theorem localizeScripts_sameCopies [InternationalNames] {surroundings : Surroundings} {fetch : Fetch}
    {base : Option Url} {place : ScriptPlace} {html html' : Text} {disk : Disk} {relocation relocation' : Relocation}
    {world world' : World}
    (parsed : ∀ url ∈ base, url.Parsed)
    (fragmentless : ∀ url url', scriptAddress url = scriptAddress url' → fetch url = fetch url')
    (sameKeys : ∀ key, IsScriptKey base html key ↔ IsScriptKey base html' key)
    (alike : ∀ key url url', (key, url) ∈ (pendingScripts base html).entries →
      (key, url') ∈ (pendingScripts base html').entries → NamedAlike url url')
    (ran : (localizeScripts fetch base place html : Amid surroundings _) { disk } = (.ok relocation, world))
    (ran' : (localizeScripts fetch base place html' : Amid surroundings _) { disk } = (.ok relocation', world')) :
    relocation.stored = relocation'.stored ∧ relocation.lost = relocation'.lost ∧ world = world' := by
  have keys := keys_pendingScripts_congr sameKeys
  have names : ∀ key url url', (key, url) ∈ (pendingScripts base html).entries →
      (key, url') ∈ (pendingScripts base html').entries → fetch url = fetch url' ∧ scriptName url = scriptName url' := by
    intro key url url' member member'
    obtain ⟨_, _, resolved, address⟩ := resolved_of_mem_pendingScripts member
    obtain ⟨_, _, resolved', address'⟩ := resolved_of_mem_pendingScripts member'
    have same := address.trans address'.symm
    have http := isHttp_of_resolve resolved
    have http' := isHttp_of_resolve resolved'
    refine ⟨fragmentless url url' same, ?_⟩
    exact scriptName_congr ((parsed_of_resolve parsed resolved).regular http)
      ((parsed_of_resolve parsed resolved').regular http') http http' same (alike key url url' member member')
  have empties : (pendingScripts base html').isEmpty = (pendingScripts base html).isEmpty := by
    have empty : ∀ pending : OrderedMap Url, pending.isEmpty = pending.keys.isEmpty := by
      intro pending
      exact List.isEmpty_map.symm
    rw [empty, empty, keys]
  unfold localizeScripts localizeScriptsBy at ran ran'
  rw [empties] at ran'
  by_cases nothing : (pendingScripts base html).isEmpty = true
  · rw [if_pos nothing] at ran ran'
    obtain ⟨same, rfl⟩ := Prod.mk.inj ran
    obtain ⟨same', rfl⟩ := Prod.mk.inj ran'
    obtain rfl := Except.ok.inj same
    obtain rfl := Except.ok.inj same'
    exact ⟨rfl, rfl, rfl⟩
  · rw [if_neg nothing] at ran ran'
    simp only [Amid.bind_apply] at ran ran'
    rcases made : (makeDirectories place.path : Amid surroundings _) { disk } with ⟨result, middle⟩
    rw [made] at ran ran'
    cases result with
    | error error => exact absurd (Prod.mk.inj ran).1 nofun
    | ok _ =>
      simp only [Amid.bind_apply] at ran ran'
      rcases stored : (storeScripts (fun url => pure (fetch url)) place.path place.directory {}
        (pendingScripts base html).entries : Amid surroundings _) middle with ⟨attempts, last⟩
      rcases stored' : (storeScripts (fun url => pure (fetch url)) place.path place.directory {}
        (pendingScripts base html').entries : Amid surroundings _) middle with ⟨attempts', last'⟩
      rw [stored] at ran
      rw [stored'] at ran'
      obtain ⟨same, rfl⟩ := Prod.mk.inj ran
      obtain ⟨same', rfl⟩ := Prod.mk.inj ran'
      obtain rfl := Except.ok.inj same
      obtain rfl := Except.ok.inj same'
      obtain ⟨kept, sameWorld⟩ := storeScripts_congr keys names stored stored'
      exact ⟨filterMap_congr_of_kept (fun _ _ => Attempt.stored?_congr) kept,
        filterMap_congr_of_kept (fun _ _ => Attempt.lost?_congr) kept, sameWorld⟩

/-- The address of a document. -/
def homeBase [InternationalNames] : Option Url :=
  baseUrl? "http://a/d/"

/-- Two spellings of references to the same scripts. -/
def homeScripts : Text :=
  "<script src='b.js#1'><script src='x'>"

def homeScriptsAgain : Text :=
  "<script src='http://a/d/x'><script src='/d/b.js#2'>"

/-- Local copies of the scripts of a document, which are all there. -/
def copiesOf (base : Option Url) (html : Text) : Except Failure Relocation × World :=
  (localizeScripts (fun _ => .ok [59]) base ⟨"out", "js"⟩ html : Amid calmSurroundings _) { disk := {} }

/-- The copies are the same in another order, with other fragments and in other spellings. -/
theorem localizeScripts_sameCopies_home :
    ∃ relocation relocation', (copiesOf homeBase homeScripts).1 = .ok relocation
      ∧ (copiesOf homeBase homeScriptsAgain).1 = .ok relocation'
      ∧ relocation.stored.map Prod.fst = ["http://a/d/b.js".toList, "http://a/d/x"]
      ∧ relocation.stored = relocation'.stored
      ∧ (copiesOf homeBase homeScripts).2 = (copiesOf homeBase homeScriptsAgain).2 := by
  have results : (copiesOf homeBase homeScripts).1.toOption.map (fun relocation => relocation.stored.map Prod.fst)
        = some ["http://a/d/b.js".toList, "http://a/d/x"]
      ∧ (copiesOf homeBase homeScriptsAgain).1.toOption.isSome = true := by
    decide +kernel
  obtain ⟨relocation, copied, stored⟩ := Option.map_eq_some_iff.mp results.1
  obtain ⟨relocation', copied'⟩ := Option.isSome_iff_exists.mp results.2
  have keys : (pendingScripts homeBase homeScripts).keys = (pendingScripts homeBase homeScriptsAgain).keys := by
    decide +kernel
  have alike : ∀ entry ∈ (pendingScripts homeBase homeScripts).entries,
      ∀ entry' ∈ (pendingScripts homeBase homeScriptsAgain).entries, entry.1 = entry'.1 →
        NamedAlike entry.2 entry'.2 := by
    decide +kernel
  have parsed : ∀ url ∈ homeBase, url.Parsed := fun url found => parsed_of_baseUrl found
  have ran := eq_ok_of_toOption copied
  have ran' := eq_ok_of_toOption copied'
  obtain ⟨same, _, sameWorld⟩ := localizeScripts_sameCopies parsed (fun _ _ _ => rfl)
    (fun key => by rw [← mem_keys_pendingScripts, ← mem_keys_pendingScripts, keys])
    (fun key url url' member member' => alike _ member _ member' rfl)
    (ran ▸ Prod.mk.eta.symm) (ran' ▸ Prod.mk.eta.symm)
  exact ⟨relocation, relocation', ran, ran', stored, same, sameWorld⟩

/-- Two references to a script whose address does not end in a name of its own. -/
def namelessScript (fragment : Text) : Text :=
  "<script src='http://a/x" ++ fragment ++ "'>"

/-- **The fragment shows** in the name of a copy that is made from a digest: all else is the same, but the copies
have different names. -/
theorem localizeScripts_fragmentShows :
    ∃ relocation relocation', (copiesOf none (namelessScript [])).1 = .ok relocation
      ∧ (copiesOf none (namelessScript "#1")).1 = .ok relocation'
      ∧ (∀ key, IsScriptKey none (namelessScript []) key ↔ IsScriptKey none (namelessScript "#1") key)
      ∧ relocation.stored ≠ relocation'.stored
      ∧ (copiesOf none (namelessScript [])).2.disk ≠ (copiesOf none (namelessScript "#1")).2.disk := by
  have keys : (pendingScripts none (namelessScript [])).keys = (pendingScripts none (namelessScript "#1")).keys := by
    decide +kernel
  have results : ∃ relocation ∈ (copiesOf none (namelessScript [])).1.toOption,
      ∃ relocation' ∈ (copiesOf none (namelessScript "#1")).1.toOption, relocation.stored ≠ relocation'.stored
        ∧ (copiesOf none (namelessScript [])).2.disk ≠ (copiesOf none (namelessScript "#1")).2.disk := by
    decide +kernel
  obtain ⟨relocation, ran, relocation', ran', different⟩ := results
  refine ⟨relocation, relocation', eq_ok_of_toOption ran, eq_ok_of_toOption ran', fun key => ?_, different⟩
  rw [← mem_keys_pendingScripts, ← mem_keys_pendingScripts, keys]

end Relabel
