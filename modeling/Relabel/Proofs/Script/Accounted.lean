/-
**Every script is accounted for.**

References that differ in their fragments lead to the same script. Each script that a document refers to is
requested once, in order of the addresses, and is stored or lost in the end. Which of the two does not change
what becomes of the others.

* `IsScriptKey`: the addresses of the scripts of a document, without fragments.
* `mem_keys_pendingScripts`: the scripts that are to be fetched are those of the document.
* `Attempt.keys_disjoint`, `Attempt.mem_keys_iff`: no script is stored and lost, and each one is stored or lost.
* `localizeScriptsBy_accounted`: the requests and the results of a run.
-/

import Relabel.Proofs.Container.Lookup
import Relabel.Proofs.Script.Attempts
import Relabel.Proofs.Text.ByteOrder

namespace Relabel

variable {base : Option Url} {html : Text}

/-! ### What is to be fetched -/

/-- Whether a text is the key of a script that a document refers to. -/
def IsScriptKey [InternationalNames] (base : Option Url) (html key : Text) : Prop :=
  ∃ reference ∈ scriptReferences html, ∃ url, resolve? base reference = some url ∧ scriptAddress url = key

/-- An address that is found is one of a resource that can be fetched. -/
theorem isHttp_of_resolve [InternationalNames] {reference : Text} {url : Url}
    (resolved : resolve? base reference = some url) :
    url.isHttp = true := by
  have fetchable : ∀ parsed, fetchable? parsed = some url → url.isHttp = true := by
    intro parsed found
    unfold fetchable? at found
    split at found
    · split at found
      next http => exact Option.some.inj found ▸ http
      next => simp at found
    · simp at found
  unfold resolve? at resolved
  simp only at resolved
  split at resolved
  · simp at resolved
  · split at resolved
    · exact fetchable _ resolved
    · exact fetchable _ resolved

/-- The scripts that are collected have the keys of their addresses. The induction is on the addresses. -/
theorem collected (urls : List Url) (pending : OrderedMap Url) :
    (∀ entry ∈ (urls.foldl (fun pending url => pending.insertNew (scriptAddress url) url) pending).entries,
        entry ∈ pending.entries ∨ ∃ url ∈ urls, entry = (scriptAddress url, url))
      ∧ ∀ key, key ∈ (urls.foldl (fun pending url => pending.insertNew (scriptAddress url) url) pending).keys
          ↔ key ∈ pending.keys ∨ ∃ url ∈ urls, scriptAddress url = key := by
  induction urls generalizing pending with
  | nil => simp
  | cons url urls ih =>
    obtain ⟨entries, keys⟩ := ih (pending.insertNew (scriptAddress url) url)
    refine ⟨fun entry member => ?_, fun key => ?_⟩
    · rcases entries entry member with inserted | ⟨other, later, same⟩
      · rcases OrderedMap.mem_insertNew inserted with same | old
        · exact Or.inr ⟨url, List.mem_cons_self, same⟩
        · exact Or.inl old
      · exact Or.inr ⟨other, List.mem_cons_of_mem _ later, same⟩
    · rw [List.foldl_cons, keys, OrderedMap.mem_keys_insertNew]
      simp only [List.exists_mem_cons_iff, eq_comm (a := key)]
      tauto

/-- A script that is to be fetched has an address to which a reference of the document leads. -/
theorem resolved_of_mem_pendingScripts [InternationalNames] {key : Text} {url : Url}
    (member : (key, url) ∈ (pendingScripts base html).entries) :
    ∃ reference ∈ scriptReferences html, resolve? base reference = some url ∧ scriptAddress url = key := by
  rcases (collected _ _).1 _ member with absent | ⟨other, resolved, same⟩
  · exact absurd absent List.not_mem_nil
  · obtain ⟨rfl, rfl⟩ := Prod.mk.inj same
    obtain ⟨reference, inReferences, found⟩ := List.mem_filterMap.mp resolved
    exact ⟨reference, inReferences, found, rfl⟩

theorem mem_pendingScripts [InternationalNames] {key : Text} {url : Url}
    (member : (key, url) ∈ (pendingScripts base html).entries) :
    scriptAddress url = key ∧ url.isHttp = true := by
  obtain ⟨_, _, found, same⟩ := resolved_of_mem_pendingScripts member
  exact ⟨same, isHttp_of_resolve found⟩

/-- **The scripts that are to be fetched** are those of the document. -/
theorem mem_keys_pendingScripts [InternationalNames] {key : Text} :
    key ∈ (pendingScripts base html).keys ↔ IsScriptKey base html key := by
  refine ((collected _ _).2 key).trans ?_
  constructor
  · rintro (absent | ⟨url, resolved, same⟩)
    · exact absurd absent List.not_mem_nil
    · obtain ⟨reference, member, found⟩ := List.mem_filterMap.mp resolved
      exact ⟨reference, member, url, found, same⟩
  · rintro ⟨reference, member, url, found, same⟩
    exact Or.inr ⟨url, List.mem_filterMap.mpr ⟨reference, member, found⟩, same⟩

/-- There is nothing to be fetched exactly if no reference leads to a script. -/
theorem pendingScripts_eq_nil_iff [InternationalNames] :
    (pendingScripts base html).entries = [] ↔ ∀ key, ¬ IsScriptKey base html key := by
  rw [← List.map_eq_nil_iff (f := Prod.fst), List.eq_nil_iff_forall_not_mem]
  exact forall_congr' fun key => not_congr mem_keys_pendingScripts

theorem sorted_keys_pendingScripts [InternationalNames] : (pendingScripts base html).keys.Pairwise (· < ·) :=
  List.pairwise_map.mpr (pendingScripts base html).sorted

/-! ### Stored and lost scripts -/

namespace Attempt

variable {attempts : List Attempt}

/-- The keys of the scripts that are stored. -/
def storedKeys (attempts : List Attempt) : List Text :=
  (attempts.filterMap stored?).map Prod.fst

/-- The keys of the scripts that are lost. -/
def lostKeys (attempts : List Attempt) : List Text :=
  (attempts.filterMap lost?).map Prod.fst

/-- A selection of the attempts with results of one kind, with their keys. -/
def Selects {α : Type} (select : Attempt → Option (Text × α)) (kind : α → Except ScriptLoss StoredScript) : Prop :=
  ∀ attempt key value, select attempt = some (key, value) ↔ attempt.key = key ∧ attempt.result = kind value

theorem selects_stored? : Selects stored? .ok := by
  intro attempt key stored
  unfold stored?
  split <;> simp_all

theorem selects_lost? : Selects lost? .error := by
  intro attempt key loss
  unfold lost?
  split <;> simp_all

namespace Selects

variable {α : Type} {select : Attempt → Option (Text × α)} {kind : α → Except ScriptLoss StoredScript}
  (selects : Selects select kind)

include selects

/-- The keys of selected attempts are some of those of all attempts, in the same order. -/
theorem keys_sublist (attempts : List Attempt) :
    ((attempts.filterMap select).map Prod.fst).Sublist (attempts.map Attempt.key) := by
  induction attempts with
  | nil => exact .slnil
  | cons attempt attempts ih =>
    cases selected : select attempt with
    | none =>
      rw [List.filterMap_cons_none selected]
      exact ih.cons _
    | some entry =>
      rw [List.filterMap_cons_some selected, List.map_cons, List.map_cons, ((selects _ _ _).mp selected).1]
      exact ih.cons_cons _

theorem mem_keys {key : Text} :
    key ∈ (attempts.filterMap select).map Prod.fst
      ↔ ∃ attempt ∈ attempts, attempt.key = key ∧ ∃ value, attempt.result = kind value := by
  simp only [List.mem_map, List.mem_filterMap, Prod.exists, selects _ _ _]
  constructor
  · rintro ⟨_, value, ⟨attempt, member, rfl, result⟩, rfl⟩
    exact ⟨attempt, member, rfl, value, result⟩
  · rintro ⟨attempt, member, rfl, value, result⟩
    exact ⟨_, value, ⟨attempt, member, rfl, result⟩, rfl⟩

end Selects

theorem storedKeys_sublist (attempts : List Attempt) : (storedKeys attempts).Sublist (attempts.map key) :=
  selects_stored?.keys_sublist attempts

theorem lostKeys_sublist (attempts : List Attempt) : (lostKeys attempts).Sublist (attempts.map key) :=
  selects_lost?.keys_sublist attempts

theorem mem_storedKeys {key : Text} :
    key ∈ storedKeys attempts ↔ ∃ attempt ∈ attempts, attempt.key = key ∧ ∃ stored, attempt.result = .ok stored :=
  selects_stored?.mem_keys

theorem mem_lostKeys {key : Text} :
    key ∈ lostKeys attempts ↔ ∃ attempt ∈ attempts, attempt.key = key ∧ ∃ loss, attempt.result = .error loss :=
  selects_lost?.mem_keys

/-- **Each script** is stored or lost. -/
theorem mem_keys_iff {key : Text} :
    key ∈ storedKeys attempts ∨ key ∈ lostKeys attempts ↔ key ∈ attempts.map Attempt.key := by
  rw [mem_storedKeys, mem_lostKeys, List.mem_map]
  constructor
  · rintro (⟨attempt, member, same, _⟩ | ⟨attempt, member, same, _⟩)
    · exact ⟨attempt, member, same⟩
    · exact ⟨attempt, member, same⟩
  · rintro ⟨attempt, member, same⟩
    cases result : attempt.result with
    | ok stored => exact Or.inl ⟨attempt, member, same, stored, result⟩
    | error loss => exact Or.inr ⟨attempt, member, same, loss, result⟩

/-- **No script** is stored and lost. -/
theorem keys_disjoint (distinct : (attempts.map key).Nodup) {key : Text} (isStored : key ∈ storedKeys attempts) :
    key ∉ lostKeys attempts := by
  intro isLost
  obtain ⟨attempt, member, same, stored, ok⟩ := mem_storedKeys.mp isStored
  obtain ⟨attempt', member', same', loss, error⟩ := mem_lostKeys.mp isLost
  obtain rfl := List.inj_on_of_nodup_map distinct member member' (same.trans same'.symm)
  simp [ok] at error

end Attempt

/-! ### Runs -/

section Runs

variable {place : ScriptPlace} {taken : NamesTaken} {disk disk' : Disk} {scripts : List (Text × Url)}
  {exchanges : List Exchange} {attempts : List Attempt}

/-- Each script is requested once, in turn. -/
theorem AttemptedAll.urls (all : AttemptedAll place taken disk scripts exchanges attempts disk') :
    exchanges.map Exchange.url = scripts.map Prod.snd := by
  induction all with
  | nil => rfl
  | cons first _ ih => cases first <;> exact congrArg (List.cons _) ih

/-- Each script is attempted once, in turn. -/
theorem AttemptedAll.keys (all : AttemptedAll place taken disk scripts exchanges attempts disk') :
    attempts.map Attempt.key = scripts.map Prod.fst := by
  induction all with
  | nil => rfl
  | cons first _ ih => cases first <;> exact congrArg (List.cons _) ih

/-- The keys of the scripts that are requested. -/
def requestedKeys (exchanges : List Exchange) : List Text :=
  exchanges.map fun exchange => scriptAddress exchange.url

variable {relocation : Relocation}

theorem Localized.requestedKeys_eq [InternationalNames]
    (localized : Localized base place html disk relocation exchanges disk') :
    requestedKeys exchanges = (pendingScripts base html).keys := by
  cases localized with
  | none nothing => exact (congrArg (List.map Prod.fst) nothing).symm
  | some _ _ all =>
    have own : ∀ script ∈ (pendingScripts base html).entries, scriptAddress script.2 = script.1 :=
      fun script member => (mem_pendingScripts member).1
    calc requestedKeys exchanges
        = (exchanges.map Exchange.url).map scriptAddress := by
          rw [List.map_map]
          rfl
      _ = (pendingScripts base html).entries.map (fun script => scriptAddress script.2) := by
          rw [all.urls, List.map_map]
          rfl
      _ = (pendingScripts base html).keys := List.map_congr_left own

theorem Localized.keys [InternationalNames] (localized : Localized base place html disk relocation exchanges disk') :
    relocation.attempts.map Attempt.key = (pendingScripts base html).keys := by
  cases localized with
  | none nothing => exact (congrArg (List.map Prod.fst) nothing).symm
  | some _ _ all => exact all.keys

/-- Each script is requested once. -/
theorem Localized.nodup_requestedKeys [InternationalNames]
    (localized : Localized base place html disk relocation exchanges disk') :
    (requestedKeys exchanges).Nodup := by
  rw [localized.requestedKeys_eq]
  exact sorted_keys_pendingScripts.imp OrderedMap.ne_of_lt

/-- Each script is attempted once. -/
theorem Localized.nodup_keys [InternationalNames]
    (localized : Localized base place html disk relocation exchanges disk') :
    (relocation.attempts.map Attempt.key).Nodup := by
  rw [localized.keys]
  exact sorted_keys_pendingScripts.imp OrderedMap.ne_of_lt

theorem Localized.isHttp [InternationalNames] (localized : Localized base place html disk relocation exchanges disk') :
    ∀ exchange ∈ exchanges, exchange.url.isHttp = true := by
  cases localized with
  | none => exact fun exchange member => absurd member List.not_mem_nil
  | some _ _ all =>
    intro exchange member
    have requested := List.mem_map_of_mem (f := Exchange.url) member
    rw [all.urls] at requested
    obtain ⟨script, inPending, same⟩ := List.mem_map.mp requested
    exact same ▸ (mem_pendingScripts inPending).2

/-- Strictly increasing byte by byte. -/
def BytesIncrease (keys : List Text) : Prop :=
  keys.Pairwise fun a b => Utf8.encode a < Utf8.encode b

theorem bytesIncrease_of_sublist {keys keys' : List Text} (sublist : keys.Sublist keys')
    (sorted : keys'.Pairwise (· < ·)) : BytesIncrease keys :=
  (sorted.sublist sublist).imp Utf8.encode_lt_encode

/-- What is known of the requests and the results of a run. -/
structure Accounted [InternationalNames] (base : Option Url) (html : Text) (disk : Disk) (relocation : Relocation)
    (exchanges : List Exchange) (disk' : Disk) : Prop where
  /-- Requests are sent for the scripts of the document, -/
  requested : ∀ key, key ∈ requestedKeys exchanges ↔ IsScriptKey base html key
  /-- for each one once, in order, -/
  inOrder : BytesIncrease (requestedKeys exchanges)
  /-- under addresses of resources that can be fetched. -/
  fetchable : ∀ exchange ∈ exchanges, exchange.url.isHttp = true
  storedInOrder : BytesIncrease (relocation.stored.map Prod.fst)
  lostInOrder : BytesIncrease (relocation.lost.map Prod.fst)
  disjoint : ∀ key ∈ relocation.stored.map Prod.fst, key ∉ relocation.lost.map Prod.fst
  /-- The scripts that are stored and those that are lost are all scripts. -/
  together : ∀ key, key ∈ relocation.stored.map Prod.fst ∨ key ∈ relocation.lost.map Prod.fst
    ↔ IsScriptKey base html key
  skipped : relocation.skipped.length = (scriptReferences html).countP fun reference => (resolve? base reference).isNone
  /-- Without scripts nothing is done. -/
  nothing : (∀ key, ¬ IsScriptKey base html key) → exchanges = [] ∧ disk' = disk ∧ relocation.html = html

theorem Localized.accounted [InternationalNames]
    (localized : Localized base place html disk relocation exchanges disk') :
    Accounted base html disk relocation exchanges disk' := by
  have sorted : (pendingScripts base html).keys.Pairwise (· < ·) := sorted_keys_pendingScripts
  have keys := localized.keys
  refine
    { requested := fun key => ?_
      inOrder := ?_
      fetchable := localized.isHttp
      storedInOrder := bytesIncrease_of_sublist (Attempt.storedKeys_sublist _) (keys ▸ sorted)
      lostInOrder := bytesIncrease_of_sublist (Attempt.lostKeys_sublist _) (keys ▸ sorted)
      disjoint := fun key => Attempt.keys_disjoint localized.nodup_keys
      together := fun key => ?_
      skipped := ?_
      nothing := fun noKey => ?_ }
  · rw [localized.requestedKeys_eq, mem_keys_pendingScripts]
  · exact bytesIncrease_of_sublist (List.Sublist.refl _) (localized.requestedKeys_eq ▸ sorted)
  · exact Attempt.mem_keys_iff.trans (keys ▸ mem_keys_pendingScripts)
  · have same : relocation.skipped = skippedReferences base html := by cases localized <;> rfl
    rw [same, List.countP_eq_length_filter]
    rfl
  · cases localized with
    | none => exact ⟨rfl, rfl, rfl⟩
    | some something => exact absurd (pendingScripts_eq_nil_iff.mpr noKey) something

end Runs

/-- **Every script is accounted for**, whatever is answered and refused. Removing an unfinished file is assumed not to
be refused. -/
theorem localizeScriptsBy_accounted [InternationalNames] {surroundings : Surroundings} {place : ScriptPlace}
    {disk : Disk} {relocation : Relocation} {world : World}
    (ran : (localizeScriptsBy surroundings.ask base place html : Amid surroundings _) { disk }
      = (.ok relocation, world)) :
    Accounted base html disk relocation world.exchanges world.disk := by
  obtain ⟨exchanges, recorded, localized⟩ := localizeScriptsBy_localized ran
  rw [recorded, List.nil_append]
  exact localized.accounted

/-- It is so where two scripts are stored, one is not found, one cannot be stored and one is inline. -/
theorem localizeScriptsBy_accounted_fiveScripts :
    ∃ relocation world, fiveScriptsRun = (.ok relocation, world) ∧ relocation.stored = fiveScriptsStored
      ∧ Accounted none fiveScripts {} relocation world.exchanges world.disk := by
  obtain ⟨relocation, world, ran, stored, _⟩ := fiveScriptsRun_ok
  exact ⟨relocation, world, ran, stored, localizeScriptsBy_accounted ran⟩

end Relabel
