/-
**Copies of scripts are complete and apart.**

A script is stored under a name that was not handed out before, so no copy takes the place of another one. The
copy is as complete at the end of a run as it was when it was stored, and what is at other places than those of
the copies has not changed, except that directories for the copies are new.

* `Attempted.cases`: what becomes of one script, and what of the names and the disk.
* `AttemptedAll.names_fresh`, `AttemptedAll.paths_apart`: the names of copies are new, and differ.
* `AttemptedAll.read_kept`: a copy that is there is kept.
* `AttemptedAll.complete`, `AttemptedAll.frame`: the copies of all scripts, and everything else.
* `localizeScriptsBy_storedApart`: the files that a run leaves behind.
-/

import Relabel.Proofs.Script.Accounted

namespace Relabel

variable {place : ScriptPlace} {taken taken' : NamesTaken} {disk disk' : Disk} {key : Text} {url : Url}
  {exchange : Exchange} {attempt : Attempt} {scripts : List (Text × Url)} {exchanges : List Exchange}
  {attempts : List Attempt}

/-! ### References without case -/

/-- A text whose capital letters of ASCII are made small. -/
def small (text : Text) : Text :=
  text.map Char.toLower

/-- What the references to all files in a directory begin with. -/
theorem exists_referenceTo (directory : Text) : ∃ start, ∀ name, referenceTo directory name = start ++ name := by
  unfold referenceTo
  cases bareDirectory directory with
  | nil => exact ⟨[], fun _ => rfl⟩
  | cons c rest => exact ⟨c :: rest ++ ['/'], fun _ => rfl⟩

theorem referenceTo_injective {directory first second : Text}
    (same : referenceTo directory first = referenceTo directory second) : first = second := by
  obtain ⟨start, parts⟩ := exists_referenceTo directory
  rw [parts, parts] at same
  exact List.append_cancel_left same

theorem small_of_small_referenceTo {directory first second : Text}
    (same : small (referenceTo directory first) = small (referenceTo directory second)) : small first = small second := by
  obtain ⟨start, parts⟩ := exists_referenceTo directory
  unfold small at same
  rw [parts, parts, List.map_append, List.map_append] at same
  exact List.append_cancel_left same

theorem NamesTaken.lowered_add {name : Text} (isPlain : PlainName name) (taken : NamesTaken) :
    (taken.add name).lowered = small name :: taken.lowered := by
  unfold add
  rw [isPlain.lowerCase]
  rfl

/-! ### One script -/

/-- **What becomes of one script**: it is not stored, or there is a copy of what the server has answered, under a
new name. -/
theorem Attempted.cases (attempted : Attempted place taken disk key url exchange attempt taken' disk') :
    (attempt.stored? = none ∧ taken.lowered ⊆ taken'.lowered ∧ disk' = disk)
      ∨ ∃ name content location, PlainName name ∧ small name ∉ taken.lowered
          ∧ taken'.lowered = small name :: taken.lowered
          ∧ attempt.stored? = some (key, ⟨referenceTo place.directory name, content.length⟩)
          ∧ exchange = ⟨url, .ok content⟩
          ∧ disk.writable (joinPath place.path name) = .ok location
          ∧ disk' = disk.put location (.file content) := by
  obtain ⟨isPlain, fresh⟩ := taken.choose_fresh (plainName_scriptName url)
  cases attempted with
  | notFetched => exact Or.inl ⟨rfl, fun _ member => member, rfl⟩
  | notStored _ name _ chosen =>
    subst chosen
    exact Or.inl ⟨rfl, NamesTaken.lowered_add isPlain taken ▸ List.subset_cons_self _ _, rfl⟩
  | stored content name location chosen writable =>
    subst chosen
    exact Or.inr ⟨_, content, location, isPlain, fresh, NamesTaken.lowered_add isPlain taken, rfl, rfl, writable, rfl⟩

theorem Attempted.lowered_subset (attempted : Attempted place taken disk key url exchange attempt taken' disk') :
    taken.lowered ⊆ taken'.lowered := by
  obtain ⟨_, subset, _⟩ | ⟨_, _, _, _, _, more, _⟩ := attempted.cases
  · exact subset
  · exact more ▸ List.subset_cons_self _ _

theorem Attempted.keepsDirectories (attempted : Attempted place taken disk key url exchange attempt taken' disk') :
    disk.KeepsDirectories disk' := by
  obtain ⟨_, _, rfl⟩ | ⟨_, _, _, _, _, _, _, _, writable, rfl⟩ := attempted.cases
  · exact .refl _
  · exact Disk.keepsDirectories_put (Disk.free_of_writable writable)

/-- A copy that is there is kept when one more script is attempted. -/
theorem Attempted.read_kept {name : Text} {content : Bytes} (isPlain : PlainName name)
    (attempted : Attempted place taken disk key url exchange attempt taken' disk') (old : small name ∈ taken.lowered)
    (read : disk.read (joinPath place.path name) = .ok content) :
    disk'.read (joinPath place.path name) = .ok content := by
  obtain ⟨_, _, rfl⟩ | ⟨name', _, _, isPlain', fresh, _, _, _, writable, rfl⟩ := attempted.cases
  · exact read
  · have different : name ≠ name' := fun same => fresh (same ▸ old)
    obtain ⟨target, located, _⟩ := Disk.read_eq_ok_iff.mp read
    have free := Disk.free_of_writable writable
    obtain ⟨target', located', _, _, _, _, rfl⟩ := Disk.writable_eq_ok_iff.mp writable
    exact Disk.read_put_of_ne free located
      (Disk.place_ne_of_name_ne isPlain isPlain' located located' different) read

/-! ### All scripts -/

namespace AttemptedAll

theorem keepsDirectories (all : AttemptedAll place taken disk scripts exchanges attempts disk') :
    disk.KeepsDirectories disk' := by
  induction all with
  | nil => exact .refl _
  | cons first _ ih => exact first.keepsDirectories.trans ih

/-- **A copy that is there** is kept. The induction is on the scripts that follow. -/
theorem read_kept {name : Text} {content : Bytes} (isPlain : PlainName name)
    (all : AttemptedAll place taken disk scripts exchanges attempts disk') (old : small name ∈ taken.lowered)
    (read : disk.read (joinPath place.path name) = .ok content) :
    disk'.read (joinPath place.path name) = .ok content := by
  induction all with
  | nil => exact read
  | cons first _ ih => exact ih (first.lowered_subset old) (first.read_kept isPlain old read)

/-- The scripts that are stored, one and others. -/
theorem stored_cons (attempt : Attempt) (attempts : List Attempt) :
    (attempt :: attempts).filterMap Attempt.stored? = attempt.stored?.toList ++ attempts.filterMap Attempt.stored? := by
  rw [List.filterMap_cons]
  cases attempt.stored? <;> rfl

/-- **The names of copies** are plain ones that were not taken before. -/
theorem names_fresh (all : AttemptedAll place taken disk scripts exchanges attempts disk') :
    ∀ entry ∈ attempts.filterMap Attempt.stored?,
      ∃ name, PlainName name ∧ entry.2.path = referenceTo place.directory name ∧ small name ∉ taken.lowered := by
  induction all with
  | nil => exact fun _ absent => absurd absent List.not_mem_nil
  | cons first _ ih =>
    intro entry member
    rw [stored_cons, List.mem_append, Option.mem_toList] at member
    rcases member with own | later
    · obtain ⟨none, _⟩ | ⟨name, _, _, isPlain, fresh, _, stored, _⟩ := first.cases
      · exact absurd (none.symm.trans own) nofun
      · obtain rfl := Option.some.inj (own.symm.trans stored)
        exact ⟨name, isPlain, rfl, fresh⟩
    · obtain ⟨name, isPlain, path, fresh⟩ := ih entry later
      exact ⟨name, isPlain, path, fun old => fresh (first.lowered_subset old)⟩

/-- **The paths of copies** differ, also without case. -/
theorem paths_apart (all : AttemptedAll place taken disk scripts exchanges attempts disk') :
    ((attempts.filterMap Attempt.stored?).map fun entry => small entry.2.path).Nodup := by
  induction all with
  | nil => exact List.nodup_nil
  | cons first others ih =>
    rw [stored_cons]
    obtain ⟨none, _⟩ | ⟨name, _, _, _, _, more, stored, _⟩ := first.cases
    · rw [none]
      exact ih
    · rw [stored]
      refine List.nodup_cons.mpr ⟨fun again => ?_, ih⟩
      obtain ⟨entry, later, same⟩ := List.mem_map.mp again
      obtain ⟨name', _, path, fresh⟩ := others.names_fresh entry later
      rw [path] at same
      exact fresh (more ▸ small_of_small_referenceTo same ▸ List.mem_cons_self)

/-- **The copies are complete.** Each one holds what the server has answered for its script. -/
theorem complete (all : AttemptedAll place taken disk scripts exchanges attempts disk') :
    ∀ entry ∈ attempts.filterMap Attempt.stored?,
      ∃ url content, (entry.1, url) ∈ scripts ∧ ⟨url, .ok content⟩ ∈ exchanges
        ∧ disk'.read (joinPath place.output entry.2.path) = .ok content ∧ entry.2.size = content.length := by
  induction all with
  | nil => exact fun _ absent => absurd absent List.not_mem_nil
  | cons first others ih =>
    intro entry member
    rw [stored_cons, List.mem_append, Option.mem_toList] at member
    rcases member with own | later
    · obtain ⟨none, _⟩ | ⟨name, content, _, isPlain, _, more, stored, rfl, writable, rfl⟩ := first.cases
      · exact absurd (none.symm.trans own) nofun
      · obtain rfl := Option.some.inj (own.symm.trans stored)
        refine ⟨_, content, List.mem_cons_self, List.mem_cons_self, ?_, rfl⟩
        rw [← place.joinPath_path isPlain.relative]
        exact others.read_kept isPlain (more ▸ List.mem_cons_self) (Disk.read_put writable)
    · obtain ⟨url, content, script, answered, facts⟩ := ih entry later
      exact ⟨url, content, List.mem_cons_of_mem _ script, List.mem_cons_of_mem _ answered, facts⟩

/-- **Nothing else changes** than what is at the places of copies. -/
theorem frame (all : AttemptedAll place taken disk scripts exchanges attempts disk') (location : Location) :
    disk'.at? location = disk.at? location
      ∨ ∃ entry ∈ attempts.filterMap Attempt.stored?, disk'.LeadsTo (joinPath place.output entry.2.path) location := by
  induction all with
  | nil => exact Or.inl rfl
  | cons first others ih =>
    rw [stored_cons]
    rcases ih with same | ⟨entry, later, leads⟩
    · obtain ⟨_, _, rfl⟩ | ⟨name, content, location', isPlain, _, _, stored, rfl, writable, rfl⟩ := first.cases
      · exact Or.inl same
      · have free := Disk.free_of_writable writable
        by_cases own : location = location'
        · subst own
          right
          refine ⟨_, List.mem_append_left _ (Option.mem_toList.mpr stored), ?_⟩
          obtain ⟨target, located, _, _, _, _, leads⟩ := Disk.writable_eq_ok_iff.mp writable
          rw [← place.joinPath_path isPlain.relative]
          exact Disk.LeadsTo.mono ((Disk.keepsDirectories_put free).trans others.keepsDirectories)
            ⟨target, located, leads⟩
        · left
          rw [same, Disk.at?_put free, if_neg own]
    · exact Or.inr ⟨entry, List.mem_append_right _ later, leads⟩

end AttemptedAll

/-! ### Runs -/

/-- What is known of the files that a run leaves behind. -/
structure StoredApart (place : ScriptPlace) (disk : Disk) (relocation : Relocation) (exchanges : List Exchange)
    (disk' : Disk) : Prop where
  /-- Each copy holds what the one request for its script was answered. -/
  complete : ∀ key stored, (key, stored) ∈ relocation.stored → ∃ url content,
    exchanges.filter (fun exchange => scriptAddress exchange.url = key) = [⟨url, .ok content⟩]
      ∧ disk'.read (joinPath place.output stored.path) = .ok content ∧ stored.size = content.length
  /-- The paths of copies differ, also without case. -/
  apart : (relocation.stored.map fun entry => small entry.2.path).Nodup
  /-- Nothing else changes, but directories for the copies may be new. -/
  frame : ∀ location, disk'.at? location = disk.at? location
    ∨ (∃ entry ∈ relocation.stored, disk'.LeadsTo (joinPath place.output entry.2.path) location)
    ∨ (disk.at? location = none ∧ disk'.at? location = some .directory
        ∧ ∃ path ∈ ancestors place.path, disk'.LeadsTo path location)

/-- The one request for a key is found. The induction is on the requests. -/
theorem filter_requested {exchange : Exchange} (distinct : (requestedKeys exchanges).Nodup)
    (member : exchange ∈ exchanges) :
    exchanges.filter (fun other => scriptAddress other.url = scriptAddress exchange.url) = [exchange] := by
  induction exchanges with
  | nil => exact absurd member List.not_mem_nil
  | cons first exchanges ih =>
    obtain ⟨new, distinct⟩ := List.nodup_cons.mp distinct
    rcases List.mem_cons.mp member with rfl | later
    · rw [List.filter_cons_of_pos (by simp), List.filter_eq_nil_iff.mpr]
      intro other inOthers same
      exact new (List.mem_map.mpr ⟨other, inOthers, of_decide_eq_true same⟩)
    · have different : scriptAddress first.url ≠ scriptAddress exchange.url :=
        fun same => new (List.mem_map.mpr ⟨exchange, later, same.symm⟩)
      rw [List.filter_cons_of_neg (by simpa using different), ih distinct later]

/-- The copies of a run have plain names. -/
theorem Localized.plainNames [InternationalNames] {base : Option Url} {html : Text} {relocation : Relocation}
    (localized : Localized base place html disk relocation exchanges disk') :
    ∀ entry ∈ relocation.stored, ∃ name, PlainName name ∧ entry.2.path = referenceTo place.directory name := by
  cases localized with
  | none => exact fun _ absent => absurd absent List.not_mem_nil
  | some _ _ all =>
    intro entry member
    obtain ⟨name, isPlain, path, _⟩ := all.names_fresh entry member
    exact ⟨name, isPlain, path⟩

theorem Localized.storedApart [InternationalNames] {base : Option Url} {html : Text} {relocation : Relocation}
    (localized : Localized base place html disk relocation exchanges disk') :
    StoredApart place disk relocation exchanges disk' := by
  have distinct := localized.nodup_requestedKeys
  cases localized with
  | none =>
    exact
      { complete := fun _ _ absent => absurd absent List.not_mem_nil
        apart := List.nodup_nil
        frame := fun _ => Or.inl rfl }
  | some _ made all =>
    refine { complete := fun key stored member => ?_, apart := all.paths_apart, frame := fun location => ?_ }
    · obtain ⟨url, content, script, answered, facts⟩ := all.complete _ member
      obtain rfl := (mem_pendingScripts script).1
      exact ⟨url, content, filter_requested distinct answered, facts⟩
    · rcases all.frame location with same | copy
      · rcases made.same location with same' | ⟨vacant, isDirectory, path, ancestor, leads⟩
        · exact Or.inl (same.trans same')
        · exact Or.inr (Or.inr ⟨vacant, same.trans isDirectory, path, ancestor, leads.mono all.keepsDirectories⟩)
      · exact Or.inr (Or.inl copy)

/-- **The copies of scripts are complete and apart**, and nothing else changes, whatever is answered and refused. It is
assumed that removing an unfinished file is not refused: one that stays would be a change. -/
theorem localizeScriptsBy_storedApart [InternationalNames] {surroundings : Surroundings} {base : Option Url}
    {html : Text} {relocation : Relocation} {world : World}
    (ran : (localizeScriptsBy surroundings.ask base place html : Amid surroundings _) { disk }
      = (.ok relocation, world)) :
    StoredApart place disk relocation world.exchanges world.disk := by
  obtain ⟨exchanges, recorded, localized⟩ := localizeScriptsBy_localized ran
  rw [recorded, List.nil_append]
  exact localized.storedApart

/-- It is so where two scripts are stored whose names differ in case only, and others are not. -/
theorem localizeScriptsBy_storedApart_fiveScripts :
    ∃ relocation world, fiveScriptsRun = (.ok relocation, world) ∧ relocation.stored = fiveScriptsStored
      ∧ StoredApart ⟨"out", "js"⟩ {} relocation world.exchanges world.disk := by
  obtain ⟨relocation, world, ran, stored, _⟩ := fiveScriptsRun_ok
  exact ⟨relocation, world, ran, stored, localizeScriptsBy_storedApart ran⟩

end Relabel
