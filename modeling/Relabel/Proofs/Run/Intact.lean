/-
**The output is written in full, or up to a file.**

If the system leaves a file as it was that it refuses to write, no file is ever seen in part. Output whose names
clash is rejected before anything is touched. Otherwise the files are written in turn, and what is written stays:
different names are different places, so no file of the output is lost to another one. What is not written is as
before.

* `Preserving`: computations where a file that is refused stays as it was.
* `WrittenFirst`: the first ones of some files have been written.
* `writeOutput_cases`: the output is rejected, or its first files are written.
* `OutputIntact`: what is known of the output at the end.
* `writeOutput_intact`: it is so whatever is refused.
-/

import Relabel.Proofs.Run.Kept

namespace Relabel

variable {surroundings : Surroundings} {disk disk' : Disk} {files done : List (Text × Text)} {places : List Location}
  {written : Written} {directory : Text} {names : OutputNames} {outcome : Outcome}

/-! ### Files that stay as they were -/

/-- Computations in surroundings where a file that is refused stays as it was. -/
def Preserving (surroundings : Surroundings) (α : Type) : Type :=
  Amid surroundings α

/-- The operations on files are those in the surroundings, but for the files that are refused. -/
instance (surroundings : Surroundings) : FileSystem (Preserving surroundings) :=
  { (inferInstance : FileSystem (Amid surroundings)) with
    writeFile := fun path content => surroundings.operate (fun _ disk => disk) (·.write path content) }

theorem Preserving.bind_apply {α β : Type} (computation : Preserving surroundings α)
    (next : α → Preserving surroundings β) (world : World) :
    (computation >>= next) world = next (computation world).1 (computation world).2 := rfl

theorem Preserving.bind_eq {α β : Type} {computation : Preserving surroundings α}
    {next : α → Preserving surroundings β} {world world' : World} {result : β}
    (ran : (computation >>= next) world = (result, world')) :
    ∃ a middle, computation world = (a, middle) ∧ next a middle = (result, world') :=
  ⟨_, _, rfl, ran⟩

/-- A file is written, or it stays as it was. -/
theorem writeFile_preserving {path : Text} {content : Bytes} {world world' : World} {result : Except FileError Unit}
    (ran : (writeFile path content : Preserving surroundings _) world = (result, world')) :
    Settles world result world' (· = world.disk) fun _ disk =>
      ∃ place, world.disk.writable path = .ok place ∧ disk = world.disk.put place (.file content) := by
  obtain ⟨exchanges, ⟨error, failed, ⟨_, same⟩ | ⟨_, same⟩⟩ | done⟩ :=
    operate_settles (Disk.writable · path) (fun _ => rfl) ran
  · exact ⟨exchanges, Or.inl ⟨error, failed, same⟩⟩
  · exact ⟨exchanges, Or.inl ⟨error, failed, same⟩⟩
  · exact ⟨exchanges, Or.inr done⟩

/-- Directories are made in the same way, for that writes no file. The induction is on the directories. -/
theorem makeDirectoriesFrom_preserving (paths : List Text) (world : World) :
    (makeDirectoriesFrom paths : Preserving surroundings _) world
      = (makeDirectoriesFrom paths : Amid surroundings _) world := by
  induction paths generalizing world with
  | nil => rfl
  | cons path above ih =>
    have tried : (makeDirectory path : Preserving surroundings _) world
        = (makeDirectory path : Amid surroundings _) world := rfl
    unfold makeDirectoriesFrom
    simp only [Preserving.bind_apply, Amid.bind_apply, tried]
    rcases (makeDirectory path : Amid surroundings _) world with ⟨error | _, middle⟩
    · by_cases missing : error = .notFound
      · simp only [if_pos missing, Preserving.bind_apply, Amid.bind_apply, ih]
        rcases (makeDirectoriesFrom above : Amid surroundings _) middle with ⟨_ | _, later⟩ <;> rfl
      · simp only [if_neg missing]
        rfl
    · rfl

theorem makeDirectories_preserving (path : Text) (world : World) :
    (makeDirectories path : Preserving surroundings _) world = (makeDirectories path : Amid surroundings _) world :=
  makeDirectoriesFrom_preserving _ _

/-! ### Files in turn -/

/-- The first ones of some files have been written, and all of them if nothing failed. -/
structure WrittenFirst (disk : Disk) (files : List (Text × Text)) (written : Written) (done : List (Text × Text))
    (places : List Location) (disk' : Disk) : Prop where
  all : WrittenAll disk done places disk'
  first : done <+: files
  paths : written.paths = done.map Prod.fst
  ended : written.failure = none → done = files
  refused : ∀ failure, written.failure = some failure → failure.kind = .io

theorem WrittenFirst.none {failure : Failure} (files : List (Text × Text)) (refused : failure.kind = .io) :
    WrittenFirst disk files ⟨[], some failure⟩ [] [] disk :=
  ⟨.nil, List.nil_prefix, rfl, nofun, fun _ same => Option.some.inj same ▸ refused⟩

theorem WrittenFirst.cons {path text : Text} {place : Location} (writable : disk.writable path = .ok place)
    (others : WrittenFirst (disk.put place (.file (Utf8.encode text))) files written done places disk') :
    WrittenFirst disk ((path, text) :: files) ⟨path :: written.paths, written.failure⟩ ((path, text) :: done)
      (place :: places) disk' where
  all := .cons writable others.all
  first := (List.prefix_cons_inj _).mpr others.first
  paths := congrArg (path :: ·) others.paths
  ended succeeded := congrArg ((path, text) :: ·) (others.ended succeeded)
  refused := others.refused

/-- **Files are written in turn**, up to the first that is refused. The induction is on the files. -/
theorem writeAll_first {world world' : World}
    (ran : (writeAll files : Preserving surroundings _) world = (written, world')) :
    ∃ done places, WrittenFirst world.disk files written done places world'.disk := by
  induction files generalizing world written with
  | nil =>
    obtain ⟨rfl, rfl⟩ := Prod.mk.inj ran
    exact ⟨[], [], .nil, List.nil_prefix, rfl, fun _ => rfl, nofun⟩
  | cons file files ih =>
    obtain ⟨path, text⟩ := file
    unfold writeAll at ran
    obtain ⟨result, middle, wrote, ran⟩ := Preserving.bind_eq ran
    obtain ⟨_, ⟨error, rfl, same⟩ | ⟨_, rfl, place, writable, same⟩⟩ := writeFile_preserving wrote
    · obtain ⟨rfl, rfl⟩ := Prod.mk.inj ran
      exact ⟨[], [], same ▸ .none _ rfl⟩
    · obtain ⟨others, last, later, ran⟩ := Preserving.bind_eq ran
      obtain ⟨rfl, rfl⟩ := Prod.mk.inj ran
      obtain ⟨done, places, first⟩ := ih later
      rw [same] at first
      exact ⟨_, _, first.cons writable⟩

/-! ### The output -/

/-- Two of the files of the output would have the same name, up to the case of ASCII letters. -/
def NamesClash (names : OutputNames) : Prop :=
  isSameName names.html names.css = true ∨ isSameName names.html mappingName = true
    ∨ isSameName names.css mappingName = true

theorem isSameName_comm (a b : Text) : isSameName a b = isSameName b a :=
  decide_eq_decide.mpr eq_comm

theorem nameClash?_eq_none_iff : nameClash? names = none ↔ ¬ NamesClash names := by
  unfold nameClash? NamesClash
  split
  next same => simp [same]
  next different => simp [different, isSameName_comm mappingName]

/-- **Writing the output** is rejected because of its names, or its directory is made as far as possible and its
first files are written. -/
theorem writeOutput_cases {world world' : World}
    (ran : (writeOutput directory names outcome : Preserving surroundings _) world = (written, world')) :
    (NamesClash names ∧ (∃ name, written = ⟨[], some (.nameClash name)⟩) ∧ world' = world)
      ∨ ¬ NamesClash names ∧ ∃ middle done places, Made (ancestors directory) world.disk middle
          ∧ WrittenFirst middle (outputFiles (outputPaths directory names) outcome) written done places world'.disk := by
  unfold writeOutput at ran
  cases clash : nameClash? names with
  | some name =>
    rw [clash] at ran
    obtain ⟨rfl, rfl⟩ := Prod.mk.inj ran
    have clashes : NamesClash names := by
      by_contra apart
      exact absurd ((nameClash?_eq_none_iff.mpr apart).symm.trans clash) nofun
    exact Or.inl ⟨clashes, ⟨name, rfl⟩, rfl⟩
  | none =>
    rw [clash] at ran
    refine Or.inr ⟨nameClash?_eq_none_iff.mp clash, ?_⟩
    obtain ⟨result, middle, tried, ran⟩ := Preserving.bind_eq ran
    rw [makeDirectories_preserving] at tried
    obtain ⟨_, made⟩ := makeDirectories_made tried
    cases result with
    | error error =>
      obtain ⟨rfl, rfl⟩ := Prod.mk.inj ran
      exact ⟨_, [], [], made, .none _ rfl⟩
    | ok _ =>
      obtain ⟨done, places, first⟩ := writeAll_first ran
      exact ⟨_, done, places, made, first⟩

/-- What is known of the output at the end. -/
structure OutputIntact (directory : Text) (names : OutputNames) (outcome : Outcome) (disk : Disk) (written : Written)
    (disk' : Disk) : Prop where
  /-- Names that clash are rejected, and nothing is touched. -/
  rejected : NamesClash names → disk' = disk ∧ ∃ failure, written = ⟨[], some failure⟩ ∧ failure.kind = .invalidOption
  /-- Any other failure is one of the system. -/
  refused : ¬ NamesClash names → ∀ failure, written.failure = some failure → failure.kind = .io
  /-- The files that have been written are the first ones of the output, and all if nothing failed. Each of them
  holds its text. -/
  complete : ∃ done, done <+: outputFiles (outputPaths directory names) outcome
    ∧ (written.failure = none → done = outputFiles (outputPaths directory names) outcome)
    ∧ written.paths = done.map Prod.fst ∧ ∀ file ∈ done, disk'.read file.1 = .ok (Utf8.encode file.2)
  /-- Their paths are different, and lead to different places. -/
  apart : written.paths.Pairwise fun path path' =>
    path ≠ path' ∧ ∀ place, disk'.LeadsTo path place → ¬ disk'.LeadsTo path' place
  /-- Every other file is as before. -/
  frame : ∀ place, (∀ path ∈ written.paths, ¬ disk'.LeadsTo path place) → disk.SameFileAt disk' place

/-- **Output that is written** up to a file is intact. -/
theorem WrittenFirst.outputIntact {middle : Disk} (whole : ∀ file ∈ namedFiles names outcome, '/' ∉ file.1)
    (noClash : ¬ NamesClash names) (made : Made (ancestors directory) disk middle)
    (first : WrittenFirst middle (outputFiles (outputPaths directory names) outcome) written done places disk') :
    OutputIntact directory names outcome disk written disk' := by
  have all := first.all
  obtain ⟨rest, split⟩ := first.first
  obtain ⟨named, others, together, rfl, _⟩ := List.map_eq_append_iff.mp (split.trans (outputFiles_eq _ _ _)).symm
  have distinct : (named.map Prod.fst).Nodup := by
    have apart : ((namedFiles names outcome).map Prod.fst).Nodup := names_apart (nameClash?_eq_none_iff.mpr noClash)
    rw [together, List.map_append] at apart
    exact (List.nodup_append.mp apart).1
  obtain ⟨placesApart, texts⟩ := all.complete_named
    (fun file member => whole file (together ▸ List.mem_append_left others member)) distinct
  have located := all.leadsTo
  refine
    { rejected := fun clash => absurd clash noClash
      refused := fun _ => first.refused
      complete := ⟨_, first.first, first.ended, first.paths, List.forall_mem_map.mpr texts⟩
      apart := first.paths ▸ paths_apart located placesApart
      frame := fun place free => ?_ }
  have outside : place ∉ places := by
    intro member
    obtain ⟨path, inPaths, leads⟩ := exists_path_of_place located member
    exact free path (first.paths ▸ inPaths) leads
  intro content
  rw [all.frame outside]
  exact made.sameFileAt place content

/-- **The output is written in full, or up to a file**, and no file is lost or seen in part. -/
theorem writeOutput_intact {world world' : World} (whole : '/' ∉ names.html ∧ '/' ∉ names.css)
    (ran : (writeOutput directory names outcome : Preserving surroundings _) world = (written, world')) :
    OutputIntact directory names outcome world.disk written world'.disk := by
  obtain ⟨clash, ⟨name, rfl⟩, rfl⟩ | ⟨noClash, middle, done, places, made, first⟩ := writeOutput_cases ran
  · exact
      { rejected := fun _ => ⟨rfl, _, rfl, rfl⟩
        refused := fun noClash => absurd clash noClash
        complete := ⟨[], List.nil_prefix, nofun, rfl, fun _ absent => absurd absent List.not_mem_nil⟩
        apart := .nil
        frame := fun _ _ _ => Iff.rfl }
  · exact first.outputIntact (namedFiles_whole whole) noClash made

/-- Surroundings in which the third operation on files is refused. -/
def interruptingSurroundings : Surroundings :=
  { calmSurroundings with refusal := fun operation => if operation = 2 then some { error := .numbered 28 } else none }

/-- The output of a run with an empty paragraph. -/
def paragraphOutcome : Outcome :=
  processed {} ⟨"<p>", []⟩

/-- A disk on which the directory of the output holds a stylesheet. -/
def styledDisk : Disk :=
  ({} : Disk).place "out/style.css" (.file [46])

/-- This output is written to this disk. -/
def interruptedOutput : Written × World :=
  (writeOutput "out" mappedNames paragraphOutcome : Preserving interruptingSurroundings _) { disk := styledDisk }

/-- It is so where the first file is written and the second one is refused. -/
theorem writeOutput_intact_interrupted :
    ('/' ∉ mappedNames.html ∧ '/' ∉ mappedNames.css)
      ∧ interruptedOutput.1.paths = ["out/index.html".toList]
      ∧ interruptedOutput.1.failure.map Failure.kind = some .io
      ∧ interruptedOutput.2.disk.read "out/style.css" = .ok [46]
      ∧ OutputIntact "out" mappedNames paragraphOutcome styledDisk interruptedOutput.1 interruptedOutput.2.disk := by
  have whole : '/' ∉ mappedNames.html ∧ '/' ∉ mappedNames.css := by decide
  exact ⟨whole, by decide +kernel, by decide +kernel, by decide +kernel,
    writeOutput_intact whole (Prod.mk.eta (p := interruptedOutput)).symm⟩

end Relabel
