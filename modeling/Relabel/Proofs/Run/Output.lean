/-
**Writing the output.**

The files of the output are written one after the other, each in place of what was there, up to the first that
cannot be written. Files at different places do not disturb each other: each one holds its text in the end, and
what is at other places stays.

* `Writing`: what writing files in turn may do to a disk, and how it ends.
* `WrittenAll`: all files have been written, each at its place.
* `OutputWritten`: what writing the output may do.
* `writeOutput_written`: it does nothing else, whatever is refused.
* `WrittenAll.leadsTo`, `paths_apart`: the paths of files lead to their places.
* `WrittenAll.places_eq`: where the files of a directory are written.
* `WrittenAll.complete_named`: files of different names hold their texts.
-/

import Relabel.Document.Write
import Relabel.Proofs.Files.Paths
import Relabel.Proofs.Script.Surroundings

namespace Relabel

variable {surroundings : Surroundings} {disk disk' : Disk} {files : List (Text × Text)} {places : List Location}
  {written : Written} {directory : Text} {names : OutputNames} {outcome : Outcome}

/-! ### Files in turn -/

/-- What writing files in turn may do: it stops at one that cannot be written, which may hold a part of its text
then, or it comes to the end. -/
inductive Writing : Disk → List (Text × Text) → Written → Disk → Prop
  | nil {disk : Disk} : Writing disk [] ⟨[], none⟩ disk
  | refused {disk : Disk} {path text : Text} {files : List (Text × Text)} (error : FileError) (begun : Bytes) :
      Writing disk ((path, text) :: files) ⟨[], some (.unwritable path error)⟩ (disk.write path begun).2
  | cons {disk disk' : Disk} {path text : Text} {files : List (Text × Text)} {place : Location} {written : Written}
      (writable : disk.writable path = .ok place)
      (others : Writing (disk.put place (.file (Utf8.encode text))) files written disk') :
      Writing disk ((path, text) :: files) ⟨path :: written.paths, written.failure⟩ disk'

/-- **Files are written in turn.** The induction is on the files. -/
theorem writeAll_writing {world world' : World}
    (ran : (writeAll files : Amid surroundings _) world = (written, world')) :
    world'.exchanges = world.exchanges ∧ Writing world.disk files written world'.disk := by
  induction files generalizing world written with
  | nil =>
    obtain ⟨rfl, rfl⟩ := Prod.mk.inj ran
    exact ⟨rfl, .nil⟩
  | cons file files ih =>
    obtain ⟨path, text⟩ := file
    unfold writeAll at ran
    obtain ⟨result, middle, wrote, ran⟩ := Amid.bind_eq ran
    obtain ⟨exchanges, ⟨error, rfl, begun, left⟩ | ⟨_, rfl, place, writable, same⟩⟩ := writeFile_settles wrote
    · obtain ⟨rfl, rfl⟩ := Prod.mk.inj ran
      exact ⟨exchanges, left ▸ .refused error begun⟩
    · obtain ⟨others, last, later, ran⟩ := Amid.bind_eq ran
      obtain ⟨rfl, rfl⟩ := Prod.mk.inj ran
      obtain ⟨exchanges', writing⟩ := ih later
      rw [same] at writing
      exact ⟨exchanges'.trans exchanges, .cons writable writing⟩

/-- Writing files fails only because one of them cannot be written. -/
theorem Writing.kind_failure {failure : Failure} (writing : Writing disk files written disk')
    (failed : written.failure = some failure) : failure.kind = .io := by
  induction writing with
  | nil => exact absurd failed nofun
  | refused => exact Option.some.inj failed ▸ rfl
  | cons _ _ ih => exact ih failed

/-- All files have been written, each at its place. -/
inductive WrittenAll : Disk → List (Text × Text) → List Location → Disk → Prop
  | nil {disk : Disk} : WrittenAll disk [] [] disk
  | cons {disk disk' : Disk} {path text : Text} {files : List (Text × Text)} {place : Location}
      {places : List Location} (writable : disk.writable path = .ok place)
      (others : WrittenAll (disk.put place (.file (Utf8.encode text))) files places disk') :
      WrittenAll disk ((path, text) :: files) (place :: places) disk'

theorem Writing.writtenAll (writing : Writing disk files written disk') (done : written.failure = none) :
    ∃ places, WrittenAll disk files places disk' := by
  induction writing with
  | nil => exact ⟨[], .nil⟩
  | refused => exact absurd done nofun
  | cons writable _ ih =>
    obtain ⟨places, others⟩ := ih done
    exact ⟨_ :: places, .cons writable others⟩

namespace WrittenAll

theorem keepsDirectories (all : WrittenAll disk files places disk') : disk.KeepsDirectories disk' := by
  induction all with
  | nil => exact .refl _
  | cons writable _ ih => exact (Disk.keepsDirectories_put (Disk.free_of_writable writable)).trans ih

/-- **Nothing changes** at other places than those of the files. -/
theorem frame {location : Location} (all : WrittenAll disk files places disk') (other : location ∉ places) :
    disk'.at? location = disk.at? location := by
  induction all with
  | nil => rfl
  | cons writable _ ih =>
    obtain ⟨notHere, notThere⟩ := not_or.mp (List.mem_cons.not.mp other)
    rw [ih notThere, Disk.at?_put (Disk.free_of_writable writable), if_neg notHere]

/-- A file at another place is read as before. -/
theorem read_kept {path : Text} {content : Bytes} {target : Disk.Target} (all : WrittenAll disk files places disk')
    (located : disk.locate path = .ok target) (other : target.place ∉ places) (read : disk.read path = .ok content) :
    disk'.read path = .ok content := by
  obtain ⟨target', located', notSlashed, short, found⟩ := Disk.read_eq_ok_iff.mp read
  obtain rfl := Except.ok.inj (located.symm.trans located')
  refine Disk.read_eq_ok_iff.mpr ⟨target, Disk.locate_mono all.keepsDirectories located, notSlashed, short, ?_⟩
  rw [all.frame other, found]

/-- **Files at different places** hold their texts. The induction is on the files. -/
theorem complete (all : WrittenAll disk files places disk') (apart : places.Nodup) :
    ∀ file ∈ files, disk'.read file.1 = .ok (Utf8.encode file.2) := by
  induction all with
  | nil => exact fun _ absent => absurd absent List.not_mem_nil
  | cons writable others ih =>
    obtain ⟨notAgain, apart⟩ := List.nodup_cons.mp apart
    intro file member
    rcases List.mem_cons.mp member with rfl | later
    · obtain ⟨target, located, _, _, _, free, rfl⟩ := Disk.writable_eq_ok_iff.mp writable
      exact others.read_kept (Disk.locate_mono (Disk.keepsDirectories_put free) located) notAgain
        (Disk.read_put writable)
    · exact ih apart file later

end WrittenAll

/-- Each file is where its path leads. The induction is on the files. -/
theorem WrittenAll.leadsTo (all : WrittenAll disk files places disk') :
    List.Forall₂ (fun file place => disk'.LeadsTo file.1 place) files places := by
  induction all with
  | nil => exact .nil
  | cons writable others ih =>
    obtain ⟨target, located, _, _, _, free, rfl⟩ := Disk.writable_eq_ok_iff.mp writable
    have keeps := (Disk.keepsDirectories_put free).trans others.keepsDirectories
    exact .cons ⟨target, Disk.locate_mono keeps located, rfl⟩ ih

section Located

variable (located : List.Forall₂ (fun file place => disk.LeadsTo file.1 place) files places)

include located

theorem exists_place_of_path {path : Text} (member : path ∈ files.map Prod.fst) :
    ∃ place ∈ places, disk.LeadsTo path place := by
  induction located with
  | nil => exact absurd member List.not_mem_nil
  | cons leads _ ih =>
    rcases List.mem_cons.mp member with rfl | later
    · exact ⟨_, List.mem_cons_self, leads⟩
    · obtain ⟨place, inPlaces, leads⟩ := ih later
      exact ⟨place, List.mem_cons_of_mem _ inPlaces, leads⟩

theorem exists_path_of_place {place : Location} (member : place ∈ places) :
    ∃ path ∈ files.map Prod.fst, disk.LeadsTo path place := by
  induction located with
  | nil => exact absurd member List.not_mem_nil
  | cons leads _ ih =>
    rcases List.mem_cons.mp member with rfl | later
    · exact ⟨_, List.mem_cons_self, leads⟩
    · obtain ⟨path, inPaths, leads⟩ := ih later
      exact ⟨path, List.mem_cons_of_mem _ inPaths, leads⟩

/-- **Paths to different places** lead to no place together. -/
theorem paths_apart (distinct : places.Nodup) :
    (files.map Prod.fst).Pairwise fun path path' =>
      path ≠ path' ∧ ∀ place, disk.LeadsTo path place → ¬ disk.LeadsTo path' place := by
  induction located with
  | nil => exact .nil
  | @cons _ place _ _ leads others ih =>
    obtain ⟨notAgain, distinct⟩ := List.nodup_cons.mp distinct
    refine List.pairwise_cons.mpr ⟨fun path' member => ?_, ih distinct⟩
    obtain ⟨place', inPlaces, leads'⟩ := exists_place_of_path others member
    have different : place ≠ place' := fun same => notAgain (same ▸ inPlaces)
    refine ⟨?_, fun other toOther toOther' => different ?_⟩
    · rintro rfl
      exact different (leads.unique leads')
    · exact (leads.unique toOther).trans (toOther'.unique leads')

end Located

/-! ### Places -/

/-- No file can be written under the path of a directory that ends with a slash. -/
theorem Disk.not_writable_directoryStart {location : Location} : disk.writable (directoryStart directory) ≠ .ok location := by
  intro writable
  obtain ⟨target, located, notDots, notSlashed, _⟩ := Disk.writable_eq_ok_iff.mp writable
  obtain ⟨-, written, -, ⟨-, rfl⟩ | ⟨-, place, -, rfl⟩⟩ := Disk.locate_eq_ok_iff.mp located
  · simp [Target.isDots] at notDots
  · rcases directoryStart_cases directory with none | ⟨front, slashed⟩
    · exact written none
    · simp [slashed] at notSlashed

/-- **A file is written** to its name in the directory. -/
theorem Disk.writable_joinPath {name : Text} {location : Location} (whole : '/' ∉ name)
    (writable : disk.writable (joinPath directory name) = .ok location) :
    ∃ place, disk.follow (Disk.beginning (directoryStart directory)) (directoryNames directory) = .ok place
      ∧ location = name :: place := by
  have nonempty : name ≠ [] := by
    rintro rfl
    rw [joinPath_eq (by simp), List.append_nil] at writable
    exact Disk.not_writable_directoryStart writable
  obtain ⟨target, located, notDots, _, _, _, rfl⟩ := Disk.writable_eq_ok_iff.mp writable
  obtain ⟨place, followed, rfl⟩ := Disk.locate_joinPath ⟨nonempty, whole⟩ located
  simp only [Target.isDots, Bool.or_eq_false_iff, decide_eq_false_iff_not] at notDots
  refine ⟨place, followed, ?_⟩
  unfold Target.place
  rw [if_neg notDots.1, if_neg notDots.2]

/-- Where files have been written, their directory leads somewhere. -/
theorem WrittenAll.exists_start {file : Text × Text} {named : List (Text × Text)} (whole : '/' ∉ file.1)
    (all : WrittenAll disk ((file :: named).map fun file => (joinPath directory file.1, file.2)) places disk') :
    ∃ start, disk'.follow (Disk.beginning (directoryStart directory)) (directoryNames directory) = .ok start := by
  have keeps := all.keepsDirectories
  cases all with
  | cons writable _ =>
    obtain ⟨start, followed, _⟩ := Disk.writable_joinPath whole writable
    exact ⟨start, Disk.follow_mono keeps followed⟩

/-- **Where the files of a directory are written**: to their names in it. The induction is on the files. -/
theorem WrittenAll.places_eq {named : List (Text × Text)} {start : Location}
    (all : WrittenAll disk (named.map fun file => (joinPath directory file.1, file.2)) places disk')
    (whole : ∀ file ∈ named, '/' ∉ file.1)
    (followed : disk'.follow (Disk.beginning (directoryStart directory)) (directoryNames directory) = .ok start) :
    places = named.map fun file => file.1 :: start := by
  induction named generalizing disk places with
  | nil =>
    cases all
    rfl
  | cons file named ih =>
    have keeps := all.keepsDirectories
    cases all with
    | cons writable others =>
      obtain ⟨place, found, rfl⟩ := Disk.writable_joinPath (whole file List.mem_cons_self) writable
      obtain rfl := Except.ok.inj ((Disk.follow_mono keeps found).symm.trans followed)
      rw [ih others fun other member => whole other (List.mem_cons_of_mem _ member), List.map_cons]

/-- **Files of different names** in a directory have different places, and hold their texts. -/
theorem WrittenAll.complete_named {named : List (Text × Text)}
    (all : WrittenAll disk (named.map fun file => (joinPath directory file.1, file.2)) places disk')
    (whole : ∀ file ∈ named, '/' ∉ file.1) (distinct : (named.map Prod.fst).Nodup) :
    places.Nodup ∧ ∀ file ∈ named, disk'.read (joinPath directory file.1) = .ok (Utf8.encode file.2) := by
  have apart : places.Nodup := by
    cases named with
    | nil =>
      cases all
      exact List.nodup_nil
    | cons file named =>
      obtain ⟨start, followed⟩ := all.exists_start (whole file List.mem_cons_self)
      have starts : (((file :: named).map Prod.fst).map (· :: start)).Nodup :=
        distinct.map fun first second same => (List.cons.inj same).1
      rw [all.places_eq whole followed, ← Function.comp_def (· :: start) Prod.fst, ← List.map_map]
      exact starts
  exact ⟨apart, fun file member => all.complete apart _ (List.mem_map_of_mem member)⟩

/-! ### The output -/

/-- What writing the output may do: nothing if two files would have the same name, and otherwise the directory is
made or not, and the files are written in turn. -/
inductive OutputWritten (directory : Text) (names : OutputNames) (outcome : Outcome) (disk : Disk) :
    Written → Disk → Prop
  | clash {name : Text} (same : nameClash? names = some name) :
      OutputWritten directory names outcome disk ⟨[], some (.nameClash name)⟩ disk
  | notMade {disk' : Disk} (apart : nameClash? names = none) (error : FileError)
      (made : Made (ancestors directory) disk disk') :
      OutputWritten directory names outcome disk ⟨[], some (.makingOutput directory error)⟩ disk'
  | begun {middle disk' : Disk} {written : Written} (apart : nameClash? names = none)
      (made : Made (ancestors directory) disk middle)
      (writing : Writing middle (outputFiles (outputPaths directory names) outcome) written disk') :
      OutputWritten directory names outcome disk written disk'

/-- **Writing the output** does nothing else. -/
theorem writeOutput_written {world world' : World}
    (ran : (writeOutput directory names outcome : Amid surroundings _) world = (written, world')) :
    world'.exchanges = world.exchanges ∧ OutputWritten directory names outcome world.disk written world'.disk := by
  unfold writeOutput at ran
  cases clash : nameClash? names with
  | some name =>
    rw [clash] at ran
    obtain ⟨rfl, rfl⟩ := Prod.mk.inj ran
    exact ⟨rfl, .clash clash⟩
  | none =>
    rw [clash] at ran
    obtain ⟨result, middle, tried, ran⟩ := Amid.bind_eq ran
    obtain ⟨exchanges, made⟩ := makeDirectories_made tried
    cases result with
    | error error =>
      obtain ⟨rfl, rfl⟩ := Prod.mk.inj ran
      exact ⟨exchanges, .notMade clash error made⟩
    | ok _ =>
      obtain ⟨exchanges', writing⟩ := writeAll_writing ran
      exact ⟨exchanges'.trans exchanges, .begun clash made writing⟩

/-- What has happened if the output has been written. -/
theorem OutputWritten.writtenAll (output : OutputWritten directory names outcome disk written disk')
    (done : written.failure = none) :
    nameClash? names = none ∧ ∃ middle places, Made (ancestors directory) disk middle
      ∧ WrittenAll middle (outputFiles (outputPaths directory names) outcome) places disk' := by
  cases output with
  | clash | notMade => exact absurd done nofun
  | begun apart made writing =>
    obtain ⟨places, all⟩ := writing.writtenAll done
    exact ⟨apart, _, places, made, all⟩

/-- Writing the output fails because of its names, before anything is written, or because files are refused. -/
theorem OutputWritten.failure_cases {failure : Failure}
    (output : OutputWritten directory names outcome disk written disk') (failed : written.failure = some failure) :
    (∃ name, failure = .nameClash name ∧ disk' = disk) ∨ failure.kind = .io := by
  cases output with
  | clash => exact Or.inl ⟨_, (Option.some.inj failed).symm, rfl⟩
  | notMade => exact Or.inr (Option.some.inj failed ▸ rfl)
  | begun _ _ writing => exact Or.inr (writing.kind_failure failed)

/-- Files whose names do not clash have different names. -/
theorem names_apart (apart : nameClash? names = none) : [names.html, names.css, mappingName].Nodup := by
  unfold nameClash? at apart
  split at apart
  · simp at apart
  next different =>
    have alone : ∀ name ∈ [names.html, names.css], isSameName mappingName name ≠ true := List.find?_eq_none.mp apart
    have same : ∀ name, isSameName name name = true := fun name => decide_eq_true rfl
    have htmlCss : names.html ≠ names.css := fun equal => different (equal ▸ same names.html)
    have html : names.html ≠ mappingName := fun equal => alone _ List.mem_cons_self (equal ▸ same names.html)
    have css : names.css ≠ mappingName := fun equal =>
      alone _ (List.mem_cons_of_mem _ List.mem_cons_self) (equal ▸ same names.css)
    simp [htmlCss, html, css]

end Relabel
