/-
**Runs in any surroundings.**

What a run asks for is not always done. A server answers as it likes, and may know what it was asked before.
The system may refuse an operation on files at any time, for reasons that no disk shows, and a file that it
refuses to write may have been written in part. Removing a file that is there is assumed to succeed always.

* `Surroundings`, `World`, `Amid`: the answers and refusals, what a run leaves behind, computations.
* `operate_cases`, `operate_settles`: an operation on files is carried out or refused.
* `replaceFile_settles`: a file is replaced as a whole or not at all.
* `makeDirectories_made`: only directories are made, and only those that must hold the last one.
-/

import Relabel.Proofs.Files.Disk
import Relabel.Script.Relocate

namespace Relabel

/-! ### Surroundings -/

/-- A request and its answer. -/
structure Exchange where
  url : Url
  answer : Except FetchFailure Bytes

/-- How the system refuses an operation. -/
structure Refusal where
  error : FileError
  /-- How many bytes of a file have been written before. -/
  written : Nat := 0

/-- What a run meets. -/
structure Surroundings where
  /-- The answer to a request after others. -/
  answer : List Exchange → Url → Except FetchFailure Bytes
  /-- The refusal of an operation on files after so many others, if it is refused. -/
  refusal : Nat → Option Refusal

/-- What a run changes. -/
structure World where
  disk : Disk
  /-- The requests so far, the first one first. -/
  exchanges : List Exchange := []
  /-- The number of operations on files so far. -/
  operations : Nat := 0

/-- Computations in given surroundings. -/
def Amid (_ : Surroundings) (α : Type) : Type :=
  World → α × World

namespace Surroundings

variable (surroundings : Surroundings)

/-- An operation on a disk that the system may refuse. `spoil` is what a refused one does. -/
def operate {α : Type} (spoil : Refusal → Disk → Disk) (act : Disk → Except FileError α × Disk) :
    Amid surroundings (Except FileError α) := fun world =>
  match surroundings.refusal world.operations with
  | some refusal =>
    (.error refusal.error,
      { world with disk := spoil refusal world.disk, operations := world.operations + 1 })
  | none =>
    ((act world.disk).1, { world with disk := (act world.disk).2, operations := world.operations + 1 })

/-- Asks for the content at an address. -/
def ask : Fetcher (Amid surroundings) := fun url world =>
  let answer := surroundings.answer world.exchanges url
  (answer, { world with exchanges := world.exchanges ++ [⟨url, answer⟩] })

end Surroundings

/-- The operations on files in given surroundings. Each of them that can fail may be refused, save one: a file that is
there can be removed, which is an assumption on the surroundings. -/
instance (surroundings : Surroundings) : FileSystem (Amid surroundings) where
  pure a := fun world => (a, world)
  bind computation next := fun world => next (computation world).1 (computation world).2
  isFile path := fun world => (world.disk.find path matches .ok (.file _), world)
  isDirectory path := fun world => (world.disk.find path matches .ok .directory, world)
  readFile path := surroundings.operate (fun _ disk => disk) fun disk => (disk.read path, disk)
  writeFile path content := surroundings.operate
    (fun refusal disk => (disk.write path (content.take refusal.written)).2) (·.write path content)
  createFile path := surroundings.operate (fun _ disk => disk) (·.create path)
  moveFile source target := surroundings.operate (fun _ disk => disk) (·.move source target)
  removeFile path := fun world => ((), { world with disk := world.disk.remove path })
  makeDirectory path := surroundings.operate (fun _ disk => disk) (·.makeDirectory path)

section Cases

variable {surroundings : Surroundings}

theorem Amid.bind_apply {α β : Type} (computation : Amid surroundings α) (next : α → Amid surroundings β)
    (world : World) : (computation >>= next) world = next (computation world).1 (computation world).2 := rfl

/-- A run of two computations is a run of the first and, from there, one of the second. -/
theorem Amid.bind_eq {α β : Type} {computation : Amid surroundings α} {next : α → Amid surroundings β}
    {world world' : World} {result : β} (ran : (computation >>= next) world = (result, world')) :
    ∃ a middle, computation world = (a, middle) ∧ next a middle = (result, world') :=
  ⟨_, _, rfl, ran⟩

/-! ### One operation -/

/-- A request is recorded with its answer. -/
theorem ask_recorded {url : Url} {world world' : World} {answer : Except FetchFailure Bytes}
    (ran : surroundings.ask url world = (answer, world')) :
    world'.exchanges = world.exchanges ++ [⟨url, answer⟩] ∧ world'.disk = world.disk := by
  obtain ⟨rfl, rfl⟩ := Prod.mk.inj ran
  exact ⟨rfl, rfl⟩

/-- **An operation on files** is carried out or refused. -/
theorem operate_cases {α : Type} {spoil : Refusal → Disk → Disk} {act : Disk → Except FileError α × Disk}
    {world world' : World} {result : Except FileError α}
    (ran : surroundings.operate spoil act world = (result, world')) :
    world'.exchanges = world.exchanges
      ∧ ((∃ error refusal, result = .error error ∧ world'.disk = spoil refusal world.disk)
          ∨ act world.disk = (result, world'.disk)) := by
  unfold Surroundings.operate at ran
  cases refused : surroundings.refusal world.operations with
  | some refusal =>
    rw [refused] at ran
    obtain ⟨rfl, rfl⟩ := Prod.mk.inj ran
    exact ⟨rfl, Or.inl ⟨_, refusal, rfl, rfl⟩⟩
  | none =>
    rw [refused] at ran
    obtain ⟨rfl, rfl⟩ := Prod.mk.inj ran
    exact ⟨rfl, Or.inr rfl⟩

/-- What a computation on files may do: it fails and leaves a disk of one kind, or it succeeds and leaves one
of another kind. No request is sent. -/
structure Settles {α : Type} (world : World) (result : Except FileError α) (world' : World)
    (failed : Disk → Prop) (done : α → Disk → Prop) : Prop where
  exchanges : world'.exchanges = world.exchanges
  cases : (∃ error, result = .error error ∧ failed world'.disk) ∨ ∃ a, result = .ok a ∧ done a world'.disk

/-- **An operation that puts an entry** at a place is carried out, or there is no such place, or it is refused. -/
theorem operate_settles {spoil : Refusal → Disk → Disk} {act : Disk → Except FileError Unit × Disk} {entry : Entry}
    {world world' : World} {result : Except FileError Unit} (placeOf : Disk → Except FileError Location)
    (acts : ∀ disk, act disk = match placeOf disk with
      | .error error => (.error error, disk)
      | .ok place => (.ok (), disk.put place entry))
    (ran : surroundings.operate spoil act world = (result, world')) :
    Settles world result world'
      (fun disk => (∃ error, placeOf world.disk = .error error) ∧ disk = world.disk
        ∨ ∃ refusal, disk = spoil refusal world.disk)
      fun _ disk => ∃ place, placeOf world.disk = .ok place ∧ disk = world.disk.put place entry := by
  obtain ⟨exchanges, ⟨error, refusal, failed, left⟩ | acted⟩ := operate_cases ran
  · exact ⟨exchanges, Or.inl ⟨error, failed, Or.inr ⟨refusal, left⟩⟩⟩
  · refine ⟨exchanges, ?_⟩
    rw [acts] at acted
    cases found : placeOf world.disk with
    | error error =>
      rw [found] at acted
      obtain ⟨rfl, same⟩ := Prod.mk.inj acted
      exact Or.inl ⟨error, rfl, Or.inl ⟨⟨error, rfl⟩, same.symm⟩⟩
    | ok place =>
      rw [found] at acted
      obtain ⟨rfl, same⟩ := Prod.mk.inj acted
      exact Or.inr ⟨(), rfl, place, rfl, same.symm⟩

theorem createFile_settles {path : Text} {world world' : World} {result : Except FileError Unit}
    (ran : (createFile path : Amid surroundings _) world = (result, world')) :
    Settles world result world' (· = world.disk) fun _ disk =>
      ∃ place, world.disk.creatable path = .ok place ∧ disk = world.disk.put place (.file []) := by
  obtain ⟨exchanges, ⟨error, failed, ⟨_, same⟩ | ⟨_, same⟩⟩ | done⟩ :=
    operate_settles (Disk.creatable · path) (fun _ => rfl) ran
  · exact ⟨exchanges, Or.inl ⟨error, failed, same⟩⟩
  · exact ⟨exchanges, Or.inl ⟨error, failed, same⟩⟩
  · exact ⟨exchanges, Or.inr done⟩

theorem writeFile_settles {path : Text} {content : Bytes} {world world' : World} {result : Except FileError Unit}
    (ran : (writeFile path content : Amid surroundings _) world = (result, world')) :
    Settles world result world' (fun disk => ∃ begun, disk = (world.disk.write path begun).2) fun _ disk =>
      ∃ place, world.disk.writable path = .ok place ∧ disk = world.disk.put place (.file content) := by
  obtain ⟨exchanges, ⟨error, failed, ⟨⟨_, notWritable⟩, same⟩ | ⟨_, left⟩⟩ | done⟩ :=
    operate_settles (Disk.writable · path) (fun _ => rfl) ran
  · refine ⟨exchanges, Or.inl ⟨error, failed, content, ?_⟩⟩
    rw [Disk.write, notWritable]
    exact same
  · exact ⟨exchanges, Or.inl ⟨error, failed, _, left⟩⟩
  · exact ⟨exchanges, Or.inr done⟩

/-! ### Files that are replaced -/

/-- An unfinished file is made or not. The induction is on the names that are tried. -/
theorem createUnfinished_settles {directory : Text} {k tries : Nat} {world world' : World}
    {result : Except FileError Text}
    (ran : (createUnfinished directory k tries : Amid surroundings _) world = (result, world')) :
    Settles world result world' (· = world.disk) fun path disk =>
      ∃ place, world.disk.creatable path = .ok place ∧ disk = world.disk.put place (.file []) := by
  induction tries generalizing k world with
  | zero =>
    obtain ⟨rfl, rfl⟩ := Prod.mk.inj ran
    exact ⟨rfl, Or.inl ⟨_, rfl, rfl⟩⟩
  | succ tries ih =>
    unfold createUnfinished at ran
    obtain ⟨first, middle, created, ran⟩ := Amid.bind_eq ran
    obtain ⟨exchanges, ⟨error, rfl, same⟩ | ⟨_, rfl, place, creatable, disk⟩⟩ := createFile_settles created
    · by_cases again : error = .alreadyThere
      · simp only [if_pos again] at ran
        have behind := ih ran
        rw [same] at behind
        exact ⟨behind.exchanges.trans exchanges, behind.cases⟩
      · simp only [if_neg again] at ran
        obtain ⟨rfl, rfl⟩ := Prod.mk.inj ran
        exact ⟨exchanges, Or.inl ⟨error, rfl, same⟩⟩
    · obtain ⟨rfl, rfl⟩ := Prod.mk.inj ran
      exact ⟨exchanges, Or.inr ⟨_, rfl, place, creatable, disk⟩⟩

section Unfinished

variable {disk : Disk} {unfinished path : Text} {place : Location} {begun content : Bytes} {world world' : World}
  {result : Except FileError Unit} (creatable : disk.creatable unfinished = .ok place)
  (there : world.disk = disk.put place (.file begun))

include creatable there

theorem writeUnfinished_settles
    (ran : (writeFile unfinished content : Amid surroundings _) world = (result, world')) :
    Settles world result world' (fun disk' => ∃ begun', disk' = disk.put place (.file begun'))
      fun _ disk' => disk' = disk.put place (.file content) := by
  have written : ∀ content', (world.disk.write unfinished content').2 = disk.put place (.file content') := by
    intro content'
    rw [there, Disk.write_unfinished creatable]
  obtain ⟨exchanges, ⟨error, failed, content', left⟩ | ⟨_, done, place', writable, same⟩⟩ := writeFile_settles ran
  · exact ⟨exchanges, Or.inl ⟨error, failed, content', left.trans (written content')⟩⟩
  · refine ⟨exchanges, Or.inr ⟨(), done, ?_⟩⟩
    rw [same, ← written content, Disk.write, writable]

theorem moveFile_settles
    (ran : (moveFile unfinished path : Amid surroundings _) world = (result, world')) :
    Settles world result world' (· = disk.put place (.file begun))
      fun _ disk' => ∃ place', disk.writable path = .ok place' ∧ disk' = disk.put place' (.file begun) := by
  obtain ⟨exchanges, ⟨error, _, failed, same⟩ | acted⟩ := operate_cases ran
  · exact ⟨exchanges, Or.inl ⟨error, failed, same.trans there⟩⟩
  · refine ⟨exchanges, ?_⟩
    simp only [there, Disk.move] at acted
    cases moved : (disk.put place (.file begun)).moved unfinished path with
    | error error =>
      rw [moved] at acted
      obtain ⟨rfl, same⟩ := Prod.mk.inj acted
      exact Or.inl ⟨error, rfl, same.symm⟩
    | ok disk' =>
      rw [moved] at acted
      obtain ⟨rfl, rfl⟩ := Prod.mk.inj acted
      exact Or.inr ⟨(), rfl, Disk.moved_unfinished creatable moved⟩

/-- An unfinished file is moved to its place, or it is still there with some content. -/
theorem finishFile_settles
    (ran : (finishFile unfinished path content : Amid surroundings _) world = (result, world')) :
    Settles world result world' (fun disk' => ∃ begun', disk' = disk.put place (.file begun'))
      fun _ disk' => ∃ place', disk.writable path = .ok place' ∧ disk' = disk.put place' (.file content) := by
  unfold finishFile at ran
  obtain ⟨written, middle, wrote, ran⟩ := Amid.bind_eq ran
  obtain ⟨exchanges, ⟨error, rfl, left⟩ | ⟨_, rfl, disk'⟩⟩ := writeUnfinished_settles creatable there wrote
  · obtain ⟨rfl, rfl⟩ := Prod.mk.inj ran
    exact ⟨exchanges, Or.inl ⟨error, rfl, left⟩⟩
  · have moved := moveFile_settles creatable disk' ran
    refine ⟨moved.exchanges.trans exchanges, moved.cases.imp_left ?_⟩
    rintro ⟨error, failed, same⟩
    exact ⟨error, failed, content, same⟩

end Unfinished

/-- **A file is replaced** as a whole, or the disk stays as it is. This rests on the removal of the unfinished file,
which is not refused. -/
theorem replaceFile_settles {directory name : Text} {content : Bytes} {world world' : World}
    {result : Except FileError Unit}
    (ran : (replaceFile directory name content : Amid surroundings _) world = (result, world')) :
    Settles world result world' (· = world.disk) fun _ disk =>
      ∃ place, world.disk.writable (joinPath directory name) = .ok place
        ∧ disk = world.disk.put place (.file content) := by
  unfold replaceFile at ran
  obtain ⟨first, middle, created, ran⟩ := Amid.bind_eq ran
  obtain ⟨exchanges, ⟨error, rfl, same⟩ | ⟨unfinished, rfl, place, creatable, there⟩⟩ :=
    createUnfinished_settles created
  · obtain ⟨rfl, rfl⟩ := Prod.mk.inj ran
    exact ⟨exchanges, Or.inl ⟨error, rfl, same⟩⟩
  · obtain ⟨second, last, finished, ran⟩ := Amid.bind_eq ran
    obtain ⟨exchanges', ⟨error, rfl, begun, left⟩ | ⟨_, rfl, written⟩⟩ :=
      finishFile_settles creatable there finished
    · obtain ⟨rfl, rfl⟩ := Prod.mk.inj ran
      refine ⟨exchanges'.trans exchanges, Or.inl ⟨error, rfl, ?_⟩⟩
      show last.disk.remove unfinished = world.disk
      rw [left, Disk.remove_unfinished creatable]
    · obtain ⟨rfl, rfl⟩ := Prod.mk.inj ran
      exact ⟨exchanges'.trans exchanges, Or.inr ⟨(), rfl, written⟩⟩

/-! ### Directories that are made -/

/-- A file is at a place of both disks, with the same content, or of none of them. -/
def Disk.SameFileAt (disk disk' : Disk) (place : Location) : Prop :=
  ∀ content, disk'.at? place = some (.file content) ↔ disk.at? place = some (.file content)

/-- Directories have been made under some paths where nothing was, and nothing else has changed. -/
structure Made (paths : List Text) (disk disk' : Disk) : Prop where
  keeps : disk.KeepsDirectories disk'
  same : ∀ place, disk'.at? place = disk.at? place
    ∨ disk.at? place = none ∧ disk'.at? place = some .directory ∧ ∃ path ∈ paths, disk'.LeadsTo path place

namespace Made

theorem refl (paths : List Text) (disk : Disk) : Made paths disk disk :=
  ⟨.refl disk, fun _ => Or.inl rfl⟩

theorem mono {paths paths' : List Text} {disk disk' : Disk} (made : Made paths disk disk')
    (more : ∀ path ∈ paths, path ∈ paths') : Made paths' disk disk' := by
  refine ⟨made.keeps, fun place => (made.same place).imp_right ?_⟩
  rintro ⟨none, isDirectory, path, member, leads⟩
  exact ⟨none, isDirectory, path, more path member, leads⟩

theorem trans {paths : List Text} {disk disk' disk'' : Disk} (first : Made paths disk disk')
    (second : Made paths disk' disk'') : Made paths disk disk'' := by
  refine ⟨first.keeps.trans second.keeps, fun place => ?_⟩
  rcases first.same place with same | ⟨none, isDirectory, path, member, leads⟩
  · rw [← same]
    exact second.same place
  · exact Or.inr ⟨none, second.keeps place isDirectory, path, member, leads.mono second.keeps⟩

/-- **Files are as before.** -/
theorem sameFileAt {paths : List Text} {disk disk' : Disk} (made : Made paths disk disk') (place : Location) :
    disk.SameFileAt disk' place := by
  intro content
  rcases made.same place with same | ⟨vacant, isDirectory, _⟩
  · rw [same]
  · simp [vacant, isDirectory]

/-- Files are read as before. -/
theorem read_kept {paths : List Text} {disk disk' : Disk} {path : Text} {content : Bytes} (made : Made paths disk disk')
    (read : disk.read path = .ok content) : disk'.read path = .ok content := by
  obtain ⟨target, located, notSlashed, short, found⟩ := Disk.read_eq_ok_iff.mp read
  exact Disk.read_eq_ok_iff.mpr
    ⟨target, Disk.locate_mono made.keeps located, notSlashed, short, (made.sameFileAt target.place content).mpr found⟩

end Made

theorem made_put {disk : Disk} {path : Text} {place : Location} (vacant : disk.vacant path = .ok place) :
    Made [path] disk (disk.put place .directory) := by
  obtain ⟨target, located, _, _, none, rfl⟩ := Disk.vacant_eq_ok_iff.mp vacant
  have free : disk.at? target.place ≠ some .directory := by
    rw [none]
    simp
  have keeps : disk.KeepsDirectories (disk.put target.place .directory) := Disk.keepsDirectories_put free
  refine ⟨keeps, fun other => ?_⟩
  rw [Disk.at?_put free]
  by_cases same : other = target.place
  · subst same
    exact Or.inr ⟨none, if_pos rfl, path, List.mem_singleton_self path, target, Disk.locate_mono keeps located, rfl⟩
  · exact Or.inl (if_neg same)

theorem makeDirectory_made {path : Text} {world world' : World} {result : Except FileError Unit}
    (ran : (makeDirectory path : Amid surroundings _) world = (result, world')) :
    world'.exchanges = world.exchanges ∧ Made [path] world.disk world'.disk := by
  obtain ⟨exchanges, ⟨_, _, ⟨_, same⟩ | ⟨_, same⟩⟩ | ⟨_, _, place, vacant, disk⟩⟩ :=
    operate_settles (Disk.vacant · path) (fun _ => rfl) ran
  · exact ⟨exchanges, same ▸ Made.refl _ _⟩
  · exact ⟨exchanges, same ▸ Made.refl _ _⟩
  · exact ⟨exchanges, disk ▸ made_put vacant⟩

/-- Looking whether a directory is there changes nothing. -/
theorem settle_world {path : Text} {known result : Except FileError Unit} {world world' : World}
    (ran : (settle path known : Amid surroundings _) world = (result, world')) : world' = world := by
  unfold settle at ran
  cases known with
  | ok _ => exact (Prod.mk.inj ran).2.symm
  | error error =>
    simp only [Amid.bind_apply] at ran
    split at ran
    · exact (Prod.mk.inj ran).2.symm
    · exact (Prod.mk.inj ran).2.symm

/-- **Only directories are made.** The induction is on the directories that must hold the last one. -/
theorem makeDirectoriesFrom_made {paths : List Text} {world world' : World} {result : Except FileError Unit}
    (ran : (makeDirectoriesFrom paths : Amid surroundings _) world = (result, world')) :
    world'.exchanges = world.exchanges ∧ Made paths world.disk world'.disk := by
  induction paths generalizing world world' result with
  | nil =>
    obtain ⟨rfl, rfl⟩ := Prod.mk.inj ran
    exact ⟨rfl, .refl _ _⟩
  | cons path above ih =>
    unfold makeDirectoriesFrom at ran
    obtain ⟨first, middle, tried, ran⟩ := Amid.bind_eq ran
    obtain ⟨exchanges, made⟩ := makeDirectory_made tried
    have own : ∀ other ∈ [path], other ∈ path :: above := fun other member =>
      List.mem_singleton.mp member ▸ List.mem_cons_self
    rcases first with error | _
    · by_cases missing : error = .notFound
      · simp only [if_pos missing] at ran
        obtain ⟨second, later, held, ran⟩ := Amid.bind_eq ran
        obtain ⟨exchanges', made'⟩ := ih held
        have soFar : Made (path :: above) world.disk later.disk :=
          (made.mono own).trans (made'.mono fun other => List.mem_cons_of_mem path)
        rcases second with error' | _
        · obtain ⟨rfl, rfl⟩ := Prod.mk.inj ran
          exact ⟨exchanges'.trans exchanges, soFar⟩
        · obtain ⟨third, last, again, ran⟩ := Amid.bind_eq ran
          obtain ⟨exchanges'', made''⟩ := makeDirectory_made again
          obtain rfl := settle_world ran
          exact ⟨(exchanges''.trans exchanges').trans exchanges, soFar.trans (made''.mono own)⟩
      · simp only [if_neg missing] at ran
        obtain rfl := settle_world ran
        exact ⟨exchanges, made.mono own⟩
    · obtain ⟨rfl, rfl⟩ := Prod.mk.inj ran
      exact ⟨exchanges, made.mono own⟩

theorem makeDirectories_made {path : Text} {world world' : World} {result : Except FileError Unit}
    (ran : (makeDirectories path : Amid surroundings _) world = (result, world')) :
    world'.exchanges = world.exchanges ∧ Made (ancestors path) world.disk world'.disk :=
  makeDirectoriesFrom_made ran

end Cases

end Relabel
