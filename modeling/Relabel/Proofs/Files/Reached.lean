/-
**Directories that are there.**

A directory that has been made leads somewhere, and the path of a file in it leads to the name of the file in that
place, as long as the path is not too long. So where nothing is refused, few errors are left for a file that is put in
place: there may be a directory under its name, or its name may be too long.

* `Disk.Reaches`: the place that a directory leads to; `Disk.exists_reaches`: one that is found leads somewhere.
* `Disk.Reaches.writable_cases`, `Disk.Reaches.creatable_cases`: what becomes of a file in such a directory.
* `makeDirectories_reaches`: a directory that has been made leads somewhere.
* `replaceFile_error`: the errors that a file in it may end in.
-/

import Relabel.Files.FileSystem
import Relabel.Proofs.Files.Below

namespace Relabel

namespace Disk

variable {disk disk' : Disk} {directory name path : Text} {start place : Location}

/-! ### Where a directory leads -/

/-- The paths of the files in a directory lead to their names in a place. -/
structure Reaches (disk : Disk) (directory : Text) (place : Location) : Prop where
  noZero : '\x00' ∉ directory
  followed : disk.follow (beginning (directoryStart directory)) (directoryNames directory) = .ok place

theorem Reaches.mono (keeps : KeepsDirectories disk disk') (reaches : disk.Reaches directory place) :
    disk'.Reaches directory place :=
  ⟨reaches.noZero, follow_mono keeps reaches.followed⟩

/-- Empty names lead nowhere else. -/
theorem follow_of_forall_nil {names : List Text} (empty : ∀ name ∈ names, name = []) :
    disk.follow start names = .ok start := by
  induction names with
  | nil => rfl
  | cons name names ih =>
    obtain ⟨rfl, others⟩ := List.forall_mem_cons.mp empty
    exact ih others

theorem follow_append_of_forall_nil {empty : List Text} (nothing : ∀ name ∈ empty, name = []) (names : List Text) :
    disk.follow start (names ++ empty) = disk.follow start names := by
  rw [follow_append]
  cases disk.follow start names with
  | error error => rfl
  | ok place => exact follow_of_forall_nil nothing

/-- The names along which the path of a directory leads are those of the path itself, up to empty ones. -/
theorem follow_directoryNames (path : Text) :
    disk.follow start (directoryNames path) = disk.follow start (Text.splitOn '/' (Text.trimEnd (· == '/') path)) := by
  obtain ⟨slashes, parts, all⟩ := exists_trimEnd path
  have more : ∃ slashes, directoryStart path = Text.trimEnd (· == '/') path ++ slashes ∧ ∀ c ∈ slashes, c = '/' := by
    unfold directoryStart
    split
    · exact ⟨slashes, parts, all⟩
    · refine ⟨slashes ++ ['/'], by rw [← List.append_assoc, ← parts], fun c member => ?_⟩
      exact (List.mem_append.mp member).elim (all c) List.mem_singleton.mp
  obtain ⟨slashes', begins, all'⟩ := more
  obtain ⟨empty, split, nothing⟩ := splitOn_slashes all' (Text.trimEnd (· == '/') path)
  rw [← begins, splitOn_directoryStart_self] at split
  calc disk.follow start (directoryNames path) = disk.follow start (directoryNames path ++ [[]]) :=
        (follow_append_of_forall_nil (by simp) _).symm
    _ = disk.follow start (Text.splitOn '/' (Text.trimEnd (· == '/') path)) := by
        rw [split, follow_append_of_forall_nil nothing]

/-- The last name of a path to a directory leads on. -/
theorem exists_follow_last {target : Target} (short : target.isTooLong = false)
    (there : disk.at? target.place = some .directory) :
    ∃ place, disk.follow target.directory [target.name] = .ok place := by
  simp only [Target.isTooLong, decide_eq_false_iff_not] at short
  unfold follow
  by_cases stays : (target.name = [] || target.name = sameward) = true
  · exact ⟨target.directory, if_pos stays⟩
  rw [if_neg stays]
  by_cases up : target.name = upward
  · exact ⟨target.directory.above, if_pos up⟩
  have notDot : target.name ≠ sameward := fun same => stays (by simp [same])
  simp only [Target.place, if_neg notDot, if_neg up] at there
  exact ⟨target.name :: target.directory, by rw [if_neg up, if_neg short, there]; rfl⟩

/-- A path that is not empty begins where the paths of the files in it begin. -/
theorem beginning_directoryStart_self (written : path ≠ []) : beginning (directoryStart path) = beginning path := by
  unfold beginning isAbsolute directoryStart
  split
  · rfl
  · rw [List.head?_append_of_ne_nil _ written]

theorem find_eq_directory (found : disk.find path = .ok .directory) :
    ∃ target, disk.locate path = .ok target ∧ target.isTooLong = false
      ∧ disk.at? target.place = some .directory := by
  unfold find at found
  cases located : disk.locate path with
  | error error =>
    rw [located] at found
    exact absurd found nofun
  | ok target =>
    simp only [located, bind, Except.bind] at found
    split at found
    · exact absurd found nofun
    next short =>
      refine ⟨target, rfl, eq_false_of_ne_true short, ?_⟩
      split at found
      · exact absurd found nofun
      · split at found <;> exact absurd found nofun
      next there => exact there

/-- **A directory that is found leads somewhere.** -/
theorem exists_reaches (found : disk.find path = .ok .directory) : ∃ place, disk.Reaches path place := by
  obtain ⟨target, located, short, there⟩ := find_eq_directory found
  obtain ⟨noZero, written, _, cases⟩ := locate_eq_ok_iff.mp located
  suffices leads : ∃ place, disk.follow (beginning path) (directoryNames path) = .ok place by
    obtain ⟨place, followed⟩ := leads
    exact ⟨place, noZero, by rw [beginning_directoryStart_self written, followed]⟩
  rw [follow_directoryNames]
  rcases cases with ⟨root, _⟩ | ⟨_, above, followed, rfl⟩
  · have nothing : Text.trimEnd (· == '/') path = [] := by
      simpa [Text.trimEnd] using root
    exact ⟨_, by rw [nothing]; rfl⟩
  · obtain ⟨place, last⟩ := exists_follow_last short there
    have someName := Text.splitWhen_ne_nil (· == '/') (Text.trimEnd (· == '/') path)
    obtain ⟨front, name, names⟩ :=
      (List.eq_nil_or_concat' (Text.splitOn '/' (Text.trimEnd (· == '/') path))).resolve_left someName
    simp only [names, List.dropLast_concat, List.getLastD_concat] at followed last
    exact ⟨place, by rw [names, follow_append, followed]; exact last⟩

/-! ### Files in a directory -/

/-- A name that a file in a directory may have. -/
structure FileName (name : Text) : Prop extends SingleName name where
  noZero : '\x00' ∉ name
  notDot : name ≠ sameward
  notUp : name ≠ upward

theorem FileName.place_eq (isName : FileName name) (place : Location) (slashed : Bool) :
    (⟨place, name, slashed⟩ : Target).place = name :: place := by
  unfold Target.place
  rw [if_neg isName.notDot, if_neg isName.notUp]

theorem FileName.isDots_eq (isName : FileName name) (place : Location) (slashed : Bool) :
    (⟨place, name, slashed⟩ : Target).isDots = false := by
  simp [Target.isDots, isName.notDot, isName.notUp]

namespace Reaches

variable (reaches : disk.Reaches directory place) (isName : FileName name)

include reaches isName

theorem noZero_joinPath : '\x00' ∉ joinPath directory name := by
  rw [joinPath_eq isName.relative, List.mem_append, not_or]
  refine ⟨?_, isName.noZero⟩
  have noZero := reaches.noZero
  unfold directoryStart
  split <;> simp [noZero]

omit reaches in
theorem joinPath_ne_nil : joinPath directory name ≠ [] := by
  rw [joinPath_eq isName.relative]
  exact List.append_ne_nil_of_right_ne_nil _ isName.nonempty

/-- The path of a file leads to its name in the place that the directory leads to. -/
theorem locate_joinPath (room : Text.byteLength (joinPath directory name) ≤ longestPath) :
    disk.locate (joinPath directory name) = .ok ⟨place, name, false⟩ := by
  have relative := isName.relative
  have noZero := reaches.noZero_joinPath isName
  have nonempty : joinPath directory name ≠ [] := joinPath_ne_nil isName
  have names : Text.splitOn '/' (joinPath directory name) = directoryNames directory ++ [name] := by
    rw [joinPath_eq relative, splitOn_directoryStart, Text.splitOn_of_notMem isName.whole]
  have ends := getLast?_ne_of_splitOn names isName.nonempty
  have untrimmed := trimEnd_of_getLast?_ne ends
  refine locate_eq_ok_iff.mpr ⟨noZero, nonempty, room, Or.inr ⟨?_, place, ?_, ?_⟩⟩
  · obtain ⟨c, rest, rfl⟩ := List.exists_cons_of_ne_nil isName.nonempty
    have other : c ≠ '/' := fun same => isName.whole (same ▸ List.mem_cons_self)
    refine List.all_eq_false.mpr ⟨c, ?_, by simpa using other⟩
    rw [joinPath_eq relative]
    simp
  · rw [untrimmed, names, List.dropLast_concat, joinPath_eq relative, beginning_directoryStart relative]
    exact reaches.followed
  · rw [untrimmed, names, List.getLastD_concat, decide_eq_false ends]

section Room

variable (room : Text.byteLength (joinPath directory name) ≤ longestPath)
  (fits : Text.byteLength name ≤ longestName)

include room fits

/-- A file can be written under a name that fits, unless a directory has the name. -/
theorem writable_cases :
    disk.writable (joinPath directory name) = .ok (name :: place)
      ∨ disk.writable (joinPath directory name) = .error .isDirectory := by
  have located := reaches.locate_joinPath isName room
  have short : (⟨place, name, false⟩ : Target).isTooLong = false := decide_eq_false (Nat.not_lt.mpr fits)
  unfold writable
  simp only [located, bind, Except.bind, isName.isDots_eq, short, isName.place_eq]
  by_cases there : disk.at? (name :: place) = some .directory
  · exact Or.inr (by simp [there])
  · exact Or.inl (by simp [there])

/-- A file can be made under a name that fits, unless the name is in use. -/
theorem creatable_cases :
    disk.creatable (joinPath directory name) = .ok (name :: place)
      ∨ disk.creatable (joinPath directory name) = .error .alreadyThere := by
  have located := reaches.locate_joinPath isName room
  have notDots := isName.isDots_eq place false
  have short : (⟨place, name, false⟩ : Target).isTooLong = false := decide_eq_false (Nat.not_lt.mpr fits)
  have toName := isName.place_eq place false
  cases there : disk.at? (name :: place) with
  | some entry =>
    right
    unfold creatable vacant
    simp [located, bind, Except.bind, notDots, short, toName, there]
  | none =>
    have vacant : disk.vacant (joinPath directory name) = .ok (name :: place) :=
      vacant_eq_ok_iff.mpr ⟨_, located, notDots, short, toName ▸ there, toName⟩
    have writable : disk.writable (joinPath directory name) = .ok (name :: place) :=
      writable_eq_ok_iff.mpr ⟨_, located, notDots, rfl, short, by simp [toName, there], toName⟩
    left
    unfold creatable
    rw [vacant]
    exact writable

end Room

/-- No file can be written under a name that is too long. -/
theorem writable_tooLong (long : longestName < Text.byteLength name) :
    disk.writable (joinPath directory name) = .error .nameTooLong := by
  by_cases room : Text.byteLength (joinPath directory name) ≤ longestPath
  · have located := reaches.locate_joinPath isName room
    have tooLong : (⟨place, name, false⟩ : Target).isTooLong = true := decide_eq_true long
    unfold writable
    simp [located, bind, Except.bind, isName.isDots_eq, tooLong]
  · have noZero := reaches.noZero_joinPath isName
    have nonempty : joinPath directory name ≠ [] := joinPath_ne_nil isName
    unfold writable locate
    simp [noZero, nonempty, Nat.not_le.mp room, bind, Except.bind]

end Reaches

/-- An unfinished file that cannot be moved is refused the place it is moved to. -/
theorem moved_unfinished_error {target : Text} {content : Bytes} {error : FileError}
    (creatable : disk.creatable path = .ok place)
    (failed : (disk.put place (.file content)).moved path target = .error error) :
    (disk.put place (.file content)).writable target = .error error := by
  obtain ⟨none, writable⟩ := creatable_facts creatable
  have read : (disk.put place (.file content)).read path = .ok content := read_put writable
  obtain ⟨origin, located, _⟩ := writable_eq_ok_iff.mp writable
  unfold moved at failed
  rw [read, locate_mono (keepsDirectories_put (free_of_writable writable)) located] at failed
  cases allowed : (disk.put place (.file content)).writable target with
  | error error' =>
    rw [allowed] at failed
    simpa [bind, Except.bind] using failed
  | ok place' =>
    rw [allowed] at failed
    exact absurd failed nofun

end Disk

/-! ### Operations where nothing is refused -/

theorem OnDisk.pure_apply {α : Type} (a : α) (disk : Disk) : (pure a : OnDisk α) disk = (a, disk) := rfl

theorem OnDisk.bind_apply {α β : Type} (computation : OnDisk α) (next : α → OnDisk β) (disk : Disk) :
    (computation >>= next) disk = next (computation disk).1 (computation disk).2 := rfl

/-- A run of two computations is a run of the first and, from there, one of the second. -/
theorem OnDisk.bind_eq {α β : Type} {computation : OnDisk α} {next : α → OnDisk β} {disk disk' : Disk} {result : β}
    (ran : (computation >>= next) disk = (result, disk')) :
    ∃ a middle, computation disk = (a, middle) ∧ next a middle = (result, disk') :=
  ⟨_, _, rfl, ran⟩

section OnDisk

variable {disk disk' : Disk} {directory name path : Text} {place : Location}

/-- A directory that has just been made is found. -/
theorem makeDirectory_found (made : (makeDirectory path : OnDisk _) disk = (.ok (), disk')) :
    disk'.find path = .ok .directory := by
  have acted : disk.makeDirectory path = (.ok (), disk') := made
  unfold Disk.makeDirectory at acted
  cases vacant : disk.vacant path with
  | error error =>
    rw [vacant] at acted
    exact absurd (Prod.mk.inj acted).1 nofun
  | ok place =>
    rw [vacant] at acted
    obtain ⟨_, rfl⟩ := Prod.mk.inj acted
    obtain ⟨target, located, _, short, none, rfl⟩ := Disk.vacant_eq_ok_iff.mp vacant
    have free : disk.at? target.place ≠ some .directory := by simp [none]
    unfold Disk.find
    rw [Disk.locate_mono (Disk.keepsDirectories_put free) located]
    simp [bind, Except.bind, short, Disk.at?_put free]

/-- What is said to be a directory is found as one. -/
theorem find_of_isDirectory (there : ((FileSystem.isDirectory path : OnDisk Bool) disk).1 = true) :
    disk.find path = .ok .directory := by
  have looked : ∀ look : Disk → Bool, (look <$> (get : OnDisk Disk)) disk = (look disk, disk) := fun _ => rfl
  cases located : disk.find path with
  | error error => simp [FileSystem.isDirectory, looked, located] at there
  | ok entry =>
    cases entry with
    | file content => simp [FileSystem.isDirectory, looked, located] at there
    | directory => rfl

theorem settle_found {known : Except FileError Unit} (settled : (settle path known : OnDisk _) disk = (.ok (), disk'))
    (found : known = .ok () → disk.find path = .ok .directory) : disk'.find path = .ok .directory := by
  unfold settle at settled
  cases known with
  | ok _ =>
    obtain ⟨_, rfl⟩ := Prod.mk.inj settled
    exact found rfl
  | error error =>
    simp only [OnDisk.bind_apply] at settled
    split at settled
    next there =>
      obtain ⟨_, rfl⟩ := Prod.mk.inj settled
      exact find_of_isDirectory there
    next => exact absurd (Prod.mk.inj settled).1 (by simp)

/-- **A directory that has been made leads somewhere.** -/
theorem makeDirectories_reaches (made : (makeDirectories path : OnDisk _) disk = (.ok (), disk')) :
    ∃ place, disk'.Reaches path place := by
  by_cases empty : path = []
  · subst empty
    exact ⟨[], List.not_mem_nil, rfl⟩
  refine Disk.exists_reaches ?_
  obtain ⟨above, paths⟩ : ∃ above, ancestors path = path :: above := by
    unfold ancestors
    rw [if_neg empty]
    split <;> exact ⟨_, rfl⟩
  unfold makeDirectories at made
  rw [paths, makeDirectoriesFrom] at made
  obtain ⟨first, middle, tried, made⟩ := OnDisk.bind_eq made
  cases first with
  | ok _ =>
    obtain ⟨_, rfl⟩ := Prod.mk.inj made
    exact makeDirectory_found tried
  | error error =>
    by_cases missing : error = .notFound
    · simp only [if_pos missing] at made
      obtain ⟨second, later, held, made⟩ := OnDisk.bind_eq made
      cases second with
      | error error => exact absurd (Prod.mk.inj made).1 nofun
      | ok _ =>
        obtain ⟨third, last, again, made⟩ := OnDisk.bind_eq made
        exact settle_found made fun done => makeDirectory_found (again.trans (Prod.ext done rfl))
    · simp only [if_neg missing] at made
      exact settle_found made nofun

/-! ### Files that are replaced -/

/-- The names of unfinished files. -/
theorem fileName_unfinishedName {k : Nat} (few : k < unfinishedTries) :
    Disk.FileName (unfinishedName k) ∧ Text.byteLength (unfinishedName k) ≤ 10 := by
  have chars : ∀ c ∈ unfinishedName k, c ∈ ['.', 't', 'm', 'p'] ∨ c.isDigit = true := fun c member =>
    (List.mem_append.mp member).imp id fun digit => Text.isDigit_of_mem_decimal (List.mem_of_mem_drop digit)
  have ascii : IsAscii (unfinishedName k) := by
    intro c member
    rcases chars c member with begins | digit
    · exact (by decide : ∀ c ∈ ['.', 't', 'm', 'p'], c.toNat < 128) c begins
    · have range := isDigit_iff.mp digit
      omega
  have others : ∀ c ∈ ['/', '\x00'], c ∉ unfinishedName k := fun c member inName => by
    rcases chars c inName with begins | digit
    · exact (by decide : ∀ c ∈ ['/', '\x00'], c ∉ ['.', 't', 'm', 'p']) c member begins
    · exact absurd digit ((by decide : ∀ c ∈ ['/', '\x00'], c.isDigit ≠ true) c member)
  have few' : 1000000 + k < 10 ^ 7 := by
    unfold unfinishedTries at few
    omega
  have digits : (Text.decimal (1000000 + k)).length ≤ 7 :=
    (Nat.length_toDigits_le_iff (by decide) (by decide)).mpr few'
  refine ⟨⟨⟨nofun, others '/' (by simp)⟩, others '\x00' (by simp), nofun, nofun⟩, ?_⟩
  rw [ascii.byteLength_eq]
  unfold unfinishedName
  rw [List.length_append, List.length_drop]
  have begins : ".tmp".toList.length = 4 := by decide
  omega

/-- There is room in a directory for files with names that fit. -/
def HasRoom (directory : Text) : Prop :=
  Text.byteLength directory + 1 + longestName ≤ longestPath

theorem HasRoom.joinPath (room : HasRoom directory) (fits : Text.byteLength name ≤ longestName) :
    Text.byteLength (joinPath directory name) ≤ longestPath := by
  unfold HasRoom at room
  unfold Relabel.joinPath
  split
  · omega
  · split
    · simp only [Text.byteLength_append]
      omega
    · simp only [Text.byteLength_append]
      have one : Text.byteLength ['/'] = 1 := by decide
      omega

section Room

variable (reaches : disk.Reaches directory place) (room : HasRoom directory)

include reaches room

/-- An unfinished file is made, unless all names for such files are in use. The induction is on the names that are
tried. -/
theorem createUnfinished_cases {k tries : Nat} (few : k + tries ≤ unfinishedTries) :
    (createUnfinished directory k tries : OnDisk _) disk = (.error .alreadyThere, disk)
      ∨ ∃ path place', disk.creatable path = .ok place'
        ∧ (createUnfinished directory k tries : OnDisk _) disk = (.ok path, disk.put place' (.file [])) := by
  induction tries generalizing k with
  | zero => exact Or.inl rfl
  | succ tries ih =>
    obtain ⟨isName, short⟩ := fileName_unfinishedName (k := k) (by omega)
    have fits : Text.byteLength (unfinishedName k) ≤ longestName := short.trans (by decide)
    have acts : (createFile (joinPath directory (unfinishedName k)) : OnDisk _) disk
        = disk.create (joinPath directory (unfinishedName k)) := rfl
    unfold createUnfinished
    simp only [OnDisk.bind_apply, acts, Disk.create]
    rcases reaches.creatable_cases isName (room.joinPath fits) fits with creatable | taken
    · exact Or.inr ⟨_, _, creatable, by rw [creatable]; rfl⟩
    · rw [taken]
      exact ih (by omega)

/-- **The errors that a file may end in** where nothing is refused. -/
theorem replaceFile_error {content : Bytes} {error : FileError} (isName : Disk.FileName name)
    (failed : ((replaceFile directory name content : OnDisk _) disk).1 = .error error) :
    error = .alreadyThere
      ∨ error = if longestName < Text.byteLength name then .nameTooLong else .isDirectory := by
  unfold replaceFile at failed
  simp only [OnDisk.bind_apply] at failed
  have tries : 0 + unfinishedTries ≤ unfinishedTries := by simp
  rcases createUnfinished_cases reaches room tries with created | ⟨path, place', creatable, created⟩
  · rw [created] at failed
    exact Or.inl (Except.error.inj failed).symm
  right
  have free := Disk.free_of_writable (Disk.creatable_facts creatable).2
  have there : ∀ content', (disk.put place' (.file content')).Reaches directory place :=
    fun content' => reaches.mono (Disk.keepsDirectories_put free)
  have written : (writeFile path content : OnDisk _) (disk.put place' (.file []))
      = (.ok (), disk.put place' (.file content)) := Disk.write_unfinished creatable
  have moves : (moveFile path (joinPath directory name) : OnDisk _) (disk.put place' (.file content))
      = (disk.put place' (.file content)).move path (joinPath directory name) := rfl
  rw [created] at failed
  simp only [finishFile, OnDisk.bind_apply, written, moves, Disk.move] at failed
  cases moved : (disk.put place' (.file content)).moved path (joinPath directory name) with
  | ok disk' =>
    rw [moved] at failed
    exact absurd failed nofun
  | error error' =>
    rw [moved] at failed
    obtain rfl : error' = error := Except.error.inj failed
    have refused := Disk.moved_unfinished_error creatable moved
    split
    next long => exact Except.error.inj (refused.symm.trans ((there content).writable_tooLong isName long))
    next short =>
      have fits := Nat.not_lt.mp short
      rcases (there content).writable_cases isName (room.joinPath fits) fits with allowed | isDirectory
      · exact absurd (refused.symm.trans allowed) nofun
      · exact Except.error.inj (refused.symm.trans isDirectory)

end Room

end OnDisk

end Relabel
