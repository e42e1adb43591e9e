/-
**Operations on a disk.**

An operation that succeeds puts an entry at one place, and all other places keep theirs. Paths are followed
through directories, and no operation takes a directory away. So a path that leads to a place leads there
later as well.

* `Disk.at?_put`, `Disk.erase_put`: what is at the places of a disk after a change.
* `Disk.KeepsDirectories`: disks on which at least the same directories are.
* `Disk.locate_eq_ok_iff`, `Disk.locate_mono`: where a path leads, and that it leads there on such disks.
* `Disk.vacant_eq_ok_iff`, `Disk.writable_eq_ok_iff`, `Disk.read_eq_ok_iff`: when operations succeed.
-/

import Mathlib.Tactic
import Relabel.Files.Disk

namespace Relabel

namespace Disk

variable {disk disk' : Disk} {place other : Location} {entry : Entry} {path : Text}

/-! ### Places -/

theorem lookup_cons_self (entries : List (Location × Entry)) :
    ((place, entry) :: entries).lookup place = some entry := by
  rw [List.lookup_cons, beq_self_eq_true]

theorem lookup_cons_of_ne (different : other ≠ place) (entries : List (Location × Entry)) :
    ((place, entry) :: entries).lookup other = entries.lookup other := by
  rw [List.lookup_cons, beq_eq_false_iff_ne.mpr different]

theorem lookup_filter_ne (different : other ≠ place) (entries : List (Location × Entry)) :
    (entries.filter (·.1 ≠ place)).lookup other = entries.lookup other := by
  induction entries with
  | nil => rfl
  | cons first entries ih =>
    rcases first with ⟨key, value⟩
    by_cases same : key = place
    · subst same
      rw [List.filter_cons_of_neg (by simp), ih, lookup_cons_of_ne different]
    · rw [List.filter_cons_of_pos (by simpa using same), List.lookup_cons, List.lookup_cons, ih]

/-- What is at each place after an entry has been put at one. -/
theorem at?_put (free : disk.at? place ≠ some .directory) (other : Location) :
    (disk.put place entry).at? other = if other = place then some entry else disk.at? other := by
  unfold at? at free ⊢
  by_cases same : other = place
  · subst same
    split at free
    · exact absurd rfl free
    next loose =>
      rw [if_neg loose, if_pos rfl]
      exact lookup_cons_self _
  · rw [if_neg same]
    split
    · rfl
    · exact (lookup_cons_of_ne same _).trans (lookup_filter_ne same _)

/-- No entry is at a vacant place. -/
theorem filter_ne_of_vacant (vacant : disk.at? place = none) :
    disk.entries.filter (·.1 ≠ place) = disk.entries := by
  unfold at? at vacant
  split at vacant
  · simp at vacant
  · rw [List.filter_eq_self]
    intro first member
    have different := List.lookup_eq_none_iff.mp vacant first member
    exact decide_eq_true (bne_iff_ne.mp different).symm

/-- What has been put at a vacant place is taken away again. -/
theorem erase_put (vacant : disk.at? place = none) : (disk.put place entry).erase place = disk := by
  have kept := filter_ne_of_vacant vacant
  unfold put erase
  rw [List.filter_cons_of_neg (by simp), kept, kept]

theorem put_put (entry' : Entry) : (disk.put place entry).put place entry' = disk.put place entry' := by
  unfold put
  rw [List.filter_cons_of_neg (by simp), List.filter_filter]
  simp

/-! ### Directories -/

/-- The directories of a disk are on the other one as well. -/
def KeepsDirectories (disk disk' : Disk) : Prop :=
  ∀ place, disk.at? place = some .directory → disk'.at? place = some .directory

theorem KeepsDirectories.refl (disk : Disk) : KeepsDirectories disk disk :=
  fun _ isDirectory => isDirectory

theorem KeepsDirectories.trans {disk'' : Disk} (first : KeepsDirectories disk disk')
    (second : KeepsDirectories disk' disk'') : KeepsDirectories disk disk'' :=
  fun place isDirectory => second place (first place isDirectory)

/-- An entry at a place that was no directory takes no directory away. -/
theorem keepsDirectories_put (free : disk.at? place ≠ some .directory) :
    KeepsDirectories disk (disk.put place entry) := by
  intro other isDirectory
  have different : other ≠ place := fun same => free (same ▸ isDirectory)
  rw [at?_put free, if_neg different, isDirectory]

/-- A file makes no directory. -/
theorem keepsDirectories_of_put {content : Bytes} (free : disk.at? place ≠ some .directory) :
    KeepsDirectories (disk.put place (.file content)) disk := by
  intro other isDirectory
  rw [at?_put free] at isDirectory
  split at isDirectory
  · simp at isDirectory
  · exact isDirectory

/-- **Where a path leads.** One of slashes only leads to the root. Any other leads along its names, up to the
last. -/
theorem locate_eq_ok_iff {target : Target} :
    disk.locate path = .ok target
      ↔ '\x00' ∉ path ∧ path ≠ [] ∧ Text.byteLength path ≤ longestPath
          ∧ (path.all (· = '/') = true ∧ target = ⟨[rootName], sameward, true⟩
            ∨ path.all (· = '/') = false
              ∧ ∃ directory, disk.follow (beginning path) (Text.splitOn '/' (Text.trimEnd (· == '/') path)).dropLast
                  = .ok directory
                ∧ target = ⟨directory, (Text.splitOn '/' (Text.trimEnd (· == '/') path)).getLastD [],
                    path.getLast? = some '/'⟩) := by
  unfold locate
  by_cases zero : '\x00' ∈ path
  · simp [zero]
  by_cases empty : path = []
  · simp [empty]
  by_cases long : longestPath < Text.byteLength path
  · simp [zero, empty, long, Nat.not_le.mpr long]
  rw [if_neg (by simpa using zero), if_neg empty, if_neg long]
  cases root : path.all (· = '/') with
  | true => simp [zero, empty, Nat.not_lt.mp long, eq_comm]
  | false =>
    rw [if_neg Bool.false_ne_true]
    dsimp only
    cases disk.follow (beginning path) (Text.splitOn '/' (Text.trimEnd (· == '/') path)).dropLast with
    | error error => simp [Except.map]
    | ok directory => simp [zero, empty, Nat.not_lt.mp long, Except.map, eq_comm]

section Mono

variable (keeps : KeepsDirectories disk disk')

include keeps

/-- Names lead to the same place if no directory is taken away. The induction is on the names. -/
theorem follow_mono {names : List Text} {start place : Location} (found : disk.follow start names = .ok place) :
    disk'.follow start names = .ok place := by
  induction names generalizing start with
  | nil => exact found
  | cons name names ih =>
    unfold follow at found ⊢
    split at found
    next same =>
      rw [if_pos same]
      exact ih found
    next notSame =>
      rw [if_neg notSame]
      split at found
      next up =>
        rw [if_pos up]
        exact ih found
      next notUp =>
        rw [if_neg notUp]
        split at found
        next => simp at found
        next short =>
          rw [if_neg short]
          split at found
          next isDirectory =>
            rw [keeps _ isDirectory]
            exact ih found
          next => simp at found
          next => simp at found

/-- **A path leads to the same place** if no directory is taken away. -/
theorem locate_mono {target : Target} (found : disk.locate path = .ok target) : disk'.locate path = .ok target := by
  obtain ⟨noZero, nonempty, short, located⟩ := locate_eq_ok_iff.mp found
  refine locate_eq_ok_iff.mpr ⟨noZero, nonempty, short, located.imp_right ?_⟩
  rintro ⟨notRoot, place, followed, rfl⟩
  exact ⟨notRoot, place, follow_mono keeps followed, rfl⟩

end Mono

/-! ### Results -/

theorem vacant_eq_ok_iff :
    disk.vacant path = .ok place
      ↔ ∃ target, disk.locate path = .ok target ∧ target.isDots = false ∧ target.isTooLong = false
          ∧ disk.at? target.place = none ∧ target.place = place := by
  unfold vacant
  cases located : disk.locate path with
  | error error => simp [bind, Except.bind]
  | ok target =>
    simp only [bind, Except.bind, Except.ok.injEq, exists_eq_left']
    split
    next dots => simp [dots]
    next notDots =>
      split
      next long => simp [long]
      next short =>
        split
        next taken =>
          have there : disk.at? target.place ≠ none := Option.isSome_iff_ne_none.mp taken
          simp [there]
        next free =>
          have none : disk.at? target.place = none := Option.not_isSome_iff_eq_none.mp free
          simp [notDots, short, none]

theorem writable_eq_ok_iff :
    disk.writable path = .ok place
      ↔ ∃ target, disk.locate path = .ok target ∧ target.isDots = false ∧ target.slashed = false
          ∧ target.isTooLong = false ∧ disk.at? target.place ≠ some .directory ∧ target.place = place := by
  unfold writable
  cases located : disk.locate path with
  | error error => simp [bind, Except.bind]
  | ok target =>
    simp only [bind, Except.bind, Except.ok.injEq, exists_eq_left']
    split
    next refused =>
      rcases Bool.or_eq_true_iff.mp refused with dots | slashed
      · simp [dots]
      · simp [slashed]
    next allowed =>
      obtain ⟨notDots, notSlashed⟩ := Bool.or_eq_false_iff.mp (Bool.not_eq_true _ ▸ allowed)
      split
      next long => simp [long]
      next short =>
        split
        next taken => simp [taken]
        next free => simp [notDots, notSlashed, short, free]

theorem read_eq_ok_iff {content : Bytes} :
    disk.read path = .ok content
      ↔ ∃ target, disk.locate path = .ok target ∧ target.slashed = false ∧ target.isTooLong = false
          ∧ disk.at? target.place = some (.file content) := by
  unfold read find
  cases located : disk.locate path with
  | error error => simp [bind, Except.bind]
  | ok target =>
    simp only [bind, Except.bind, Except.ok.injEq, exists_eq_left']
    by_cases long : target.isTooLong = true
    · simp [long]
    · cases found : disk.at? target.place with
      | none => simp [long]
      | some entry =>
        cases entry with
        | directory => simp [long]
        | file content' => cases slashed : target.slashed <;> simp [long]

/-- A path leads to a place. -/
def LeadsTo (disk : Disk) (path : Text) (place : Location) : Prop :=
  ∃ target, disk.locate path = .ok target ∧ target.place = place

theorem LeadsTo.mono (keeps : KeepsDirectories disk disk') (leads : disk.LeadsTo path place) :
    disk'.LeadsTo path place := by
  obtain ⟨target, located, same⟩ := leads
  exact ⟨target, locate_mono keeps located, same⟩

theorem LeadsTo.unique (leads : disk.LeadsTo path place) (again : disk.LeadsTo path other) : place = other := by
  obtain ⟨target, located, rfl⟩ := leads
  obtain ⟨target', located', rfl⟩ := again
  rw [Except.ok.inj (located.symm.trans located')]

theorem free_of_writable (writable : disk.writable path = .ok place) : disk.at? place ≠ some .directory := by
  obtain ⟨target, _, _, _, _, free, rfl⟩ := writable_eq_ok_iff.mp writable
  exact free

/-- **What has been written is read.** -/
theorem read_put {content : Bytes} (writable : disk.writable path = .ok place) :
    (disk.put place (.file content)).read path = .ok content := by
  have free := free_of_writable writable
  obtain ⟨target, located, _, notSlashed, short, _, rfl⟩ := writable_eq_ok_iff.mp writable
  refine read_eq_ok_iff.mpr ⟨target, locate_mono (keepsDirectories_put free) located, notSlashed, short, ?_⟩
  rw [at?_put free, if_pos rfl]

/-- A file at another place is read as before. -/
theorem read_put_of_ne {content : Bytes} {target : Target} (free : disk.at? place ≠ some .directory)
    (located : disk.locate path = .ok target) (different : target.place ≠ place)
    (read : disk.read path = .ok content) : (disk.put place entry).read path = .ok content := by
  obtain ⟨_, located', notSlashed, short, found⟩ := read_eq_ok_iff.mp read
  obtain rfl := Except.ok.inj (located.symm.trans located')
  refine read_eq_ok_iff.mpr ⟨target, locate_mono (keepsDirectories_put free) located, notSlashed, short, ?_⟩
  rw [at?_put free, if_neg different, found]

/-! ### Unfinished files -/

section Unfinished

variable {target : Text} {content content' : Bytes} (creatable : disk.creatable path = .ok place)

include creatable

/-- An unfinished file is made where nothing is, and can be written. -/
theorem creatable_facts : disk.at? place = none ∧ disk.writable path = .ok place := by
  unfold Disk.creatable at creatable
  cases vacant : disk.vacant path with
  | error error =>
    rw [vacant] at creatable
    simp [bind, Except.bind] at creatable
  | ok place' =>
    rw [vacant] at creatable
    have writable : disk.writable path = .ok place := creatable
    obtain ⟨_, located, _, _, none, rfl⟩ := vacant_eq_ok_iff.mp vacant
    obtain ⟨_, located', _, _, _, _, rfl⟩ := writable_eq_ok_iff.mp writable
    obtain rfl := Except.ok.inj (located.symm.trans located')
    exact ⟨none, writable⟩

theorem write_unfinished :
    (disk.put place (.file content)).write path content' = (.ok (), disk.put place (.file content')) := by
  obtain ⟨none, writable⟩ := creatable_facts creatable
  have free := free_of_writable writable
  obtain ⟨target, located, notDots, notSlashed, short, _, rfl⟩ := writable_eq_ok_iff.mp writable
  have again : (disk.put target.place (.file content)).writable path = .ok target.place := by
    refine writable_eq_ok_iff.mpr
      ⟨target, locate_mono (keepsDirectories_put free) located, notDots, notSlashed, short, ?_, rfl⟩
    rw [at?_put free, if_pos rfl]
    simp
  unfold Disk.write
  rw [again]
  exact congrArg (Prod.mk _) (put_put _)

theorem remove_unfinished : (disk.put place (.file content)).remove path = disk := by
  obtain ⟨none, writable⟩ := creatable_facts creatable
  have read : (disk.put place (.file content)).read path = .ok content := read_put writable
  have free := free_of_writable writable
  obtain ⟨target, located, _, _, _, _, rfl⟩ := writable_eq_ok_iff.mp writable
  unfold Disk.remove
  rw [read, locate_mono (keepsDirectories_put free) located]
  exact erase_put none

/-- **An unfinished file that is moved** is written where it is moved to. -/
theorem moved_unfinished {disk' : Disk} (moved : (disk.put place (.file content)).moved path target = .ok disk') :
    ∃ place', disk.writable target = .ok place' ∧ disk' = disk.put place' (.file content) := by
  obtain ⟨none, writable⟩ := creatable_facts creatable
  have read : (disk.put place (.file content)).read path = .ok content := read_put writable
  have free := free_of_writable writable
  obtain ⟨origin, located, _, _, _, _, rfl⟩ := writable_eq_ok_iff.mp writable
  unfold Disk.moved at moved
  rw [read, locate_mono (keepsDirectories_put free) located] at moved
  cases allowed : (disk.put origin.place (.file content)).writable target with
  | error error =>
    rw [allowed] at moved
    simp [bind, Except.bind] at moved
  | ok place' =>
    rw [allowed] at moved
    refine ⟨place', ?_, ?_⟩
    · obtain ⟨target', located', notDots, notSlashed, short, free', rfl⟩ := writable_eq_ok_iff.mp allowed
      refine writable_eq_ok_iff.mpr
        ⟨target', locate_mono (keepsDirectories_of_put free) located', notDots, notSlashed, short, ?_, rfl⟩
      rw [at?_put free] at free'
      split at free'
      next same =>
        rw [same, none]
        simp
      next => exact free'
    · rw [← Except.ok.inj moved, erase_put none]

end Unfinished

end Disk

end Relabel
