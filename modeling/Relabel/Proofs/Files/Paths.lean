/-
**Paths of files in a directory.**

The path of a file is what its directory begins with, followed by the name. It leads to the place with that
name in the place that the directory leads to. So different names lead to different places.

* `joinPath_eq`: the path of a file, from the path of its directory.
* `ScriptPlace.joinPath_path`: a script is stored where the reference to it leads from the output directory.
* `splitOn_directoryStart`: the names of a path below a directory.
* `SingleName`: names that no slash divides.
* `Disk.locate_below`, `Disk.locate_joinPath`: where the path of a file leads.
* `Disk.place_ne_of_name_ne`: different names lead to different places.
-/

import Relabel.Proofs.Files.Disk
import Relabel.Proofs.Script.Names
import Relabel.Proofs.Text.Words
import Relabel.Script.Relocate

namespace Relabel

/-! ### Joined paths -/

/-- What the paths of all files in a directory begin with. -/
def directoryStart (directory : Text) : Text :=
  if directory = [] || directory.getLast? = some '/' then directory else directory ++ ['/']

/-- **The path of a file** is the beginning that its directory gives, and its name. -/
theorem joinPath_eq {name : Text} (relative : name.head? ≠ some '/') (directory : Text) :
    joinPath directory name = directoryStart directory ++ name := by
  unfold joinPath directoryStart
  by_cases none : directory = []
  · simp [none]
  · by_cases slashed : directory.getLast? = some '/'
    · simp [relative, none, slashed]
    · simp [relative, none, slashed]

theorem directoryStart_cases (directory : Text) :
    directoryStart directory = [] ∨ ∃ front, directoryStart directory = front ++ ['/'] := by
  unfold directoryStart
  split
  next enough =>
    rw [Bool.or_eq_true, decide_eq_true_eq, decide_eq_true_eq] at enough
    exact enough.imp id List.getLast?_eq_some_iff.mp
  next => exact Or.inr ⟨directory, rfl⟩

/-! ### References to scripts -/

theorem head?_bareDirectory (directory : Text) : (bareDirectory directory).head? ≠ some '/' := by
  intro slash
  obtain ⟨tail, parts⟩ := List.dropWhile_suffix (· == '/') (l := (Text.trimStart (· == '/') directory).reverse)
  have front : Text.trimStart (· == '/') directory = bareDirectory directory ++ tail.reverse := by
    rw [← List.reverse_reverse (Text.trimStart _ _), ← parts, List.reverse_append]
    rfl
  have same : (Text.trimStart (· == '/') directory).head? = some '/' := by
    rw [front, List.head?_append, slash]
    rfl
  have other := List.head?_dropWhile_not (· == '/') directory
  unfold Text.trimStart at same
  rw [same] at other
  simp at other

theorem getLast?_bareDirectory (directory : Text) : (bareDirectory directory).getLast? ≠ some '/' := by
  intro slash
  have same : ((Text.trimStart (· == '/') directory).reverse.dropWhile (· == '/')).head? = some '/' := by
    rw [← slash]
    exact List.getLast?_reverse.symm
  have other := List.head?_dropWhile_not (· == '/') (Text.trimStart (· == '/') directory).reverse
  rw [same] at other
  simp at other

/-- **A script is stored where the reference to it leads** from the output directory. -/
theorem ScriptPlace.joinPath_path (place : ScriptPlace) {name : Text} (relative : name.head? ≠ some '/') :
    joinPath place.path name = joinPath place.output (referenceTo place.directory name) := by
  have begins := head?_bareDirectory place.directory
  have ends := getLast?_bareDirectory place.directory
  unfold ScriptPlace.path referenceTo
  rw [joinPath_eq relative, joinPath_eq begins]
  cases bare : bareDirectory place.directory with
  | nil =>
    rw [joinPath_eq relative, List.append_nil]
    rcases directoryStart_cases place.output with same | ⟨front, same⟩
    · rw [same]
      rfl
    · rw [same]
      simp [directoryStart]
  | cons c rest =>
    rw [bare] at begins ends
    have start : directoryStart (directoryStart place.output ++ c :: rest)
        = directoryStart place.output ++ c :: rest ++ ['/'] := by
      unfold directoryStart
      rw [if_neg]
      simpa [List.getLast?_append] using ends
    have relative' : (c :: rest ++ ['/'] ++ name).head? ≠ some '/' := begins
    rw [start, joinPath_eq relative']
    simp

/-! ### The names of a path -/

/-- A path that does not end with a slash has none to be taken away. -/
theorem trimEnd_of_getLast?_ne {path : Text} (ends : path.getLast? ≠ some '/') :
    Text.trimEnd (· == '/') path = path := by
  unfold Text.trimEnd
  rw [← List.head?_reverse] at ends
  cases reversed : path.reverse with
  | nil => exact (List.reverse_eq_nil_iff.mp reversed).symm
  | cons c rest =>
    rw [reversed, List.head?_cons] at ends
    have other : (c == '/') = false := beq_eq_false_iff_ne.mpr fun same => ends (same ▸ rfl)
    rw [List.dropWhile_cons_of_neg (by simp [other]), ← reversed, List.reverse_reverse]

/-- The names along which the path of a directory leads. -/
def directoryNames (directory : Text) : List Text :=
  (Text.splitOn '/' (directoryStart directory)).dropLast

/-- The names of a path below a directory follow those of the directory. -/
theorem splitOn_directoryStart (directory below : Text) :
    Text.splitOn '/' (directoryStart directory ++ below) = directoryNames directory ++ Text.splitOn '/' below := by
  unfold directoryNames
  rcases directoryStart_cases directory with same | ⟨front, same⟩
  · rw [same]
    rfl
  · rw [same, List.append_assoc, List.singleton_append, Text.splitOn_append, Text.splitOn_append]
    simp [Text.splitOn, Text.splitWhen]

theorem splitOn_directoryStart_self (directory : Text) :
    Text.splitOn '/' (directoryStart directory) = directoryNames directory ++ [[]] := by
  have joined := splitOn_directoryStart directory []
  rwa [List.append_nil] at joined

theorem beginning_directoryStart {below : Text} (relative : below.head? ≠ some '/') (directory : Text) :
    Disk.beginning (directoryStart directory ++ below) = Disk.beginning (directoryStart directory) := by
  unfold Disk.beginning isAbsolute
  rcases directoryStart_cases directory with same | ⟨front, same⟩
  · rw [same]
    simp [relative]
  · rw [same, List.head?_append_of_ne_nil _ (by simp)]

/-- A path does not end with a slash if its last name is not empty. -/
theorem getLast?_ne_of_splitOn {path name : Text} {front : List Text}
    (names : Text.splitOn '/' path = front ++ [name]) (nonempty : name ≠ []) : path.getLast? ≠ some '/' := by
  intro slash
  obtain ⟨before, rfl⟩ := List.getLast?_eq_some_iff.mp slash
  rw [Text.splitOn_append] at names
  have last := (List.append_inj' names rfl).2
  exact nonempty (List.cons.inj last).1.symm

/-! ### Names -/

/-- A name that no slash divides. -/
structure SingleName (name : Text) : Prop where
  nonempty : name ≠ []
  whole : '/' ∉ name

theorem SingleName.relative {name : Text} (isSingle : SingleName name) : name.head? ≠ some '/' :=
  fun slash => isSingle.whole (List.mem_of_head? slash)

namespace PlainName

variable {name : Text} (isPlain : PlainName name)

include isPlain

theorem single : SingleName name := by
  refine ⟨?_, fun member => absurd (isPlain.plain '/' member) (by decide)⟩
  obtain ⟨_, c, isHead, _⟩ := isPlain
  rintro rfl
  simp at isHead

theorem relative : name.head? ≠ some '/' :=
  isPlain.single.relative

theorem ne_sameward : name ≠ sameward := by
  obtain ⟨_, c, isHead, notDot⟩ := isPlain
  rintro rfl
  exact notDot (Option.some.inj isHead).symm

theorem ne_upward : name ≠ upward := by
  obtain ⟨_, c, isHead, notDot⟩ := isPlain
  rintro rfl
  exact notDot (Option.some.inj isHead).symm

theorem place_eq (directory : Location) (slashed : Bool) :
    (⟨directory, name, slashed⟩ : Disk.Target).place = name :: directory := by
  unfold Disk.Target.place
  rw [if_neg isPlain.ne_sameward, if_neg isPlain.ne_upward]

end PlainName

/-! ### Places -/

namespace Disk

variable {disk : Disk} {directory name : Text} {target : Target}

/-- **Where a path below a directory leads**: to its last name, in the place that the other names lead to. -/
theorem locate_below {below : Text} {front : List Text} (relative : below.head? ≠ some '/')
    (names : Text.splitOn '/' below = front ++ [name]) (nonempty : name ≠ [])
    (located : disk.locate (directoryStart directory ++ below) = .ok target) :
    ∃ place, disk.follow (beginning (directoryStart directory)) (directoryNames directory ++ front) = .ok place
      ∧ target = ⟨place, name, false⟩ := by
  have allNames : Text.splitOn '/' (directoryStart directory ++ below) = directoryNames directory ++ front ++ [name] := by
    rw [splitOn_directoryStart, names, List.append_assoc]
  have ends := getLast?_ne_of_splitOn allNames nonempty
  have untrimmed := trimEnd_of_getLast?_ne ends
  obtain ⟨-, written, -, ⟨slashes, -⟩ | ⟨-, place, followed, rfl⟩⟩ := locate_eq_ok_iff.mp located
  · obtain ⟨c, last⟩ := Option.ne_none_iff_exists'.mp (mt List.getLast?_eq_none_iff.mp written)
    have slash := of_decide_eq_true (List.all_eq_true.mp slashes c (List.mem_of_getLast? last))
    exact absurd (slash ▸ last) ends
  · rw [untrimmed, allNames, beginning_directoryStart relative, List.dropLast_concat] at followed
    refine ⟨place, followed, ?_⟩
    rw [untrimmed, allNames, decide_eq_false ends, List.getLastD_concat]

/-- **Where the path of a file leads**: to its name in the directory. -/
theorem locate_joinPath (isSingle : SingleName name) (located : disk.locate (joinPath directory name) = .ok target) :
    ∃ place, disk.follow (beginning (directoryStart directory)) (directoryNames directory) = .ok place
      ∧ target = ⟨place, name, false⟩ := by
  rw [joinPath_eq isSingle.relative] at located
  have names : Text.splitOn '/' name = [] ++ [name] := Text.splitOn_of_notMem isSingle.whole
  have found := locate_below isSingle.relative names isSingle.nonempty located
  rwa [List.append_nil] at found

/-- **Different names lead to different places.** -/
theorem place_ne_of_name_ne {first second : Text} {target target' : Target} (isPlain : PlainName first)
    (isPlain' : PlainName second) (located : disk.locate (joinPath directory first) = .ok target)
    (located' : disk.locate (joinPath directory second) = .ok target') (different : first ≠ second) :
    target.place ≠ target'.place := by
  obtain ⟨place, _, rfl⟩ := locate_joinPath isPlain.single located
  obtain ⟨place', _, rfl⟩ := locate_joinPath isPlain'.single located'
  rw [isPlain.place_eq, isPlain'.place_eq]
  exact fun same => different (List.cons.inj same).1

end Disk

end Relabel
