/-
**Paths below a directory.**

A path that takes no step back stays below the directory that it begins in. This can be read off its names
alone, and it is so on every disk: the place that it leads to has the names of the path in front of those of the
directory. The reference to a script is such a path.

* `realNames`: the names of a path that lead farther.
* `normalNames`: the names of a path when steps back are carried out; `LiesInside` compares them.
* `liesInside_of_below`: a path without steps back lies inside its directory.
* `Disk.follow_real`: where names without steps back lead.
* `splitOn_referenceTo`, `plain_of_mem_referenceTo`: the names and the characters of a reference.
* `Disk.locate_referenceTo`: where a reference leads.
-/

import Relabel.Proofs.Files.Paths

namespace Relabel

/-! ### Names that lead farther -/

/-- The names that lead farther. The others lead to the same directory. -/
def realNames (names : List Text) : List Text :=
  names.filter fun name => name ≠ [] && name ≠ sameward

@[simp]
theorem realNames_nil : realNames [] = [] := rfl

theorem realNames_cons_of_stays {name : Text} (stays : name = [] ∨ name = sameward) (names : List Text) :
    realNames (name :: names) = realNames names := by
  refine List.filter_cons_of_neg ?_
  rcases stays with rfl | rfl <;> decide

theorem realNames_cons_of_leads {name : Text} (nonempty : name ≠ []) (notDot : name ≠ sameward) (names : List Text) :
    realNames (name :: names) = name :: realNames names :=
  List.filter_cons_of_pos (by simp [nonempty, notDot])

theorem realNames_append (front back : List Text) : realNames (front ++ back) = realNames front ++ realNames back := by
  unfold realNames
  exact List.filter_append front back

theorem realNames_of_forall_nil {names : List Text} (empty : ∀ name ∈ names, name = []) : realNames names = [] :=
  List.filter_eq_nil_iff.mpr fun name member => by simp [empty name member]

/-! ### Names without steps back -/

/-- The names that have been reached, last one first, when one more name has been read. A step back takes the
last one away. In front of all names it leads out of the directory where the path begins, and from the root it
leads nowhere. -/
def enterName (absolute : Bool) (reached : List Text) (name : Text) : List Text :=
  if name = [] ∨ name = sameward then reached
  else if name = upward then
    match reached with
    | [] => if absolute then [] else [upward]
    | last :: before => if last = upward then upward :: last :: before else before
  else name :: reached

/-- The names of a path when steps back are carried out. -/
def normalNames (path : Text) : List Text :=
  ((Text.splitOn '/' path).foldl (enterName (isAbsolute path)) []).reverse

/-- Whether a path leads, as its names tell, to something in a directory, and not to the directory itself. -/
def LiesInside (directory path : Text) : Prop :=
  isAbsolute path = isAbsolute directory
    ∧ ∃ names, normalNames path = normalNames directory ++ names ∧ names ≠ [] ∧ upward ∉ names

/-- Names without steps back are reached one after the other. The induction is on the names. -/
theorem foldl_enterName {names : List Text} (forward : upward ∉ names) (absolute : Bool) (reached : List Text) :
    names.foldl (enterName absolute) reached = (realNames names).reverse ++ reached := by
  induction names generalizing reached with
  | nil => rfl
  | cons name names ih =>
    obtain ⟨notUp, behind⟩ := not_or.mp (List.mem_cons.not.mp forward)
    rw [List.foldl_cons, ih behind]
    unfold enterName
    by_cases stays : name = [] ∨ name = sameward
    · rw [realNames_cons_of_stays stays, if_pos stays]
    · obtain ⟨nonempty, notDot⟩ := not_or.mp stays
      rw [realNames_cons_of_leads nonempty notDot, if_neg stays, if_neg (Ne.symm notUp)]
      simp

/-- What a directory begins its paths with reaches what the directory reaches. -/
theorem foldl_directoryNames (directory : Text) (absolute : Bool) :
    (directoryNames directory).foldl (enterName absolute) []
      = (Text.splitOn '/' directory).foldl (enterName absolute) [] := by
  have parts := splitOn_directoryStart_self directory
  unfold directoryStart at parts
  split at parts
  next =>
    rw [parts, List.foldl_append]
    rfl
  next =>
    rw [Text.splitOn_append] at parts
    rw [(List.append_inj' parts rfl).1]

/-- **A path without steps back** lies inside the directory in which it begins. -/
theorem liesInside_of_below {directory below : Text} (relative : below.head? ≠ some '/')
    (forward : upward ∉ Text.splitOn '/' below) (leads : realNames (Text.splitOn '/' below) ≠ []) :
    LiesInside directory (joinPath directory below) := by
  rw [joinPath_eq relative]
  have absolute : isAbsolute (directoryStart directory ++ below) = isAbsolute directory := by
    unfold isAbsolute directoryStart
    by_cases none : directory = []
    · simp [none, relative]
    · split
      · rw [List.head?_append_of_ne_nil _ none]
      · rw [List.append_assoc, List.head?_append_of_ne_nil _ none]
  refine ⟨absolute, realNames (Text.splitOn '/' below), ?_, leads, fun member => ?_⟩
  · unfold normalNames
    rw [absolute, splitOn_directoryStart, List.foldl_append, foldl_directoryNames, foldl_enterName forward,
      List.reverse_append, List.reverse_reverse]
  · exact forward (List.mem_of_mem_filter member)

/-! ### Places -/

namespace Disk

variable {disk : Disk} {start place : Location}

theorem follow_append (front back : List Text) :
    disk.follow start (front ++ back) = (disk.follow start front).bind fun middle => disk.follow middle back := by
  induction front generalizing start with
  | nil => rfl
  | cons name front ih =>
    rw [List.cons_append, follow, follow]
    split
    · exact ih
    · split
      · exact ih
      · split
        · rfl
        · split
          · exact ih
          · rfl
          · rfl

/-- **Where names without steps back lead**: to the place that has them in front of those of the beginning. The
induction is on the names. -/
theorem follow_real {names : List Text} (forward : upward ∉ names) (followed : disk.follow start names = .ok place) :
    place = (realNames names).reverse ++ start := by
  induction names generalizing start with
  | nil => exact (Except.ok.inj followed).symm
  | cons name names ih =>
    obtain ⟨notUp, behind⟩ := not_or.mp (List.mem_cons.not.mp forward)
    unfold follow at followed
    simp only [Bool.or_eq_true, decide_eq_true_eq, if_neg (Ne.symm notUp)] at followed
    split at followed
    next stays =>
      rw [realNames_cons_of_stays stays, ih behind followed]
    next leads =>
      obtain ⟨nonempty, notDot⟩ := not_or.mp leads
      rw [realNames_cons_of_leads nonempty notDot]
      split at followed
      · simp at followed
      · split at followed
        · rw [ih behind followed]
          simp
        · simp at followed
        · simp at followed

end Disk

/-! ### References to scripts -/

/-- Slashes at the end of a path add empty names only. -/
theorem splitOn_slashes {slashes : Text} (all : ∀ c ∈ slashes, c = '/') (path : Text) :
    ∃ empty, Text.splitOn '/' (path ++ slashes) = Text.splitOn '/' path ++ empty ∧ ∀ name ∈ empty, name = [] := by
  induction slashes generalizing path with
  | nil => exact ⟨[], by simp, by simp⟩
  | cons c slashes ih =>
    obtain rfl := all c List.mem_cons_self
    obtain ⟨empty, parts, nothing⟩ := ih (fun d member => all d (List.mem_cons_of_mem _ member)) []
    refine ⟨[] :: empty, ?_, ?_⟩
    · rw [Text.splitOn_append, show slashes = [] ++ slashes from rfl, parts]
      rfl
    · simpa using nothing

/-- A path without the slashes at its end. -/
theorem exists_trimEnd (path : Text) :
    ∃ slashes, path = Text.trimEnd (· == '/') path ++ slashes ∧ ∀ c ∈ slashes, c = '/' := by
  refine ⟨(path.reverse.takeWhile (· == '/')).reverse, ?_, fun c member => ?_⟩
  · unfold Text.trimEnd
    rw [← List.reverse_append, List.takeWhile_append_dropWhile, List.reverse_reverse]
  · have slash := List.mem_takeWhile_imp (List.mem_reverse.mp member)
    exact eq_of_beq slash

/-- A relative directory is followed by slashes only, if it is taken without them. -/
theorem exists_bareDirectory {directory : Text} (relative : directory.head? ≠ some '/') :
    ∃ slashes, directory = bareDirectory directory ++ slashes ∧ ∀ c ∈ slashes, c = '/' := by
  have untrimmed : Text.trimStart (· == '/') directory = directory := by
    unfold Text.trimStart
    cases directory with
    | nil => rfl
    | cons c rest =>
      have other : c ≠ '/' := fun same => relative (congrArg some same)
      exact List.dropWhile_cons_of_neg (by simpa using other)
  unfold bareDirectory Text.trim
  rw [untrimmed]
  exact exists_trimEnd directory

/-- **The names of a reference** to a script are those of its directory, up to empty ones, and its own. -/
theorem splitOn_referenceTo {directory name : Text} (relative : directory.head? ≠ some '/')
    (isSingle : SingleName name) :
    ∃ front, Text.splitOn '/' (referenceTo directory name) = front ++ [name]
      ∧ front ⊆ Text.splitOn '/' directory ∧ realNames front = realNames (Text.splitOn '/' directory) := by
  obtain ⟨slashes, parts, all⟩ := exists_bareDirectory relative
  obtain ⟨empty, split, nothing⟩ := splitOn_slashes all (bareDirectory directory)
  have own := Text.splitOn_of_notMem isSingle.whole
  rw [← parts] at split
  unfold referenceTo
  cases bare : bareDirectory directory with
  | nil =>
    refine ⟨[], own, List.nil_subset _, ?_⟩
    rw [split, bare, realNames_append, realNames_of_forall_nil nothing]
    rfl
  | cons c rest =>
    refine ⟨Text.splitOn '/' (c :: rest), ?_, ?_, ?_⟩
    · simp only [List.append_assoc, List.singleton_append]
      rw [Text.splitOn_append, own]
    · rw [split, bare]
      exact List.subset_append_left _ _
    · rw [split, bare, realNames_append, realNames_of_forall_nil nothing, List.append_nil]

theorem mem_of_mem_bareDirectory {directory : Text} {c : Char} (member : c ∈ bareDirectory directory) : c ∈ directory := by
  unfold bareDirectory Text.trim Text.trimEnd Text.trimStart at member
  rw [List.mem_reverse] at member
  exact (List.dropWhile_sublist _).mem (List.mem_reverse.mp ((List.dropWhile_sublist _).mem member))

/-- What is known of a directory for scripts. -/
structure PlainDirectory (directory : Text) : Prop where
  nonempty : directory ≠ []
  relative : directory.head? ≠ some '/'
  plain : ∀ c ∈ directory, isFileChar c = true ∨ c = '/'
  forward : upward ∉ Text.splitOn '/' directory

theorem plainDirectory_of_isPlainDirectory {directory : Text} (plain : isPlainDirectory directory = true) :
    PlainDirectory directory := by
  simp only [isPlainDirectory, Bool.and_eq_true, decide_eq_true_eq, List.all_eq_true, Bool.or_eq_true, beq_iff_eq,
    Bool.not_eq_true', List.contains_eq_mem, decide_eq_false_iff_not] at plain
  obtain ⟨⟨⟨nonempty, relative⟩, chars⟩, forward⟩ := plain
  exact ⟨nonempty, relative, chars, forward⟩

/-- **The characters of a reference** to a script need no quoting. -/
theorem plain_of_mem_referenceTo {directory name : Text} (isDirectory : PlainDirectory directory)
    (isPlain : PlainName name) : ∀ c ∈ referenceTo directory name, isFileChar c = true ∨ c = '/' := by
  intro c member
  unfold referenceTo at member
  split at member
  · exact Or.inl (isPlain.plain c member)
  · simp only [List.mem_append, List.mem_singleton] at member
    rcases member with (bare | slash) | own
    · exact isDirectory.plain c (mem_of_mem_bareDirectory bare)
    · exact Or.inr slash
    · exact Or.inl (isPlain.plain c own)

/-- A reference to a script begins in the directory of the output. -/
theorem relative_referenceTo {name : Text} (directory : Text) (relative : name.head? ≠ some '/') :
    (referenceTo directory name).head? ≠ some '/' := by
  have begins := head?_bareDirectory directory
  unfold referenceTo
  cases bare : bareDirectory directory with
  | nil => exact relative
  | cons c rest =>
    rw [bare] at begins
    exact begins

/-- **Where a reference to a script leads**: to its name, behind the names of the directory for scripts, in the
directory of the output. -/
theorem Disk.locate_referenceTo {disk : Disk} {output directory name : Text} {target : Disk.Target}
    (isDirectory : PlainDirectory directory) (isPlain : PlainName name)
    (located : disk.locate (joinPath output (referenceTo directory name)) = .ok target) :
    ∃ start, disk.follow (beginning (directoryStart output)) (directoryNames output) = .ok start
      ∧ target.place = name :: ((realNames (Text.splitOn '/' directory)).reverse ++ start) := by
  have relative := relative_referenceTo directory isPlain.relative
  obtain ⟨front, names, inDirectory, same⟩ := splitOn_referenceTo isDirectory.relative isPlain.single
  have forward : upward ∉ front := fun inFront => isDirectory.forward (inDirectory inFront)
  rw [joinPath_eq relative] at located
  obtain ⟨place, followed, rfl⟩ := locate_below relative names isPlain.single.nonempty located
  rw [follow_append] at followed
  cases begun : disk.follow (beginning (directoryStart output)) (directoryNames output) with
  | error error =>
    rw [begun] at followed
    simp [Except.bind] at followed
  | ok start =>
    rw [begun] at followed
    refine ⟨start, rfl, ?_⟩
    rw [isPlain.place_eq, ← same, follow_real forward followed]

end Relabel
