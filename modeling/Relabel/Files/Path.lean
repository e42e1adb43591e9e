/-
**Paths.**

A path is a text; slashes divide it into names. Empty names and dots that stand for the same place
say nothing, except a dot at the beginning.

* `joinPath`: the path of a file in a directory.
* `ancestors`: a path and the paths of the directories that must hold it.
* `fileName?`: the name of the file that a path leads to.
-/

import Relabel.Text.Basic

namespace Relabel

/-- The path of `name` from `directory`. A path that begins with a slash does not depend on the
directory, and the empty directory adds nothing. -/
def joinPath (directory name : Text) : Text :=
  if name.head? = some '/' || directory = [] then name
  else if directory.getLast? = some '/' then directory ++ name
  else directory ++ ['/'] ++ name

/-- The greatest number of bytes of a name. -/
def longestName : Nat := 255

/-- The greatest number of bytes of a path. -/
def longestPath : Nat := 4095

/-- Whether a path begins with a slash. -/
def isAbsolute (path : Text) : Bool :=
  path.head? = some '/'

/-- The names of a path that say something. -/
def pathNames (path : Text) : List Text :=
  let names := Text.splitOn '/' path
  let kept := names.filter fun name => name ≠ [] && name ≠ ".".toList
  if names.head? = some ".".toList then "." :: kept else kept

/-- The paths that the first names lead along, longest first. -/
def leadingPaths (names : List Text) : List Text :=
  (List.range names.length).reverse.map fun k => Text.join "/" (names.take (k + 1))

/-- The path, followed by the paths of the directories that must hold it, the nearest first. -/
def ancestors (path : Text) : List Text :=
  let above := leadingPaths (pathNames path).dropLast
  if path = [] then []
  else if isAbsolute path then path :: (above.map ('/' :: ·) ++ [['/']])
  else path :: above

/-- The name of the file that a path leads to, if its last name is not one that leads elsewhere. -/
def fileName? (path : Text) : Option Text := do
  let name ← (pathNames path).getLast?
  if name = ".".toList || name = "..".toList then none else some name

end Relabel
