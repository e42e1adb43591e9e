/-
**Log lines.**
-/

import Relabel.Text.Terminal

namespace Relabel

/-- How much a log line matters. -/
inductive Level where
  | error
  | warn
  | info
  | debug
  | trace
  deriving DecidableEq, Repr

namespace Level

/-- The name of a level in small letters. -/
def word : Level → Text
  | .error => "error"
  | .warn => "warn"
  | .info => "info"
  | .debug => "debug"
  | .trace => "trace"

/-- The level with a name in small letters. -/
def ofWord? (word : Text) : Option Level :=
  [Level.error, .warn, .info, .debug, .trace].find? fun level => level.word = word

/-- How many levels matter more. -/
def rank : Level → Nat
  | .error => 0
  | .warn => 1
  | .info => 2
  | .debug => 3
  | .trace => 4

end Level

/-- A line of the log. -/
structure LogLine where
  level : Level
  text : Text
  deriving DecidableEq, Repr

namespace LogLine

/-- Whether a line is shown when the lines up to a level are wanted. -/
def isShown (limit : Level) (line : LogLine) : Bool :=
  line.level.rank ≤ limit.rank

/-- The line as it is printed. What it tells may come from a document, so a terminal must not act on
it. -/
def render (line : LogLine) : Text :=
  line.level.word.map Char.toUpper ++ [' '] ++ Terminal.shielded line.text

end LogLine

end Relabel
