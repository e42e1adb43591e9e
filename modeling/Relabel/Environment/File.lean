/-
**Files of variables.**

A line of such a file gives a value to a variable, `NAME=value`, perhaps behind the word `export`.
Blank lines and lines that begin with a number sign say nothing. In values, single quotes keep
everything as it is; outside of them a backslash escapes a character and a dollar sign stands in
front of the name of a variable, whose value is inserted. A number sign behind a blank begins a
comment.

* `readValue`: the value that the text behind the equals sign stands for.
* `readAssignmentLine`: the variable and the value of a line.
* `loadVariables`: the environment with the variables of a file.
-/

import Relabel.Environment.Variables
import Relabel.Text.Alphanumeric
import Relabel.Text.Blank

namespace Relabel

namespace VariableFile

/-! ### Values -/

/-- Where a reader of values is. `quoted` tells whether double quotes are open. -/
inductive Position where
  | plain (quoted : Bool)
  /-- Behind a backslash. -/
  | escaped (quoted : Bool)
  | singleQuoted
  /-- In the name of a variable, of which `name` has been read, last character first. -/
  | named (quoted : Bool) (name : Text)
  /-- In the name of a variable in braces. -/
  | braced (quoted : Bool) (name : Text)
  /-- Behind the blank that ends the value. -/
  | ended
  deriving DecidableEq, Repr

/-- What a character behind a backslash stands for. -/
def escape? (c : Char) : Option Char :=
  if c = 'n' then some '\n'
  else if c = '\\' || c = '\'' || c = '"' || c = '$' || c = ' ' then some c
  else none

/-- The value that the rest of a line stands for, from a position on. `valueOf` gives the values of
variables. -/
def readValueFrom (valueOf : Text → Text) : Position → Text → Option Text
  | .plain quoted, [] => if quoted then none else some []
  | .escaped quoted, [] => if quoted then none else some []
  | .singleQuoted, [] => none
  | .named quoted name, [] => if quoted then none else some (valueOf name.reverse)
  | .braced _ _, [] => none
  | .ended, [] => some []
  | .ended, c :: rest =>
    if c = ' ' || c = '\t' then readValueFrom valueOf .ended rest
    else if c = '#' then some []
    else none
  | .escaped quoted, c :: rest => do
    let c ← escape? c
    let value ← readValueFrom valueOf (.plain quoted) rest
    some (c :: value)
  | .singleQuoted, c :: rest =>
    if c = '\'' then readValueFrom valueOf (.plain false) rest
    else (readValueFrom valueOf .singleQuoted rest).map (c :: ·)
  | .named quoted name, c :: rest =>
    if isAlphanumeric c then readValueFrom valueOf (.named quoted (c :: name)) rest
    else if c = '\x7b' && name = [] then readValueFrom valueOf (.braced quoted []) rest
    else if c = '$' then
      (readValueFrom valueOf (.named quoted []) rest).map (valueOf name.reverse ++ ·)
    else (readValueFrom valueOf (.plain quoted) rest).map (valueOf name.reverse ++ [c] ++ ·)
  | .braced quoted name, c :: rest =>
    if c ≠ '\x7d' then readValueFrom valueOf (.braced quoted (c :: name)) rest
    else (readValueFrom valueOf (.plain quoted) rest).map (valueOf name.reverse ++ ·)
  | .plain quoted, c :: rest =>
    if c = '$' then readValueFrom valueOf (.named quoted []) rest
    else if c = '"' then readValueFrom valueOf (.plain !quoted) rest
    else if c = '\\' then readValueFrom valueOf (.escaped quoted) rest
    else if !quoted && c = '\'' then readValueFrom valueOf .singleQuoted rest
    else if !quoted && (c = ' ' || c = '\t') then readValueFrom valueOf .ended rest
    else (readValueFrom valueOf (.plain quoted) rest).map (c :: ·)

/-- The value that a text stands for. -/
def readValue (valueOf : Text → Text) (text : Text) : Option Text :=
  readValueFrom valueOf (.plain false) text

/-! ### Lines -/

/-- The name at the beginning of a text, and what follows it and white space. -/
def readName (text : Text) : Option (Text × Text) :=
  match text.span fun c => c.isAlphanum || c == '_' || c == '.' with
  | (c :: name, rest) =>
    if c.isAlpha || c = '_' then some (c :: name, Text.trimStart isBlank rest) else none
  | ([], _) => none

/-- The name of the variable of a line and the text of its value. -/
def cutLine (line : Text) : Option (Text × Text) := do
  let (name, rest) ← readName line
  match rest with
  | '=' :: value => some (name, value)
  | _ =>
    if name = "export".toList then
      let (name, rest) ← readName rest
      match rest with
      | '=' :: value => some (name, value)
      | _ => none
    else none

/-- What a line says. -/
inductive Line where
  | nothing
  | variable (name value : Text)
  | malformed
  deriving DecidableEq, Repr

/-- Whether a text says nothing. -/
def isComment (text : Text) : Bool :=
  text = [] || text.head? = some '#'

/-- Reads a line. -/
def readLine (valueOf : Text → Text) (line : Text) : Line :=
  let line := Text.strip line
  if isComment line then .nothing
  else
    match cutLine line with
    | none => .malformed
    | some (name, value) =>
      let value := Text.trimStart isBlank value
      if isComment value then .variable name []
      else
        match readValue valueOf value with
        | some value => .variable name value
        | none => .malformed

end VariableFile

/-! ### Files -/

/-- The environment with the variables of lines that are not set yet, up to the first line that is
malformed. -/
def loadLines (environment : Environment) : List Bytes → Environment
  | [] => environment
  | line :: lines =>
    match Utf8.decode? line with
    | none => environment
    | some text =>
      match VariableFile.readLine (fun name => (environment.text? name).getD []) text with
      | .malformed => environment
      | .nothing => loadLines environment lines
      | .variable name value =>
        if (environment.text? name).isSome then loadLines environment lines
        else loadLines (environment.set name value) lines

/-- The lines of the content of a file. -/
def linesOf : (content : Bytes) → List Bytes
  | [] => [[]]
  | b :: content =>
    if b = 0x0A then [] :: linesOf content
    else
      match linesOf content with
      | [] => [[b]]
      | line :: lines => (b :: line) :: lines

/-- The environment with the variables of a file that are not set yet. -/
def loadVariables (environment : Environment) (content : Bytes) : Environment :=
  loadLines environment (linesOf content)

end Relabel
