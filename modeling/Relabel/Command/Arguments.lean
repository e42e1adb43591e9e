/-
**Arguments of the command line.**

An argument is a flag, a parameter with a value, or the path of a document. The value of a parameter
follows as the next argument, or behind an equals sign, or directly behind the letter of the
parameter. Letters of flags may be written together. Behind two dashes all arguments are paths.

* `Flag`, `Slot`: what can be given, and how it is written.
* `Arguments`: what has been given.
* `readArguments`: what the arguments of a command line give, or why it stops there.
-/

import Relabel.Text.Numeral
import Relabel.Text.Terminal
import Relabel.Token.Kind

namespace Relabel

/-! ### Flags and values -/

/-- What is given or not, without a value. -/
inductive Flag where
  | scripts
  | silent
  | verbose
  | manual
  | help
  | version
  deriving DecidableEq, Repr

/-- What is given with a value. -/
inductive Slot where
  | html
  | css
  | output
  | classStart
  | idStart
  | mode
  | baseUrl
  | scriptsDirectory
  | timeout
  | userAgent
  | encoding
  deriving DecidableEq, Repr

/-- A flag, or a parameter that needs a value. -/
inductive Switch where
  | flag (flag : Flag)
  | slot (slot : Slot)
  deriving DecidableEq, Repr

namespace Switch

/-- The switches with their letters and their names. -/
def table : List (Option Char × Text × Switch) :=
  [(some 'o', "output", .slot .output), (none, "class-prefix", .slot .classStart),
    (none, "id-prefix", .slot .idStart), (some 'm', "mode", .slot .mode),
    (none, "scripts", .flag .scripts), (some 'b', "base-url", .slot .baseUrl),
    (none, "scripts-dir", .slot .scriptsDirectory), (some 't', "timeout", .slot .timeout),
    (some 'u', "user-agent", .slot .userAgent), (some 'e', "encoding", .slot .encoding),
    (some 's', "silent", .flag .silent), (some 'v', "verbose", .flag .verbose),
    (none, "env-docs", .flag .manual), (some 'h', "help", .flag .help),
    (some 'V', "version", .flag .version)]

/-- The switch with a letter. -/
def ofLetter? (letter : Char) : Option Switch :=
  (table.find? fun entry => entry.1 = some letter).map (·.2.2)

/-- The switch with a name. -/
def ofName? (name : Text) : Option Switch :=
  (table.find? fun entry => entry.2.1 = name).map (·.2.2)

end Switch

/-- A flag as messages show it. -/
def Flag.shown : Flag → Text
  | .scripts => "--scripts"
  | .silent => "--silent"
  | .verbose => "--verbose"
  | .manual => "--env-docs"
  | .help => "--help"
  | .version => "--version"

/-- A value as messages show it. -/
def Slot.shown : Slot → Text
  | .html => "[HTML]"
  | .css => "[CSS]"
  | .output => "--output <DIR>"
  | .classStart => "--class-prefix <PREFIX>"
  | .idStart => "--id-prefix <PREFIX>"
  | .mode => "--mode <MODE>"
  | .baseUrl => "--base-url <http://localhost/>"
  | .scriptsDirectory => "--scripts-dir <DIR>"
  | .timeout => "--timeout <60>"
  | .userAgent => "--user-agent <Firefox>"
  | .encoding => "--encoding <UTF-8>"

/-! ### What has been given -/

/-- What has been given. -/
structure Arguments where
  html : Option Text := none
  css : Option Text := none
  output : Option Text := none
  classStart : Option Text := none
  idStart : Option Text := none
  mode : Option Mode := none
  baseUrl : Option Text := none
  scriptsDirectory : Option Text := none
  timeout : Option Nat := none
  userAgent : Option Text := none
  encoding : Option Text := none
  flags : List Flag := []
  deriving DecidableEq, Repr

/-- Why arguments cannot be used. -/
inductive UsageError where
  | unexpected (argument : Text)
  /-- Documents that must be named are not. -/
  | missing (names : List Text)
  | noValue (slot : Slot)
  | badValue (slot : Slot) (value reason : Text)
  /-- A switch that is used twice, as messages show it. -/
  | repeated (shown : Text)
  /-- A value that is given to a flag. -/
  | surplus (value : Text) (flag : Flag)
  deriving DecidableEq, Repr

/-- What is said of an error. What is given and what is expected stands out. -/
def UsageError.message : UsageError → Text
  | .unexpected argument =>
    "unexpected argument '" ++ Terminal.emphasized argument ++ "' found"
  | .missing names =>
    let shown (name : Text) : Text := "\n  " ++ Terminal.emphasized (['<'] ++ name ++ ['>'])
    "the following required arguments were not provided:" ++ names.flatMap shown
  | .noValue slot =>
    "a value is required for '" ++ Terminal.emphasized slot.shown ++ "' but none was supplied"
  | .badValue slot value reason =>
    "invalid value '" ++ Terminal.emphasized value ++ "' for '" ++ Terminal.emphasized slot.shown
      ++ "': " ++ reason
  | .repeated shown =>
    "the argument '" ++ Terminal.emphasized shown ++ "' cannot be used multiple times"
  | .surplus value flag =>
    "unexpected value '" ++ Terminal.emphasized value ++ "' for '"
      ++ Terminal.emphasized flag.shown ++ "' found; no more were expected"

/-- What a user is told: the error, and where to learn more. -/
def UsageError.notice (error : UsageError) : Text :=
  Terminal.emphasized "error:" ++ [' '] ++ error.message ++ "\n\nFor more information, try '"
    ++ Terminal.emphasized "--help" ++ "'."

namespace Arguments

/-- Whether a value has been given. -/
def has (given : Arguments) : Slot → Bool
  | .html => given.html.isSome
  | .css => given.css.isSome
  | .output => given.output.isSome
  | .classStart => given.classStart.isSome
  | .idStart => given.idStart.isSome
  | .mode => given.mode.isSome
  | .baseUrl => given.baseUrl.isSome
  | .scriptsDirectory => given.scriptsDirectory.isSome
  | .timeout => given.timeout.isSome
  | .userAgent => given.userAgent.isSome
  | .encoding => given.encoding.isSome

/-- A path that is given as a value. It is not empty. -/
def path (slot : Slot) (value : Text) : Except UsageError (Option Text) :=
  if value = [] then .error (.noValue slot) else .ok (some value)

/-- The arguments with one more value. -/
def put (given : Arguments) (slot : Slot) (value : Text) : Except UsageError Arguments :=
  match slot with
  | .html => do pure { given with html := ← path slot value }
  | .css => do pure { given with css := ← path slot value }
  | .output => do pure { given with output := ← path slot value }
  | .classStart => .ok { given with classStart := some value }
  | .idStart => .ok { given with idStart := some value }
  | .mode =>
    match Mode.ofText? value with
    | some mode => .ok { given with mode := some mode }
    | none => .error (.badValue slot value (Mode.refusal value))
  | .baseUrl => .ok { given with baseUrl := some value }
  | .scriptsDirectory => .ok { given with scriptsDirectory := some value }
  | .timeout =>
    match Text.readNumber greatestWord value with
    | .ok seconds => .ok { given with timeout := some seconds }
    | .error error => .error (.badValue slot value error.message)
  | .userAgent => .ok { given with userAgent := some value }
  | .encoding => .ok { given with encoding := some value }

/-- The arguments with a value that has not been given before. -/
def give (given : Arguments) (slot : Slot) (value : Text) : Except UsageError Arguments :=
  if given.has slot then .error (.repeated slot.shown) else given.put slot value

/-- The arguments with a flag that has not been given before. -/
def raise (given : Arguments) (flag : Flag) : Except UsageError Arguments :=
  if given.flags.contains flag then .error (.repeated flag.shown)
  else .ok { given with flags := flag :: given.flags }

/-- The names of the documents that must be given but are not. -/
def missing (given : Arguments) : List Text :=
  if given.flags.contains .manual then []
  else
    (if given.html.isNone then [("HTML" : Text)] else [])
      ++ (if given.css.isNone then [("CSS" : Text)] else [])

end Arguments

/-! ### Reading -/

/-- Why reading stops before the last argument, or without a result. -/
inductive Halt where
  | help
  | version
  | usage (error : UsageError)
  deriving DecidableEq, Repr

/-- How far the arguments have been read. -/
structure Reading where
  given : Arguments := {}
  /-- A value that is checked only when the next argument has been read, and before that waits for
  its text. -/
  waiting : Option (Slot × Option Text) := none
  /-- The documents that have not been named yet. -/
  documents : List Slot := [.html, .css]
  /-- Whether all further arguments are paths. -/
  onlyPaths : Bool := false

namespace Reading

/-- Checks the value that waits. -/
def settle (reading : Reading) : Except Halt Reading :=
  match reading.waiting with
  | none => .ok reading
  | some (slot, none) => .error (.usage (.noValue slot))
  | some (slot, some value) =>
    match reading.given.give slot value with
    | .ok given => .ok { reading with given, waiting := none }
    | .error error => .error (.usage error)

/-- Takes note of a flag. -/
def raise (reading : Reading) (flag : Flag) : Except Halt Reading := do
  let reading ← reading.settle
  match flag with
  | .help => .error .help
  | .version => .error .version
  | flag =>
    match reading.given.raise flag with
    | .ok given => pure { reading with given }
    | .error error => .error (.usage error)

/-- Takes note of a parameter, perhaps with a value that is attached to it. -/
def begin (reading : Reading) (slot : Slot) (attached : Option Text) : Except Halt Reading := do
  let reading ← reading.settle
  match attached with
  | none => pure { reading with waiting := some (slot, none) }
  | some value => settle { reading with waiting := some (slot, some value) }

/-- Reads a name behind two dashes. -/
def readName (reading : Reading) (argument : Text) : Except Halt Reading :=
  let (name, value) := match Text.cutFirst '=' argument with
    | some (name, value) => (name, some value)
    | none => (argument, none)
  match Switch.ofName? name, value with
  | none, _ => .error (.usage (.unexpected ("--" ++ name)))
  | some (.slot slot), value => reading.begin slot value
  | some (.flag flag), none => reading.raise flag
  | some (.flag flag), some value => .error (.usage (.surplus value flag))

/-- The value that is attached to a letter. -/
def attached? (rest : Text) : Option Text :=
  match rest with
  | [] => none
  | '=' :: value => some value
  | value => some value

/-- Reads letters behind one dash. -/
def readLetters (reading : Reading) : Text → Except Halt Reading
  | [] => .ok reading
  | letter :: rest =>
    match Switch.ofLetter? letter with
    | none => .error (.usage (.unexpected ['-', letter]))
    | some (.slot slot) => reading.begin slot (attached? rest)
    | some (.flag flag) => do
      let reading ← reading.raise flag
      reading.readLetters rest

/-- Reads a path. -/
def readPath (reading : Reading) (argument : Text) : Except Halt Reading :=
  match reading.documents with
  | [] => .error (.usage (.unexpected argument))
  | slot :: documents => do
    let reading ← reading.settle
    pure { reading with waiting := some (slot, some argument), documents }

/-- Reads an argument that is not a switch: the value that is waited for, or a path. -/
def readPlain (reading : Reading) (argument : Text) : Except Halt Reading :=
  match reading.waiting with
  | some (slot, none) => .ok { reading with waiting := some (slot, some argument) }
  | _ => reading.readPath argument

/-- Reads an argument. -/
def read (reading : Reading) (argument : Text) : Except Halt Reading :=
  if reading.onlyPaths then reading.readPath argument
  else
    match argument with
    | ['-', '-'] => .ok { reading with onlyPaths := true }
    | '-' :: '-' :: name => reading.readName name
    | '-' :: letter :: letters => reading.readLetters (letter :: letters)
    | argument => reading.readPlain argument

end Reading

/-- What the arguments of a command line give. -/
def readArguments (arguments : List Text) : Except Halt Arguments := do
  let reading ← arguments.foldlM Reading.read {}
  let reading ← reading.settle
  match reading.given.missing with
  | [] => pure reading.given
  | names => .error (.usage (.missing names))

end Relabel
