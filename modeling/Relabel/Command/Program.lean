/-
**The program.**

The program reads a document and its stylesheet, renames their tokens, makes local copies of the
scripts if it is asked to, and writes the output. It is the same for all tables of names and encodings;
those that it is run with are imported here.

* `Request`: what the command line and the environment ask for together.
* `carryOut`: a whole run.
* `runProgram`: the run of a command line, with everything that is printed.
-/

import Relabel.Command.Arguments
import Relabel.Command.Help
import Relabel.Command.Tables
import Relabel.Document.Read
import Relabel.Document.Write
import Relabel.Environment.File
import Relabel.Environment.Setting

namespace Relabel

/-! ### Requests -/

/-- The directory of the output if none is given. -/
def standardOutput : Text := "out"

/-- What a run is asked for, beyond the options of renaming. -/
structure Request where
  options : Options
  html : Option Text
  css : Option Text
  output : Text
  copiesScripts : Bool
  timeout : Nat
  userAgent : Option Text

/-- What the command line asks for, and the environment where the command line says nothing. -/
def Request.combine (given : Arguments) (settings : Settings) : Request where
  options :=
    { classStart := given.classStart.getD settings.classStart
      idStart := given.idStart.getD settings.idStart
      mode := given.mode.getD settings.mode
      baseUrl := given.baseUrl
      scriptsDirectory := given.scriptsDirectory.getD settings.scriptsDirectory
      encoding := given.encoding }
  html := given.html
  css := given.css
  output := given.output.getD standardOutput
  copiesScripts := given.flags.contains .scripts
  timeout := given.timeout.getD settings.timeout
  userAgent := given.userAgent.orElse fun _ => settings.userAgent

/-- The names of the documents in the output. -/
def Request.outputNames (html css : Text) : OutputNames :=
  ⟨(fileName? html).getD "index.html", (fileName? css).getD "style.css"⟩

/-! ### Runs -/

/-- The log of a run, and what came of it. -/
structure Report where
  lines : List LogLine := []
  result : Except Failure Outcome

section Effects

variable {m : Type → Type} [FileSystem m] [InternationalNames] [LegacyEncodings]

/-- The path of a document, which must lead to a file. -/
def requireFile (path : Option Text) (role : Text) : m (Except Failure Text) := do
  match path with
  | none => pure (.error (.noDocument role))
  | some path =>
    if ← isFile path then pure (.ok path) else pure (.error (.noFile path))

/-- The documents of a request and their paths. Both paths are looked at before a file is read. -/
def readPair (request : Request) : m (Except Failure (OutputNames × Pair)) := ExceptT.run do
  let htmlPath ← ExceptT.mk (requireFile request.html "HTML")
  let cssPath ← ExceptT.mk (requireFile request.css "CSS")
  let html ← ExceptT.mk (loadDocument htmlPath request.options.encoding)
  let css ← ExceptT.mk (loadDocument cssPath request.options.encoding)
  pure (Request.outputNames htmlPath cssPath, ⟨html, css⟩)

/-- The session in which the scripts of a request are fetched. -/
def Request.session (request : Request) : Except Failure Session := do
  let session ← (Session.start request.timeout request.userAgent).mapError Failure.fetch
  let base ← request.options.base
  pure (session.referredBy base)

/-- Makes local copies of the scripts, if that is asked for. -/
def copyScripts (ask : Session → Fetcher m) (request : Request) (outcome : Outcome) :
    m Report := do
  if !request.copiesScripts then pure ⟨[], .ok outcome⟩
  else
    match request.session with
    | .error failure => pure ⟨[], .error failure⟩
    | .ok session =>
      match ← outcome.relocateBy (ask session) request.options request.output with
      | .ok outcome =>
        pure ⟨(outcome.relocation.map Relocation.lines).getD [], .ok outcome⟩
      | .error failure =>
        let base := request.options.base.toOption.join
        pure ⟨skippedLines (skippedReferences base outcome.pair.html), .error failure⟩

/-- Renames the tokens of a pair and writes the output. -/
def finish (ask : Session → Fetcher m) (request : Request) (names : OutputNames)
    (outcome : Outcome) : m Report := do
  let copied ← copyScripts ask request outcome
  match copied.result with
  | .error failure => pure ⟨copied.lines, .error failure⟩
  | .ok outcome =>
    let written ← writeOutput request.output names outcome
    pure ⟨copied.lines ++ written.lines, written.failure.elim (.ok outcome) .error⟩

/-- A whole run. -/
def carryOut (ask : Session → Fetcher m) (request : Request) : m Report := do
  match request.options.check with
  | .error failure => pure ⟨[], .error failure⟩
  | .ok () =>
    match ← readPair request with
    | .error failure => pure ⟨[], .error failure⟩
    | .ok (names, pair) =>
      match processPair request.options pair with
      | .error failure => pure ⟨[], .error failure⟩
      | .ok outcome =>
        let report ← finish ask request names outcome
        pure ⟨outcome.lines request.options.mode ++ report.lines, report.result⟩

end Effects

/-! ### What is printed -/

/-- What a program prints, and the number that it ends with. -/
structure Ending where
  code : Nat
  output : Text := []
  /-- The messages, each of which begins on a line of its own. -/
  messages : List Text := []
  deriving DecidableEq, Repr

/-- The lines of a message. A line ends in a line feed or in a carriage return and a line feed. -/
def messageLines (message : Text) : List Text :=
  (Text.splitOn '\n' message).map fun line =>
    if line.getLast? = some '\r' then line.dropLast else line

/-- The lines of all messages. -/
def Ending.lines (ending : Ending) : List Text :=
  ending.messages.flatMap messageLines

/-- The lines about a run that has not failed. -/
def Outcome.summary (output : Text) (outcome : Outcome) : List Text :=
  let renamed : Text := "Renamed " ++ Text.decimal outcome.names.classes.size ++ " classes and "
    ++ Text.decimal outcome.names.ids.size ++ " ids into " ++ output
  match outcome.relocation with
  | none => [renamed]
  | some relocation =>
    let counts : Text := "Relocated " ++ Text.decimal relocation.stored.length ++ " scripts ("
      ++ Text.decimal relocation.lost.length ++ " failed)"
    renamed :: counts :: relocation.lost.map fun (key, loss) =>
      "Kept remote script " ++ key ++ ": " ++ loss.message

/-- The log lines that are wanted. -/
def logLimit (given : Arguments) (settings : Settings) : Level :=
  if given.flags.contains .silent then .error
  else if given.flags.contains .verbose then .info
  else settings.logLevel

/-- What is printed about a run. -/
def Report.ending (given : Arguments) (settings : Settings) (output : Text) (report : Report) :
    Ending :=
  let shown := report.lines.filter (·.isShown (logLimit given settings))
  let opening := if given.flags.contains .verbose then settings.summary else []
  let log := opening ++ shown.map LogLine.render
  match report.result with
  | .error failure => { code := 1, messages := log ++ ["Error: " ++ failure.message] }
  | .ok outcome =>
    let closing := if given.flags.contains .silent then [] else outcome.summary output
    { code := 0, messages := log ++ closing }

/-- What is printed when reading the arguments stops. -/
def Halt.ending : Halt → Ending
  | .help => { code := 0, output := helpText }
  | .version => { code := 0, output := versionText }
  | .usage error => { code := 2, messages := [Terminal.visible error.notice] }

/-! ### The program -/

/-- The file of variables in the working directory. -/
def variableFileName : Text := ".env"

section Effects

variable {m : Type → Type} [FileSystem m] [InternationalNames] [LegacyEncodings]

/-- The environment with the variables of the file in the working directory. -/
def completeEnvironment (environment : Environment) : m Environment := do
  if ← isFile variableFileName then
    match ← readFile variableFileName with
    | .ok content => pure (loadVariables environment content)
    | .error _ => pure environment
  else pure environment

/-- Runs a command line in an environment. -/
def runProgram (ask : Session → Fetcher m) (environment : Environment) (arguments : List Text) :
    m Ending := do
  let environment ← completeEnvironment environment
  match readArguments arguments with
  | .error halt => pure halt.ending
  | .ok given =>
    if given.flags.contains .manual then pure { code := 0, output := settingsManual }
    else
      match Settings.ofEnvironment environment with
      | .error error => pure { code := 1, messages := [error.message] }
      | .ok settings =>
        let request := Request.combine given settings
        let report ← carryOut ask request
        pure (report.ending given settings request.output)

end Effects

end Relabel
