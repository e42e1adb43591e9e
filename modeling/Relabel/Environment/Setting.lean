/-
**Settings in the environment.**

Each setting is a variable of the environment with values of its own type. A variable that is not
set, or whose value is not text, has a value anyway, except the name of the requesting program.

* `Setting`: the variables.
* `Setting.parse`: the value that a text stands for.
* `Setting.get`: the value in an environment.
* `Settings.ofEnvironment`: all values.
* `settingsManual`: the description of the variables.
-/

import Relabel.Environment.Variables
import Relabel.Run.Log
import Relabel.Run.Options
import Relabel.Script.Session
import Relabel.Text.Numeral

namespace Relabel

/-- A variable that a run looks up. -/
inductive Setting where
  | logLevel
  | noColor
  | classStart
  | idStart
  | mode
  | scriptsDirectory
  | timeout
  | userAgent
  deriving DecidableEq, Repr

/-- Why a variable has no value. -/
structure SettingError where
  setting : Setting
  reason : Text
  deriving DecidableEq, Repr

namespace Setting

/-! ### Names and values -/

/-- All settings. -/
def all : List Setting :=
  [.logLevel, .noColor, .classStart, .idStart, .mode, .scriptsDirectory, .timeout, .userAgent]

/-- The name of the variable. -/
def name : Setting → Text
  | .logLevel => "CLASSMINT_LOG_LEVEL"
  | .noColor => "NO_COLOR"
  | .classStart => "CLASSMINT_CLASS_PREFIX"
  | .idStart => "CLASSMINT_ID_PREFIX"
  | .mode => "CLASSMINT_MODE"
  | .scriptsDirectory => "CLASSMINT_SCRIPTS_DIR"
  | .timeout => "CLASSMINT_TIMEOUT"
  | .userAgent => "CLASSMINT_USER_AGENT"

/-- What a setting is for. -/
def description : Setting → Text
  | .logLevel => "Log level: trace, debug, info, warn, error"
  | .noColor => "Disable colored output when set to any value"
  | .classStart => "Prefix of generated class names"
  | .idStart => "Prefix of generated IDs"
  | .mode => "Rename mode: strict (GUID-shaped tokens only), default (any opaque token)"
  | .scriptsDirectory => "Directory under the output directory that receives relocated scripts"
  | .timeout => "Script download timeout in seconds (0 disables it)"
  | .userAgent => "User-Agent sent when downloading scripts"

/-- The values of a setting. -/
abbrev Value : Setting → Type
  | .logLevel => Level
  | .noColor => Bool
  | .mode => Mode
  | .timeout => Nat
  | .classStart | .idStart | .scriptsDirectory | .userAgent => Text

/-- The value of a variable that is not set. -/
def standard? : (setting : Setting) → Option setting.Value
  | .logLevel => some .warn
  | .noColor => some false
  | .classStart => some "c"
  | .idStart => some "i"
  | .mode => some .lenient
  | .scriptsDirectory => some "js"
  | .timeout => some Session.standardTimeout
  | .userAgent => none

/-! ### Reading values -/

/-- The greatest number of seconds that a request may be given. -/
def longestTimeout : Nat := 3600

/-- The level that a text names. -/
def parseLevel (text : Text) : Except Text Level :=
  match Level.ofWord? (Text.lowerCase (Text.strip text)) with
  | some level => .ok level
  | none => .error ("Invalid log level '" ++ text ++ "'. Use: trace, debug, info, warn, error")

/-- The beginning of names that a text gives. -/
def parseStart (text : Text) : Except Text Text :=
  let start := Text.strip text
  if isIdentifierStart start then .ok start
  else .error ("Invalid prefix '" ++ text
    ++ "'. Must start with a letter or '_' and contain only letters, digits, '_' and '-'")

/-- The directory of scripts that a text gives. -/
def parseDirectory (text : Text) : Except Text Text :=
  let directory := Text.strip text
  if isPlainDirectory directory then .ok directory
  else .error ("Invalid scripts directory '" ++ text ++ "'. Must be a relative path")

/-- The seconds that a text gives. -/
def parseTimeout (text : Text) : Except Text Nat :=
  match Text.readNumber greatestWord (Text.strip text) with
  | .error _ => .error "Must be a valid non-negative number"
  | .ok seconds =>
    if longestTimeout < seconds then
      .error
        ("Value " ++ Text.decimal seconds ++ " exceeds maximum " ++ Text.decimal longestTimeout)
    else .ok seconds

/-- The name of the requesting program that a text gives. -/
def parseUserAgent (text : Text) : Except Text Text :=
  match Text.strip text with
  | [] => .error "User-Agent cannot be empty"
  | name => .ok name

/-- The value of a setting that a text stands for. -/
def read : (setting : Setting) → Text → Except Text setting.Value
  | .logLevel, text => parseLevel text
  | .noColor, text => .ok (text ≠ [])
  | .classStart, text => parseStart text
  | .idStart, text => parseStart text
  | .mode, text => (Mode.ofText? text).elim (.error (Mode.refusal text)) .ok
  | .scriptsDirectory, text => parseDirectory text
  | .timeout, text => parseTimeout text
  | .userAgent, text => parseUserAgent text

/-- The value of a setting that a text stands for, or what is wrong with the variable. -/
def parse (setting : Setting) (text : Text) : Except SettingError setting.Value :=
  (setting.read text).mapError fun reason => ⟨setting, reason⟩

/-- The value of a setting in an environment. -/
def get (environment : Environment) (setting : Setting) : Except SettingError setting.Value :=
  match environment.text? setting.name, setting.standard? with
  | some text, _ => setting.parse text
  | none, some value => .ok value
  | none, none => .error ⟨setting, "Required environment variable not set"⟩

end Setting

/-- What is said of an error. -/
def SettingError.message (error : SettingError) : Text :=
  "Environment variable '" ++ error.setting.name ++ "': " ++ error.reason

/-! ### All settings -/

/-- The values of all settings. -/
structure Settings where
  logLevel : Level
  noColor : Bool
  classStart : Text
  idStart : Text
  mode : Mode
  scriptsDirectory : Text
  timeout : Nat
  userAgent : Option Text
  deriving DecidableEq, Repr

namespace Settings

/-- The values in an environment, or the first error. Without a usable name of the requesting
program there is none. -/
def ofEnvironment (environment : Environment) : Except SettingError Settings := do
  let logLevel ← Setting.get environment .logLevel
  let noColor ← Setting.get environment .noColor
  let classStart ← Setting.get environment .classStart
  let idStart ← Setting.get environment .idStart
  let mode ← Setting.get environment .mode
  let scriptsDirectory ← Setting.get environment .scriptsDirectory
  let timeout ← Setting.get environment .timeout
  let userAgent := (Setting.get environment .userAgent).toOption
  pure { logLevel, noColor, classStart, idStart, mode, scriptsDirectory, timeout, userAgent }

/-- The lines that show the values. -/
def summary (settings : Settings) : List Text :=
  ([("Environment Configuration Summary:" : Text),
    "  Log Level: " ++ settings.logLevel.word,
    "  Class Prefix: " ++ settings.classStart,
    "  ID Prefix: " ++ settings.idStart,
    "  Mode: " ++ settings.mode.word,
    "  Scripts Directory: " ++ settings.scriptsDirectory,
    "  Timeout: " ++ Text.decimal settings.timeout ++ "s"] : List Text)
    ++ (settings.userAgent.map fun (name : Text) => "  User-Agent: " ++ name).toList

end Settings

/-! ### Manual -/

namespace Setting

/-- The value of a variable that is not set, as the manual shows it. -/
def shownStandard : Setting → Text
  | .logLevel => "Some(\"warn\")"
  | .noColor => "Some(false)"
  | .classStart => "Some(\"c\")"
  | .idStart => "Some(\"i\")"
  | .mode => "Some(Default)"
  | .scriptsDirectory => "Some(\"js\")"
  | .timeout => "Some(60)"
  | .userAgent => "None"

/-- The line of the manual about a setting. -/
def manualLine (setting : Setting) : Text :=
  "- " ++ ['\x60'] ++ setting.name ++ ['\x60'] ++ ": " ++ setting.description ++ " (default: "
    ++ setting.shownStandard ++ ")\n"

end Setting

/-- A section of the manual. -/
def manualSection (title : Text) (settings : List Setting) : Text :=
  "## " ++ title ++ "\n\n" ++ settings.flatMap Setting.manualLine

/-- The description of the variables. -/
def settingsManual : Text :=
  "# Environment Variables Documentation\n\n"
    ++ manualSection "Core Configuration" [.logLevel, .noColor] ++ ['\n']
    ++ manualSection "Naming Configuration" [.classStart, .idStart, .mode] ++ ['\n']
    ++ manualSection "Script Relocation Configuration" [.scriptsDirectory, .timeout, .userAgent]

end Relabel
