/-
**Renaming in a pair of documents.**

* `processPair`: the documents with their tokens renamed, and the names given.
* `processChain`: runs one after the other on the same documents.
* `Outcome.relocateBy`: the outcome with local copies of the scripts.
-/

import Relabel.Naming.Generate
import Relabel.Run.Options
import Relabel.Script.Relocate
import Relabel.Substitution.Markup
import Relabel.Token.Inventory

namespace Relabel

/-- A document and its stylesheet. -/
structure Pair where
  html : Text
  css : Text
  deriving DecidableEq, Repr

/-- What a run has made. -/
structure Outcome where
  pair : Pair
  /-- The tokens of the documents before the run. -/
  found : Inventory
  names : Renamings
  /-- What became of the scripts, if they were to be copied. -/
  relocation : Option Relocation := none

/-- The tokens of a pair. -/
def Pair.tokens (pair : Pair) : Inventory :=
  Inventory.ofTexts pair.html pair.css

/-- The names for the tokens of one kind. -/
def namesFor (options : Options) (tokens : Inventory) (kind : Kind) : Renaming :=
  nameTokens kind options.mode (options.start kind) (tokens.ofKind kind)

/-- The pair with tokens and references replaced. -/
def Pair.relabel (names : Renamings) (pair : Pair) : Pair :=
  ⟨relabelDocument names pair.html, relabelStylesheet names pair.css⟩

/-- Renames the tokens of a pair. It fails only if the options cannot be used. -/
def processPair [InternationalNames] (options : Options) (pair : Pair) : Except Failure Outcome := do
  options.check
  let tokens := pair.tokens
  let names := ⟨namesFor options tokens .cls, namesFor options tokens .id⟩
  pure ⟨pair.relabel names, tokens, names, none⟩

/-- Runs with the given options in turn, each on the documents of the last run that did not fail. -/
def processChain [InternationalNames] (pair : Pair) : List Options → List (Except Failure Outcome)
  | [] => []
  | options :: rest =>
    match processPair options pair with
    | .error failure => .error failure :: processChain pair rest
    | .ok outcome => .ok outcome :: processChain outcome.pair rest

/-! ### Scripts -/

section Effects

variable {m : Type → Type} [FileSystem m] [InternationalNames]

/-- The outcome with what became of its scripts. -/
def Outcome.relocated (outcome : Outcome) (relocation : Relocation) : Outcome :=
  let pair := { outcome.pair with html := relocation.html }
  { outcome with pair, relocation := some relocation }

/-- The outcome with the references to scripts replaced by references to local copies. -/
def Outcome.relocateBy (ask : Fetcher m) (options : Options) (output : Text) (outcome : Outcome) :
    m (Except Failure Outcome) := do
  match options.base with
  | .error failure => pure (.error failure)
  | .ok base =>
    match ← localizeScriptsBy ask base ⟨output, options.scriptsDirectory⟩ outcome.pair.html with
    | .error failure => pure (.error failure)
    | .ok relocation => pure (.ok (outcome.relocated relocation))

/-- The outcome with local copies of the scripts where it is settled what is at each address. -/
def Outcome.relocate (fetch : Fetch) (options : Options) (output : Text) (outcome : Outcome) :
    m (Except Failure Outcome) :=
  outcome.relocateBy (fun url => pure (fetch url)) options output

end Effects

/-! ### Log -/

/-- The log line about the decision on a token. -/
def verdictLine (kind : Kind) (mode : Mode) (token : Text) : LogLine :=
  let verdict := judge kind mode token
  ⟨.debug, kind.label ++ [' '] ++ Text.quoted token ++ ": "
    ++ (if verdict.rename then "rename" else "keep") ++ " (" ++ verdict.rule.label ++ ")"⟩

/-- The log lines about the names of tokens. -/
def nameLines (names : Renaming) : List LogLine :=
  names.entries.map fun (token, name) => ⟨.debug, token ++ " -> " ++ name⟩

/-- A log line with a number of classes and a number of ids. -/
def countLine (verb : Text) (classes ids : Nat) : LogLine :=
  ⟨.info, verb ++ [' '] ++ Text.decimal classes ++ " classes and " ++ Text.decimal ids ++ " ids"⟩

/-- The log lines about the renaming of a pair. -/
def Outcome.lines (mode : Mode) (outcome : Outcome) : List LogLine :=
  let decisions (kind : Kind) :=
    (outcome.found.ofKind kind).toList.map (verdictLine kind mode)
  [countLine "Found" outcome.found.classes.size outcome.found.ids.size]
    ++ (if outcome.found.isEmpty then
        [⟨.info, "No tokens found, documents are left as they are"⟩] else [])
    ++ decisions .cls ++ nameLines outcome.names.classes
    ++ decisions .id ++ nameLines outcome.names.ids
    ++ [countLine "Renaming" outcome.names.classes.size outcome.names.ids.size]

end Relabel
