/-
**What a run is asked for.**

* `Options`: how tokens are renamed and documents are read.
* `Options.check`: whether the options can be used.
-/

import Relabel.Encoding.Label
import Relabel.Run.Failure
import Relabel.Script.FileName
import Relabel.Token.Shape
import Relabel.Url.Reference

namespace Relabel

/-- What a run is asked for. -/
structure Options where
  /-- What the names of classes begin with. -/
  classStart : Text := "c"
  /-- What the names of ids begin with. -/
  idStart : Text := "i"
  mode : Mode := .lenient
  /-- The address of the document. -/
  baseUrl : Option Text := none
  /-- The directory of scripts, below that of all output. -/
  scriptsDirectory : Text := "js"
  /-- The label of the encoding of the documents. -/
  encoding : Option Text := none
  deriving DecidableEq, Repr

namespace Options

/-- The beginning of the names for one kind of token. -/
def start (options : Options) : Kind → Text
  | .cls => options.classStart
  | .id => options.idStart

/-- Fails if names cannot begin as asked for. -/
def checkStart (options : Options) (kind : Kind) : Except Failure Unit :=
  if isIdentifierStart (options.start kind) then .ok ()
  else .error (.nameStart kind (options.start kind))

/-- Fails if scripts cannot be kept where asked for. -/
def checkDirectory (options : Options) : Except Failure Unit :=
  if isPlainDirectory options.scriptsDirectory then .ok ()
  else .error (.scriptsDirectory options.scriptsDirectory)

/-- Fails if the encoding is not known. -/
def checkEncoding (options : Options) : Except Failure Unit :=
  match options.encoding with
  | none => .ok ()
  | some label =>
    if (Encoding.ofLabel? label).isSome then .ok () else .error (.encodingOption label)

/-- The address of the document. White space alone is the same as none. -/
def base [InternationalNames] (options : Options) : Except Failure (Option Url) :=
  match options.baseUrl.map Text.strip with
  | none | some [] => .ok none
  | some text =>
    match baseUrl? text with
    | some url => .ok (some url)
    | none => .error (.baseUrl text)

/-- Fails with the first thing that cannot be used. -/
def check [InternationalNames] (options : Options) : Except Failure Unit := do
  options.checkStart .cls
  options.checkStart .id
  options.checkDirectory
  options.checkEncoding
  let _ ← options.base

end Options

end Relabel
