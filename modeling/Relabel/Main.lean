/-
**The command line.**

The files of the system in place of a disk, and the streams of the process. All decisions are made
by `runProgram`. No server can be reached from here, so every script keeps its remote address.
-/

import Relabel.Command.Program

namespace Relabel

/-! ### Files of the system -/

/-- The error of the system that an exception reports. -/
def systemError : IO.Error → FileError
  | .alreadyExists _ code _ | .permissionDenied _ code _ | .resourceExhausted _ code _
  | .inappropriateType _ code _ | .noSuchThing _ code _ | .invalidArgument _ code _ =>
    .numbered code.toNat
  | .interrupted _ code _ | .noFileOrDirectory _ code _ => .numbered code.toNat
  | .otherError code _ | .resourceBusy code _ | .resourceVanished code _
  | .unsupportedOperation code _ | .hardwareFault code _ | .unsatisfiedConstraints code _
  | .illegalOperation code _ | .protocolError code _ | .timeExpired code _ =>
    .numbered code.toNat
  | .unexpectedEof | .userError _ => .numbered 5

/-- The result of an action, with the error of the system if it throws one. -/
def attempt {α : Type} (action : IO α) : IO (Except FileError α) := do
  try
    return .ok (← action)
  catch error =>
    return .error (systemError error)

/-- The type of the file that a path leads to, if there is one. -/
def fileType? (path : Text) : IO (Option IO.FS.FileType) := do
  try
    return some (← (← IO.FS.realPath (String.ofList path)).metadata).type
  catch _ =>
    return none

/-- Writes a file. -/
def writeBytes (path : Text) (content : Bytes) : IO Unit :=
  IO.FS.writeBinFile (String.ofList path) ⟨content.toArray⟩

/-- Makes an empty file where nothing is. -/
def makeFile (path : Text) : IO Unit :=
  discard (IO.FS.Handle.mk (String.ofList path) .writeNew)

/-- Removes a file, if that is possible. -/
def dropFile (path : Text) : IO Unit :=
  discard (attempt (IO.FS.removeFile (String.ofList path)))

instance : FileSystem IO where
  isFile path := return (← fileType? path) == some .file
  isDirectory path := return (← fileType? path) == some .dir
  readFile path := attempt do return (← IO.FS.readBinFile (String.ofList path)).toList
  writeFile path content := attempt (writeBytes path content)
  createFile path := attempt (makeFile path)
  moveFile source target := attempt (IO.FS.rename (String.ofList source) (String.ofList target))
  removeFile path := dropFile path
  makeDirectory path := attempt (IO.FS.createDir (String.ofList path))

/-! ### The environment of the process -/

/-- The variables of settings that are set. -/
def processEnvironment : IO Environment := do
  let values ← Setting.all.mapM fun setting => do
    return (setting.name, ← IO.getEnv (String.ofList setting.name))
  return OrderedMap.ofList (values.filterMap fun (name, value) =>
    value.map fun value => (name, Utf8.encode value.toList))

end Relabel

open Relabel

/-- Runs the program with the arguments of the process. -/
def main (arguments : List String) : IO UInt32 := do
  let ending ← runProgram noServer (← processEnvironment) (arguments.map String.toList)
  IO.print (String.ofList ending.output)
  for line in ending.messages do
    IO.eprintln (String.ofList line)
  return ending.code.toUInt32
