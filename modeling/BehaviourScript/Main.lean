/-
This file runs the tool on the system that it was started on. Files are read
and written there; directories cannot be listed, so source files are named one
by one.
-/

import BehaviourScript.Tool

namespace BehaviourScript.NativeHost

/-- Whether a code of the system is a number or its negative. -/
def isCode (code number : UInt32) : Bool := code == number || code == 0 - number

/-- The cause of a failure that the system reports. -/
def fileError (error : IO.Error) : FileError :=
  match error with
  | .noFileOrDirectory _ _ _ => .notFound
  | .alreadyExists _ _ _ => .alreadyExists
  | .inappropriateType _ code _ => wrongKind code
  | _ => .other (toString error)
where
  /-- A directory in place of a file, or the other way round. -/
  wrongKind (code : UInt32) : FileError :=
    if isCode code 20 then .notDirectory
    else if isCode code 21 then .isDirectory
    else .other (toString error)

/-- Takes a failure as an answer. -/
def attempt {α : Type} (step : IO α) : IO (Except FileError α) := do
  match ← step.toBaseIO with
  | .ok value => return .ok value
  | .error error => return .error (fileError error)

/-- What stands at a path. A directory can be opened but not read. -/
def kind? (path : String) : IO (Option PathKind) := do
  match ← attempt (IO.FS.Handle.mk path .read) with
  | .error _ => return none
  | .ok handle =>
    match ← attempt (handle.read 1) with
    | .error .isDirectory => return some .directory
    | _ => return some .file

/-- The system that the tool was started on. -/
def host : Host IO where
  kind? := kind?
  read path := attempt do return (← IO.FS.readBinFile path).toList
  write path bytes := attempt (IO.FS.writeBinFile path ⟨bytes.toArray⟩)
  makeDirectories path := attempt (IO.FS.createDirAll path)
  filesUnder _ := return .error (.other "directories cannot be listed here")
  env? name := IO.getEnv name
  print text := do (← IO.getStdout).putStr text
  printError text := do (← IO.getStderr).putStr text

end BehaviourScript.NativeHost

/-- Runs the tool with the arguments that it was started with. -/
def main (arguments : List String) : IO UInt32 :=
  return UInt32.ofNat (← BehaviourScript.Tool.run BehaviourScript.NativeHost.host arguments)
