/-
This file says what the tool asks of the system it runs on: files, environment
variables and places to print to. The tool's own work is written against this
record, so it runs on a real system and on one in memory alike.
-/

import BehaviourScript.Bytes

namespace BehaviourScript

/-- Why a file or a directory cannot be used. -/
inductive FileError where
  | notFound
  | alreadyExists
  | notDirectory
  | isDirectory
  | nameTooLong
  | zeroInPath
  | invalidText
  | other (text : String)
  deriving DecidableEq

namespace FileError

/-- The wording of an error. -/
def message : FileError → String
  | notFound => "No such file or directory (os error 2)"
  | alreadyExists => "File exists (os error 17)"
  | notDirectory => "Not a directory (os error 20)"
  | isDirectory => "Is a directory (os error 21)"
  | nameTooLong => "File name too long (os error 36)"
  | zeroInPath => "file name contained an unexpected NUL byte"
  | invalidText => "stream did not contain valid UTF-8"
  | other text => text

end FileError

/-- What can stand at a path. -/
inductive PathKind where
  | file | directory
  deriving DecidableEq

/-- What the tool asks of the system. -/
structure Host (m : Type → Type) where
  /-- What stands at a path. -/
  kind? : String → m (Option PathKind)
  /-- The bytes of a file. -/
  read : String → m (Except FileError Bytes)
  /-- Makes a file or replaces its bytes. -/
  write : String → Bytes → m (Except FileError Unit)
  /-- Makes a directory and those above it that are missing. -/
  makeDirectories : String → m (Except FileError Unit)
  /-- The paths of all files below a directory, in any order. -/
  filesUnder : String → m (Except FileError (List String))
  /-- The value of an environment variable. -/
  env? : String → m (Option String)
  /-- Prints to the standard output. -/
  print : String → m Unit
  /-- Prints to the standard error output. -/
  printError : String → m Unit

namespace Host

variable {m : Type → Type} [Monad m]

/-- Whether a file stands at a path. -/
def isFile (host : Host m) (path : String) : m Bool :=
  return (← host.kind? path) == some .file

/-- Whether anything stands at a path. -/
def pathExists (host : Host m) (path : String) : m Bool :=
  return (← host.kind? path).isSome

/-- The text of a file. -/
def readText (host : Host m) (path : String) : m (Except FileError String) := do
  match ← host.read path with
  | .error error => return .error error
  | .ok bytes =>
    match String.fromUTF8? ⟨bytes.toArray⟩ with
    | some text => return .ok text
    | none => return .error .invalidText

/-- Makes a file with a text. -/
def writeText (host : Host m) (path text : String) : m (Except FileError Unit) :=
  host.write path text.toUTF8.toList

end Host

end BehaviourScript
