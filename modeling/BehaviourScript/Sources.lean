/-
This file finds source files and compiles them one by one. A directory stands
for the source files below it, in the order of their paths.
-/

import BehaviourScript.Host
import BehaviourScript.Journal
import BehaviourScript.Path

namespace BehaviourScript

/-- Why source files cannot be found or compiled. -/
inductive SourceError where
  | missing (path : String)
  | unlisted (path : String) (error : FileError)
  | unreadable (path : String) (error : FileError)
  | broken (path : String) (error : Error)

namespace SourceError

/-- The wording of an error. -/
def message : SourceError → String
  | missing path => "Path does not exist: " ++ path
  | unlisted path error => "Failed to walk " ++ path ++ ": " ++ error.message
  | unreadable path error => "Failed to read file " ++ path ++ ": " ++ error.message
  | broken path error => path ++ " failed to compile: " ++ error.message

end SourceError

/-- What the check of a file gave. -/
structure CheckOutcome where
  path : String
  result : Except SourceError CompiledScript

namespace Sources

/-- Whether a path has the extension of source files. -/
def isSource (path : String) : Bool := Path.extension? path == some Product.sourceExtension

/-- The source files among others, in the order of their paths. -/
def sorted (files : List String) : List String :=
  (files.filter isSource).mergeSort fun left right =>
    Path.comesBefore (Path.components left) (Path.components right)

variable {m : Type → Type} [Monad m]

/-- The source files of a path. A file stands for itself. -/
def collectOne (host : Host m) (path : String) :
    m (Except SourceError (List String) × Journal) := do
  match ← host.kind? path with
  | none => return (.error (.missing path), [])
  | some .file =>
    let warning := if isSource path then [] else
      [⟨.warn, "checking " ++ path ++ " although it is not a ." ++ Product.sourceExtension
        ++ " file"⟩]
    return (.ok [path], warning)
  | some .directory =>
    match ← host.filesUnder path with
    | .error error => return (.error (.unlisted path error), [])
    | .ok files =>
      let found := sorted files
      return (.ok found,
        [⟨.debug, "found " ++ toString found.length ++ " source files under " ++ path⟩])

/-- The source files of all paths, in their order. -/
def collect (host : Host m) : List String → m (Except SourceError (List String) × Journal)
  | [] => return (.ok [], [])
  | path :: paths => do
    match ← collectOne host path with
    | (.error error, journal) => return (.error error, journal)
    | (.ok files, journal) =>
      let (others, later) ← collect host paths
      return (others.map (files ++ ·), journal ++ later)

/-- Compiles a file. -/
def checkOne (host : Host m) (resolvers : CompileResolvers) (path : String) :
    m (CheckOutcome × Journal) := do
  match ← host.readText path with
  | .error error => return (⟨path, .error (.unreadable path error)⟩, [])
  | .ok source =>
    let journal := Journal.ofCompiling resolvers source
    match compile resolvers source with
    | .error error => return (⟨path, .error (.broken path error)⟩, journal)
    | .ok script =>
      return (⟨path, .ok script⟩, journal ++
        [⟨.debug, path ++ ": `" ++ script.name ++ "` (" ++ toString script.bytes.length
          ++ " bytes)"⟩])

/-- Compiles files in their order. -/
def check (host : Host m) (resolvers : CompileResolvers) :
    List String → m (List CheckOutcome × Journal)
  | [] => return ([], [])
  | path :: paths => do
    let (outcome, journal) ← checkOne host resolvers path
    let (outcomes, later) ← check host resolvers paths
    return (outcome :: outcomes, journal ++ later)

end Sources

end BehaviourScript
