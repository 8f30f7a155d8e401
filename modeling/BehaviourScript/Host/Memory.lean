/-
This file holds a system in memory: its files, its environment variables, and
what was printed on it.
-/

import BehaviourScript.Disk

namespace BehaviourScript

/-- A system in memory. -/
structure MemoryHost where
  disk : Disk
  environment : List (String × String)
  output : String
  errors : String
  deriving DecidableEq

namespace MemoryHost

/-- A system on which nothing is printed yet. -/
def start (disk : Disk) (environment : List (String × String)) : MemoryHost :=
  ⟨disk, environment, "", ""⟩

/-- Changes the files, unless that fails. -/
def change (step : Disk → Except FileError Disk) : StateM MemoryHost (Except FileError Unit) :=
  fun system =>
    match step system.disk with
    | .ok disk => (.ok (), { system with disk := disk })
    | .error error => (.error error, system)

/-- The system in memory as the tool sees it. -/
def host : Host (StateM MemoryHost) where
  kind? path := do
    match (← get).disk.find path with
    | .ok (.file _) => return some .file
    | .ok .directory => return some .directory
    | .error _ => return none
  read path := do return (← get).disk.read path
  write path bytes := change (·.write path bytes)
  makeDirectories path := change (·.makeDirectories path)
  filesUnder path := do return (← get).disk.filesUnder path
  env? name := do return Assoc.get? name (← get).environment
  print text := modify fun system => { system with output := system.output ++ text }
  printError text := modify fun system => { system with errors := system.errors ++ text }

end MemoryHost

end BehaviourScript
