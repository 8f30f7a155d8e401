/-
This file reads the tool's files. Its settings say how chatty it is, how it
indents, and where its symbol file is. They come from a project's own file or
else from the user's, and what a file leaves out has a default. A symbol file has
a table of names and IDs for each kind of asset that it names.
-/

import BehaviourScript.Host
import BehaviourScript.Path
import BehaviourScript.Resolver
import BehaviourScript.Script.Printer
import BehaviourScript.Toml

namespace BehaviourScript

namespace ResolverSet

/-- The entry of a name that must have an integer. -/
def symbolEntry : String × Option Toml.Scalar → Except Toml.Fault (String × Int)
  | (name, some (.integer id)) => .ok (name, id)
  | (name, _) => .error (.wrongType name)

/-- The table of a name, if there is one. -/
def symbolTable? (document : Toml.Document) (name : String) :
    Except Toml.Fault (Option SymbolMap) := do
  match ← document.members? name with
  | none => return none
  | some members => return some (SymbolMap.ofList (← members.mapM symbolEntry))

/-- Reads a symbol file. Other tables and keys are passed over. -/
def ofToml (text : String) : Except Toml.Fault ResolverSet := do
  let document ← Toml.read text
  return {
    graphs := ← symbolTable? document "graphs"
    stateGraphs := ← symbolTable? document "state_graphs"
    objects := ← symbolTable? document "objects" }

end ResolverSet

/-- The tool's settings. -/
structure Config where
  logLevel : String := "info"
  useTabs : Bool := true
  indentWidth : Nat := 4
  symbolsPath : Option String := none
  deriving DecidableEq

/-- Why settings or symbols cannot be had. -/
inductive ConfigError where
  | file (error : FileError)
  | toml (fault : Toml.Fault)
  | noDirectory
  deriving DecidableEq

namespace ConfigError

/-- The wording of an error. -/
def message : ConfigError → String
  | file error => "IO error: " ++ error.message
  | toml fault => "Config parse error: " ++ fault.message
  | noDirectory => "Cannot determine config directory"

end ConfigError

namespace Config

/-- The print options among the settings. -/
def printOptions (config : Config) : PrintOptions := ⟨config.useTabs, config.indentWidth⟩

/-- The members of a table; none if there is no such table. -/
def members (document : Toml.Document) (table : String) :
    Except Toml.Fault (List (String × Option Toml.Scalar)) :=
  return (← document.members? table).getD []

/-- Reads a member of a table; what is left out has a default. -/
def member {α : Type} (members : List (String × Option Toml.Scalar)) (key : String) (default : α)
    (read : Toml.Scalar → Option α) : Except Toml.Fault α :=
  match Assoc.get? key members with
  | none => .ok default
  | some scalar =>
    match scalar.bind read with
    | some value => .ok value
    | none => .error (.wrongType key)

/-- A text. -/
def asText : Toml.Scalar → Option String
  | .text value => some value
  | _ => none

/-- A truth value. -/
def asBool : Toml.Scalar → Option Bool
  | .bool value => some value
  | _ => none

/-- A number that is not negative. -/
def asNat : Toml.Scalar → Option Nat
  | .integer (.ofNat value) => some value
  | _ => none

/-- Reads settings. Other tables and keys are passed over. -/
def ofToml (text : String) : Except Toml.Fault Config := do
  let document ← Toml.read text
  let log ← members document "log"
  let fmt ← members document "fmt"
  let symbols ← members document "symbols"
  return {
    logLevel := ← member log "level" "info" asText
    useTabs := ← member fmt "use_tabs" true asBool
    indentWidth := ← member fmt "indent_width" 4 asNat
    symbolsPath := ← member symbols "path" none (fun scalar => some <$> asText scalar) }

/-- The file of settings. -/
def toToml (config : Config) : String :=
  "[log]\nlevel = " ++ Toml.quote config.logLevel ++ "\n\n[fmt]\nuse_tabs = "
    ++ toString config.useTabs ++ "\nindent_width = " ++ toString config.indentWidth
    ++ "\n\n[symbols]\n"
    ++ match config.symbolsPath with
      | some path => "path = " ++ Toml.quote path ++ "\n"
      | none => ""

/-- The name of a project's file of settings. -/
def projectFile : String := "agentlab.toml"

section

variable {m : Type → Type} [Monad m]

/-- The directory of the user's settings. The first variable that is set says
where it is. -/
def directory? (host : Host m) : m (Option String) := do
  if let some base ← host.env? "XDG_CONFIG_HOME" then return some (Path.join base "agentlab")
  if let some home ← host.env? "HOME" then
    return some (Path.join (Path.join home ".config") "agentlab")
  if let some data ← host.env? "APPDATA" then return some (Path.join data "agentlab")
  return none

/-- The path of the user's settings. -/
def path? (host : Host m) : m (Option String) :=
  return (← directory? host).map (Path.join · "config.toml")

/-- The first file of settings there is: the project's, or else the user's. -/
def find? (host : Host m) (directory : String) : m (Option String) := do
  let project := Path.join directory projectFile
  if ← host.isFile project then return some project
  match ← path? host with
  | some path => return if ← host.isFile path then some path else none
  | none => return none

/-- Reads a file with a reader of its text. -/
def loadWith {α : Type} (host : Host m) (reader : String → Except Toml.Fault α) (path : String) :
    m (Except ConfigError α) := do
  match ← host.readText path with
  | .error error => return .error (.file error)
  | .ok text =>
    match reader text with
    | .ok value => return .ok value
    | .error fault => return .error (.toml fault)

/-- Reads the settings in a file. -/
def loadFrom (host : Host m) (path : String) : m (Except ConfigError Config) :=
  loadWith host ofToml path

/-- Reads the symbol file at a path. -/
def loadSymbols (host : Host m) (path : String) : m (Except ConfigError ResolverSet) :=
  loadWith host ResolverSet.ofToml path

/-- The settings that hold in a directory. -/
def load (host : Host m) (directory : String) : m (Except ConfigError Config) := do
  match ← find? host directory with
  | some path => loadFrom host path
  | none => return .ok {}

/-- Writes a file of settings into a directory, which is made if it is
missing. -/
def saveIn (host : Host m) (config : Config) (directory : String) : m (Except FileError Unit) := do
  let made ← if ← host.pathExists directory then pure (.ok ()) else host.makeDirectories directory
  match made with
  | .error error => return .error error
  | .ok () => host.writeText (Path.join directory "config.toml") config.toToml

/-- Writes the user's settings. -/
def save (host : Host m) (config : Config) : m (Except ConfigError Unit) := do
  match ← directory? host with
  | none => return .error .noDirectory
  | some directory =>
    match ← saveIn host config directory with
    | .ok () => return .ok ()
    | .error error => return .error (.file error)

end

end Config

end BehaviourScript
