/-
This file holds what the tool calls itself, the kinds of scripts, and the items
in which a host stores them.
-/

import BehaviourScript.Bytes
import BehaviourScript.Error

namespace BehaviourScript

namespace Product

/-- The tool's name. -/
def name : String := "AgentLab"

/-- The name that the tool is run by. -/
def program : String := "agentlab"

/-- The tool's version. -/
def version : String := "0.1.0"

/-- The extension of source files. -/
def sourceExtension : String := "agl"

end Product

/-- The kinds of scripts. -/
inductive ItemKind where
  | library | behaviour | sequence
  deriving DecidableEq

namespace ItemKind

/-- The name of a kind. -/
def text : ItemKind → String
  | library => "library"
  | behaviour => "behaviour"
  | sequence => "sequence"

/-- The kind of a name, in small or capital letters. A behaviour has two
spellings. -/
def ofText (name : String) : Except String ItemKind :=
  match name.toLower with
  | "library" => .ok library
  | "behaviour" => .ok behaviour
  | "behavior" => .ok behaviour
  | "sequence" => .ok sequence
  | other => .error ("unknown item kind `" ++ other ++ "`")

/-- What an item is called that has no name of its own. -/
def fallbackName (kind : ItemKind) (id : Nat) : String :=
  match kind with
  | library => "Library_" ++ toString id
  | behaviour => "Behaviour_" ++ toString id
  | sequence => "Sequence_" ++ toString id

end ItemKind

/-- The kind of a script. -/
def Script.kind : Script → ItemKind
  | .library _ => .library
  | .behaviour _ => .behaviour
  | .sequence _ => .sequence

/-- A script as a host stores it. -/
structure ScriptItem where
  id : Nat
  kind : ItemKind
  data : Bytes
  deriving DecidableEq

namespace ScriptItem

/-- What the host calls an item, or else a name made of its kind and ID. -/
def name (item : ScriptItem) (resolvers : DecompileResolvers) : Outcome String := do
  match ← Outcome.ofResolution (resolvers.graphIdentifier item.id) with
  | some name => return name
  | none => return item.kind.fallbackName item.id

end ScriptItem

end BehaviourScript
