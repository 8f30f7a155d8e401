/-
This file turns references into IDs and IDs into references. The host says what
its assets are called, for each kind of asset or not at all. Without a
resolver only numbers can be compiled, and every ID is decompiled as a number.
-/

import BehaviourScript.Script
import BehaviourScript.SymbolMap
import BehaviourScript.Token

namespace BehaviourScript

/-- Why a name has no ID or an ID no name. -/
inductive ResolutionError where
  | unresolved (capability : Capability) (name : String)
  | unknownId (capability : Capability) (id : Int)
  | invalidName (capability : Capability) (name : String)
  deriving DecidableEq

namespace ResolutionError

/-- The wording of an error. -/
def message : ResolutionError → String
  | unresolved capability name => "unresolved " ++ capability.text ++ " `" ++ name ++ "`"
  | unknownId capability id => "no " ++ capability.text ++ " name for id " ++ toString id
  | invalidName capability name =>
    capability.text ++ " resolver produced invalid name `" ++ name ++ "`"

end ResolutionError

/-- What the host knows about names, by kind of asset. -/
structure CompileResolvers where
  graphs : Option (String → Option Int) := none
  stateGraphs : Option (String → Option Int) := none
  objects : Option (String → Option Int) := none

namespace CompileResolvers

/-- A host that knows no names. -/
def numbersOnly : CompileResolvers := {}

/-- What the host knows about the names of a kind of asset. -/
def get? (resolvers : CompileResolvers) : Capability → Option (String → Option Int)
  | .graph => resolvers.graphs
  | .stateGraph => resolvers.stateGraphs
  | .globalObject => resolvers.objects

/-- The ID of a name. -/
def id (resolvers : CompileResolvers) (capability : Capability) (name : String) :
    Except ResolutionError Int :=
  match (resolvers.get? capability).bind (· name) with
  | some id => .ok id
  | none => .error (.unresolved capability name)

/-- The ID that a reference stands for. -/
def reference (resolvers : CompileResolvers) (capability : Capability) :
    Reference → Except ResolutionError Int
  | .literal id => .ok id
  | .symbol name => resolvers.id capability name

end CompileResolvers

/-- What the host knows about IDs, by kind of asset. -/
structure DecompileResolvers where
  graphs : Option (Int → Option String) := none
  stateGraphs : Option (Int → Option String) := none
  objects : Option (Int → Option String) := none

namespace Reference

/-- The reference that a name from the host is: a symbol if it is an
identifier, and a number if it is one written the shortest way. -/
def ofName? (name : String) : Option Reference :=
  if isIdentifier name then some (symbol name)
  else
    match Numeral.readSigned? name.toList with
    | some id =>
      if -9223372036854775808 ≤ id ∧ id < 9223372036854775808 ∧ toString id = name then
        some (literal id)
      else none
    | none => none

end Reference

namespace DecompileResolvers

/-- A host that knows no IDs. -/
def numbersOnly : DecompileResolvers := {}

/-- What the host knows about the IDs of a kind of asset. -/
def get? (resolvers : DecompileResolvers) : Capability → Option (Int → Option String)
  | .graph => resolvers.graphs
  | .stateGraph => resolvers.stateGraphs
  | .globalObject => resolvers.objects

/-- The reference that an ID is written as. -/
def reference (resolvers : DecompileResolvers) (capability : Capability) (id : Int) :
    Except ResolutionError Reference :=
  match resolvers.get? capability with
  | none => .ok (.literal id)
  | some nameOf =>
    match nameOf id with
    | none => .error (.unknownId capability id)
    | some name =>
      match Reference.ofName? name with
      | some reference => .ok reference
      | none => .error (.invalidName capability name)

/-- The identifier of a graph, if the host has one for it. -/
def graphIdentifier (resolvers : DecompileResolvers) (id : Int) :
    Except ResolutionError (Option String) :=
  if resolvers.graphs.isNone then .ok none
  else
    match resolvers.reference .graph id with
    | .ok (.symbol name) => .ok (some name)
    | .ok (.literal _) => .ok none
    | .error error => .error error

end DecompileResolvers

/-- The text that tells which kinds of assets a host knows. -/
def installedText (title : String) (graphs stateGraphs objects : Bool) : String :=
  title ++ " \x7b graphs: " ++ toString graphs ++ ", state_graphs: " ++ toString stateGraphs
    ++ ", objects: " ++ toString objects ++ " \x7d"

/-- Which names a host knows. -/
def CompileResolvers.text (resolvers : CompileResolvers) : String :=
  installedText "CompileResolvers" resolvers.graphs.isSome resolvers.stateGraphs.isSome
    resolvers.objects.isSome

/-- Which IDs a host knows. -/
def DecompileResolvers.text (resolvers : DecompileResolvers) : String :=
  installedText "DecompileResolvers" resolvers.graphs.isSome resolvers.stateGraphs.isSome
    resolvers.objects.isSome

namespace DecimalNames

/-- The ID that a name is in decimal. A plus sign is allowed, and a minus sign
where IDs can be negative. -/
def id? (capability : Capability) (name : String) : Option Int :=
  match capability.format.signed, name.toList with
  | false, '-' :: _ => none
  | _, digits => (Numeral.readSigned? digits).filter capability.format.holds

/-- The decimal name of an ID. -/
def name? (id : Int) : Option String := some (toString id)

end DecimalNames

/-- A table for each kind of asset that the host names. -/
structure ResolverSet where
  graphs : Option SymbolMap := none
  stateGraphs : Option SymbolMap := none
  objects : Option SymbolMap := none
  deriving DecidableEq

namespace ResolverSet

/-- The names of the tables. -/
def compileResolvers (set : ResolverSet) : CompileResolvers where
  graphs := set.graphs.map (·.resolve .graph)
  stateGraphs := set.stateGraphs.map (·.resolve .stateGraph)
  objects := set.objects.map (·.resolve .globalObject)

/-- The IDs of the tables. -/
def decompileResolvers (set : ResolverSet) : DecompileResolvers where
  graphs := set.graphs.map (·.name?)
  stateGraphs := set.stateGraphs.map (·.name?)
  objects := set.objects.map (·.name?)

end ResolverSet

end BehaviourScript
