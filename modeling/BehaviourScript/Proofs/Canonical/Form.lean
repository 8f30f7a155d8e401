/-
This file defines the canonical form of a script: what is left of it when it is
compiled. Expressions are the numbers they evaluate to and references the IDs
that the host gives them; consts are gone. States are called by their places,
and jumps with them. Attributes, settings and fields stand in the order of the
binary; what has a default is written out, and what the binary leaves out or
holds as zero is dropped.
-/

import BehaviourScript.Compiler

namespace BehaviourScript

open Decode (attr number stateName)

/-- The value of an expression, or zero if it has none. -/
def Env.value (env : Env) (expr : Expr) : Int := (env.eval expr).toOption.getD 0

/-- The ID of a reference, or zero if the host knows none. -/
def CompileResolvers.idOf (resolvers : CompileResolvers) (capability : Capability)
    (reference : Reference) : Int :=
  (resolvers.reference capability reference).toOption.getD 0

namespace Attribute.Kind

/-! ### What an attribute holds, if it is of a kind -/

def globalIndex? : Kind → Option Expr
  | globalIndex value => some value
  | _ => none

def priority? : Kind → Option Expr
  | priority value => some value
  | _ => none

def instanceType? : Kind → Option Expr
  | instanceType value => some value
  | _ => none

def startFrom? : Kind → Option String
  | startFrom state => some state
  | _ => none

def useObjectSlot? : Kind → Option Expr
  | useObjectSlot value => some value
  | _ => none

def controlPacket? : Kind → Option ControlPacket
  | controlPacket packet => some packet
  | _ => none

def unknown? : Kind → Option Expr
  | unknown value => some value
  | _ => none

end Attribute.Kind

namespace Canonical

/-- What the attribute of a kind holds, if there is one. -/
def pick {α : Type} (select : Attribute.Kind → Option α) (attributes : List Attribute) : Option α :=
  attributes.findSome? fun attr => select attr.kind

section Scoped

variable (env : Env)

/-- The value of the attribute of a kind. It is zero if there is none. -/
def pickValue (select : Attribute.Kind → Option Expr) (attributes : List Attribute) : Int :=
  ((pick select attributes).map env.value).getD 0

def expr (expr : Expr) : Expr := number (env.value expr)

/-- An attribute that is left out if its value is zero. -/
def unknown (attributes : List Attribute) : List Attribute :=
  if pickValue env Attribute.Kind.unknown? attributes = 0 then []
  else [attr (.unknown (number (pickValue env Attribute.Kind.unknown? attributes)))]

def command (command : Command) : Command where
  id := command.id
  args := command.args.map (expr env)
  span := .dummy

def condition (condition : Condition) : Condition where
  id := condition.id
  negate := condition.negate
  parameter := ((condition.parameter.map env.value).filter (· ≠ 0)).map number
  span := .dummy

/-- The place of a state by its name. -/
def place (states : List State) (name : String) : Nat := states.findIdx (·.name == name)

def body (states : List State) (body : StateBody) : StateBody where
  condition := body.condition.map (condition env)
  commands := body.commands.map (command env)
  jump := body.jump.map fun target => stateName (place states target)
  span := .dummy

/-- The assignment to a name. -/
def assigned (assigns : List Assign) (name : String) : Option Int :=
  (assigns.find? (·.name == name)).map fun assign => env.value assign.value

theorem assigned_cons_self {first : Assign} {name : String} (same : first.name = name)
    (others : List Assign) : assigned env (first :: others) name = some (env.value first.value) := by
  rw [assigned, List.find?_cons, beq_iff_eq.mpr same]
  rfl

theorem assigned_cons_other {first : Assign} {name : String} (different : first.name ≠ name)
    (others : List Assign) : assigned env (first :: others) name = assigned env others name := by
  rw [assigned, List.find?_cons, beq_eq_false_iff_ne.mpr different]
  rfl

theorem assigned_eq_none {assigns : List Assign} {name : String}
    (absent : name ∉ assigns.map Assign.name) : assigned env assigns name = none := by
  rw [assigned, Option.map_eq_none_iff, List.find?_eq_none]
  intro assign member matched
  exact absent (beq_iff_eq.mp matched ▸ List.mem_map_of_mem member)

def controlPacket (packet : ControlPacket) : ControlPacket where
  settings := Catalogue.settings.filterMap fun name =>
    (assigned env packet.settings name).map fun value => ⟨name, number value, .dummy⟩
  data := packet.data.map (expr env)

/-- The attributes of a state. -/
def stateAttributes (attributes : List Attribute) : List Attribute :=
  ((pick Attribute.Kind.useObjectSlot? attributes).toList.map fun slot =>
      attr (.useObjectSlot (expr env slot)))
    ++ ((pick Attribute.Kind.controlPacket? attributes).toList.map fun packet =>
      attr (.controlPacket (controlPacket env packet)))
    ++ (if attributes.any (·.kind = .nonBlocking) then [attr .nonBlocking] else [])
    ++ if attributes.any (·.kind = .skipFirstBody) then [attr .skipFirstBody] else []

variable (resolvers : CompileResolvers)

def state (states : List State) (index : Nat) (state : State) : State where
  attributes := stateAttributes env state.attributes
  name := stateName index
  target := state.target.map fun reference => .literal (resolvers.idOf .stateGraph reference)
  bodies := state.bodies.map (body env states)
  span := .dummy

def assigner (assigner : Assigner) : Assigner where
  object := .literal (resolvers.idOf .globalObject assigner.object)
  fields := Catalogue.assignerFields.filterMap fun name =>
    ((assigned env assigner.fields name).filter (· ≠ 0)).map fun value =>
      ⟨name, number value, .dummy⟩
  span := .dummy

def starter (starter : Starter) : Starter where
  assigners := starter.assigners.map (assigner env resolvers)
  span := .dummy

/-- A behaviour under a name and with more attributes in front of its own. -/
def behaviour (name : String) (attributes : List Attribute) (behaviour : Behaviour) : Behaviour where
  attributes := attributes
    ++ [attr (.priority (number (pickValue env Attribute.Kind.priority? behaviour.attributes))),
      attr (.startFrom (stateName (((pick Attribute.Kind.startFrom? behaviour.attributes).map
        (place behaviour.states)).getD 0)))]
    ++ unknown env behaviour.attributes
  name := name
  consts := []
  starter := behaviour.starter.map (starter env resolvers)
  states := behaviour.states.mapIdx (state env resolvers behaviour.states)
  span := .dummy

/-- The ID of a behaviour's graph: what its attribute says, or else what the host knows. -/
def graphId (behaviour : Behaviour) : Int :=
  ((pick Attribute.Kind.globalIndex? behaviour.attributes).map env.value).getD
    (resolvers.idOf .graph (.symbol behaviour.name))

/-- A behaviour of a library goes by the ID of its graph. -/
def entry (content : Behaviour) : Behaviour :=
  let id := graphId env resolvers content
  behaviour env resolvers (ItemKind.behaviour.fallbackName id.toNat)
    [attr (.globalIndex (number id))] content

def pack (pack : CommandPack) : CommandPack where
  script := .literal (resolvers.idOf .graph pack.script)
  commands := pack.commands.map (command env)
  span := .dummy

def sequence (sequence : Sequence) : Sequence where
  attributes :=
    [attr (.globalIndex (number (pickValue env Attribute.Kind.globalIndex? sequence.attributes))),
      attr (.instanceType (number (pickValue env Attribute.Kind.instanceType? sequence.attributes)))]
    ++ unknown env sequence.attributes
  name := sequence.name
  consts := []
  packs := sequence.packs.map (pack env resolvers)
  commands := sequence.commands.map (command env)
  span := .dummy

end Scoped

/-- Each behaviour of a library is in the scope of its own consts. -/
def library (resolvers : CompileResolvers) (table : SymbolTable) (library : Library) : Library where
  attributes := unknown table.rootEnv library.attributes
  name := library.name
  consts := []
  behaviours := library.behaviours.map fun content =>
    entry (table.behaviourEnv content.name) resolvers content
  span := .dummy

end Canonical

/-- The canonical form of a script whose consts are in a table. -/
def canonical (resolvers : CompileResolvers) (table : SymbolTable) : Script → Script
  | .library content => .library (Canonical.library resolvers table content)
  | .behaviour content =>
    .behaviour (Canonical.behaviour table.rootEnv resolvers content.name [] content)
  | .sequence content => .sequence (Canonical.sequence table.rootEnv resolvers content)

end BehaviourScript
