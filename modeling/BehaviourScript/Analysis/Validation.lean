/-
This file checks what the grammar cannot: that attributes stand where they may,
that names are not used twice, that jumps lead to states, and that every
expression has a value. The first fault in the order of these checks is the one
reported.
-/

import BehaviourScript.Scope

namespace BehaviourScript

/-- The outcome of a check. -/
abbrev Check := Except SemanticError Unit

/-- Fails with an error unless a condition holds. -/
def require (condition : Bool) (error : SemanticError) : Check :=
  if condition then .ok () else .error error

/-- Checks items in order, telling each whether its name has come before. -/
def checkNamed {α : Type} (name : α → String) (check : Bool → α → Check) :
    (seen : List String) → List α → Check
  | _, [] => .ok ()
  | seen, item :: rest => do
    check (seen.contains (name item)) item
    checkNamed name check (name item :: seen) rest

namespace Env

/-- An expression must have a value. -/
def checkExpr (env : Env) (expr : Expr) : Check := do
  let _ ← env.eval expr

/-- The arguments of commands must have values. -/
def checkCommands (env : Env) (commands : List Command) : Check :=
  commands.forM fun command => command.args.forM env.checkExpr

/-- Settings must be known, given once and have values, as must data words. -/
def checkControlPacket (env : Env) (packet : ControlPacket) : Check := do
  checkNamed Assign.name (fun repeated setting => do
    require (Catalogue.settingBit? setting.name).isSome
      (.unknownSetting setting.name setting.span.start)
    require (!repeated) (.duplicateSetting setting.name setting.span.start)
    env.checkExpr setting.value) [] packet.settings
  packet.data.forM env.checkExpr

/-- What an attribute holds must have values. -/
def checkAttributeKind (env : Env) : Attribute.Kind → Check
  | .globalIndex value => env.checkExpr value
  | .priority value => env.checkExpr value
  | .instanceType value => env.checkExpr value
  | .useObjectSlot value => env.checkExpr value
  | .unknown value => env.checkExpr value
  | .controlPacket packet => env.checkControlPacket packet
  | .startFrom _ => .ok ()
  | .nonBlocking => .ok ()
  | .skipFirstBody => .ok ()

/-- Attributes must be allowed where they stand and be given once. -/
def checkAttributes (env : Env) (placement : Placement) (attributes : List Attribute) : Check :=
  checkNamed (·.kind.name) (fun repeated attr => do
    require (placement.allows attr.kind)
      (.misplacedAttribute attr.kind.name placement attr.span.start)
    require (!repeated) (.duplicateAttribute attr.kind.name attr.span.start)
    env.checkAttributeKind attr.kind) [] attributes

/-- The fields of an assigner must be known, given once and have values. -/
def checkAssigner (env : Env) (assigner : Assigner) : Check :=
  checkNamed Assign.name (fun repeated field => do
    require (Catalogue.assignerFields.contains field.name && !repeated)
      (.unknownAssignerField field.name field.span.start)
    env.checkExpr field.value) [] assigner.fields

/-- A body's parameter and arguments must have values, and its jump a state. -/
def checkBody (env : Env) (states : List String) (body : StateBody) : Check := do
  (body.condition.bind (·.parameter)).forM env.checkExpr
  env.checkCommands body.commands
  body.jump.forM fun target =>
    require (states.contains target) (.undefinedState target body.span.start)

end Env

namespace State

/-- Whether a state takes its target from an object slot. -/
def usesObjectSlot (state : State) : Bool :=
  state.attributes.any fun attr =>
    match attr.kind with
    | .useObjectSlot _ => true
    | _ => false

end State

namespace Env

/-- A state must not name a graph and use an object slot. -/
def checkState (env : Env) (states : List String) (state : State) : Check := do
  env.checkAttributes .state state.attributes
  require (!(state.usesObjectSlot && state.target.isSome))
    (.conflictingStateTarget state.name state.span.start)
  state.bodies.forM (env.checkBody states)

/-- The state that a behaviour starts from must exist. -/
def checkStart (states : List String) (attr : Attribute) : Check :=
  match attr.kind with
  | .startFrom name => require (states.contains name) (.undefinedState name attr.span.start)
  | _ => .ok ()

/-- Checks a behaviour. -/
def checkBehaviour (env : Env) (placement : Placement) (behaviour : Behaviour) : Check := do
  env.checkAttributes placement behaviour.attributes
  checkNamed State.name (fun repeated state =>
    require (!repeated) (.duplicateState state.name state.span.start)) [] behaviour.states
  let states := behaviour.states.map State.name
  behaviour.attributes.forM (checkStart states)
  behaviour.starter.forM fun starter => starter.assigners.forM env.checkAssigner
  behaviour.states.forM (env.checkState states)

/-- Checks a sequence. -/
def checkSequence (env : Env) (sequence : Sequence) : Check := do
  env.checkAttributes .sequence sequence.attributes
  sequence.packs.forM fun pack => env.checkCommands pack.commands
  env.checkCommands sequence.commands

end Env

namespace SymbolTable

/-- Checks a library. -/
def checkLibrary (table : SymbolTable) (library : Library) : Check := do
  table.rootEnv.checkAttributes .library library.attributes
  checkNamed Behaviour.name (fun repeated behaviour => do
    require (!repeated) (.duplicateBehaviour behaviour.name behaviour.span.start)
    (table.behaviourEnv behaviour.name).checkBehaviour .libraryBehaviour behaviour)
    [] library.behaviours

/-- Checks a script whose scopes are built. -/
def check (table : SymbolTable) : Script → Check
  | .library library => table.checkLibrary library
  | .behaviour behaviour => table.rootEnv.checkBehaviour .behaviour behaviour
  | .sequence sequence => table.rootEnv.checkSequence sequence

end SymbolTable

end BehaviourScript
