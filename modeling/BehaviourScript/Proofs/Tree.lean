/-
This file holds the changes of a script that leave its shape alone: a function
is applied to every expression, and the places that nodes were read from are
dropped. With the function that only drops places this is the script as such,
and two scripts are the same up to spans if they agree on it.
-/

import BehaviourScript.Parser.Script

namespace BehaviourScript

namespace Expr

/-- An expression without the places it was read from. -/
def erase : Expr → Expr
  | number value _ => number value .dummy
  | const name _ => const name .dummy
  | neg operand _ => neg operand.erase .dummy
  | binary op left right _ => binary op left.erase right.erase .dummy

/-- What the text of an expression reads as: there are no negative numbers, only
minus signs in front of numbers. -/
def reread : Expr → Expr
  | number value _ =>
    if value < 0 then neg (number (-value) .dummy) .dummy else number value .dummy
  | const name _ => const name .dummy
  | neg operand _ => neg operand.reread .dummy
  | binary op left right _ => binary op left.reread right.reread .dummy

/-- No number in an expression is negative. -/
def Natural : Expr → Prop
  | number value _ => 0 ≤ value
  | const _ _ => True
  | neg operand _ => operand.Natural
  | binary _ left right _ => left.Natural ∧ right.Natural

/-- Nothing is left to erase after the first time. -/
@[simp] theorem erase_erase (expr : Expr) : expr.erase.erase = expr.erase := by
  induction expr with
  | number value span => rfl
  | const name span => rfl
  | neg operand span inductionHypothesis => rw [erase, erase, inductionHypothesis]
  | binary op left right span leftHypothesis rightHypothesis =>
    rw [erase, erase, leftHypothesis, rightHypothesis]

@[simp] theorem erase_reread (expr : Expr) : expr.reread.erase = expr.reread := by
  induction expr with
  | number value span =>
    rw [reread]
    split <;> rfl
  | const name span => rfl
  | neg operand span inductionHypothesis => rw [reread, erase, inductionHypothesis]
  | binary op left right span leftHypothesis rightHypothesis =>
    rw [reread, erase, leftHypothesis, rightHypothesis]

/-- An expression without negative numbers is read back as it is. -/
theorem Natural.reread_eq {expr : Expr} (natural : expr.Natural) : expr.reread = expr.erase := by
  induction expr with
  | number value span => exact if_neg (Int.not_lt.mpr natural)
  | const name span => rfl
  | neg operand span inductionHypothesis =>
    rw [reread, erase, inductionHypothesis natural]
  | binary op left right span leftHypothesis rightHypothesis =>
    rw [reread, erase, leftHypothesis natural.1, rightHypothesis natural.2]

end Expr

/-! ### Applying a function to all expressions

Each of these is the node with the function applied to the expressions below it
and without spans. -/

def Assign.mapExpr (change : Expr → Expr) (assign : Assign) : Assign where
  name := assign.name
  value := change assign.value
  span := .dummy

def ConstDecl.mapExpr (change : Expr → Expr) (decl : ConstDecl) : ConstDecl where
  name := decl.name
  value := change decl.value
  span := .dummy

def ControlPacket.mapExpr (change : Expr → Expr) (packet : ControlPacket) : ControlPacket where
  settings := packet.settings.map (Assign.mapExpr change)
  data := packet.data.map change

def Attribute.Kind.mapExpr (change : Expr → Expr) : Attribute.Kind → Attribute.Kind
  | .globalIndex value => .globalIndex (change value)
  | .priority value => .priority (change value)
  | .instanceType value => .instanceType (change value)
  | .startFrom state => .startFrom state
  | .useObjectSlot value => .useObjectSlot (change value)
  | .controlPacket packet => .controlPacket (packet.mapExpr change)
  | .nonBlocking => .nonBlocking
  | .skipFirstBody => .skipFirstBody
  | .unknown value => .unknown (change value)

def Attribute.mapExpr (change : Expr → Expr) (attr : Attribute) : Attribute where
  kind := attr.kind.mapExpr change
  span := .dummy

def Parser.Argument.mapExpr (change : Expr → Expr) : Parser.Argument → Parser.Argument
  | .named assign => .named (assign.mapExpr change)
  | .plain value => .plain (change value)

def Condition.mapExpr (change : Expr → Expr) (condition : Condition) : Condition where
  id := condition.id
  negate := condition.negate
  parameter := condition.parameter.map change
  span := .dummy

def Command.mapExpr (change : Expr → Expr) (command : Command) : Command where
  id := command.id
  args := command.args.map change
  span := .dummy

def StateBody.mapExpr (change : Expr → Expr) (body : StateBody) : StateBody where
  condition := body.condition.map (Condition.mapExpr change)
  commands := body.commands.map (Command.mapExpr change)
  jump := body.jump
  span := .dummy

def State.mapExpr (change : Expr → Expr) (state : State) : State where
  attributes := state.attributes.map (Attribute.mapExpr change)
  name := state.name
  target := state.target
  bodies := state.bodies.map (StateBody.mapExpr change)
  span := .dummy

def Assigner.mapExpr (change : Expr → Expr) (assigner : Assigner) : Assigner where
  object := assigner.object
  fields := assigner.fields.map (Assign.mapExpr change)
  span := .dummy

def Starter.mapExpr (change : Expr → Expr) (starter : Starter) : Starter where
  assigners := starter.assigners.map (Assigner.mapExpr change)
  span := .dummy

def Behaviour.mapExpr (change : Expr → Expr) (behaviour : Behaviour) : Behaviour where
  attributes := behaviour.attributes.map (Attribute.mapExpr change)
  name := behaviour.name
  consts := behaviour.consts.map (ConstDecl.mapExpr change)
  starter := behaviour.starter.map (Starter.mapExpr change)
  states := behaviour.states.map (State.mapExpr change)
  span := .dummy

def CommandPack.mapExpr (change : Expr → Expr) (pack : CommandPack) : CommandPack where
  script := pack.script
  commands := pack.commands.map (Command.mapExpr change)
  span := .dummy

def Sequence.mapExpr (change : Expr → Expr) (sequence : Sequence) : Sequence where
  attributes := sequence.attributes.map (Attribute.mapExpr change)
  name := sequence.name
  consts := sequence.consts.map (ConstDecl.mapExpr change)
  packs := sequence.packs.map (CommandPack.mapExpr change)
  commands := sequence.commands.map (Command.mapExpr change)
  span := .dummy

def Library.mapExpr (change : Expr → Expr) (library : Library) : Library where
  attributes := library.attributes.map (Attribute.mapExpr change)
  name := library.name
  consts := library.consts.map (ConstDecl.mapExpr change)
  behaviours := library.behaviours.map (Behaviour.mapExpr change)
  span := .dummy

namespace Script

def mapExpr (change : Expr → Expr) : Script → Script
  | library content => library (content.mapExpr change)
  | behaviour content => behaviour (content.mapExpr change)
  | sequence content => sequence (content.mapExpr change)

/-- A script without the places it was read from. -/
def erase (script : Script) : Script := script.mapExpr Expr.erase

/-- What the text of a script reads as. -/
def reread (script : Script) : Script := script.mapExpr Expr.reread

end Script

/-! ### Two functions one after the other -/

section Composition

variable (first second : Expr → Expr)

/-- Two changes of a row are one. -/
theorem map_mapExpr {α : Type} {mapExpr : (Expr → Expr) → α → α}
    (each : ∀ item, mapExpr second (mapExpr first item) = mapExpr (second ∘ first) item)
    (items : List α) :
    (items.map (mapExpr first)).map (mapExpr second) = items.map (mapExpr (second ∘ first)) := by
  rw [List.map_map]
  exact List.map_congr_left fun item _ => each item

theorem option_mapExpr {α : Type} {mapExpr : (Expr → Expr) → α → α}
    (each : ∀ item, mapExpr second (mapExpr first item) = mapExpr (second ∘ first) item)
    (item : Option α) :
    (item.map (mapExpr first)).map (mapExpr second) = item.map (mapExpr (second ∘ first)) := by
  cases item with
  | none => rfl
  | some value => exact congrArg some (each value)

theorem Attribute.mapExpr_mapExpr (attr : Attribute) :
    (attr.mapExpr first).mapExpr second = attr.mapExpr (second ∘ first) := by
  rw [mapExpr, mapExpr, mapExpr, Attribute.mk.injEq]
  refine ⟨?_, rfl⟩
  cases attr.kind with
  | controlPacket packet =>
    simp only [Kind.mapExpr, ControlPacket.mapExpr, List.map_map]
    rfl
  | _ => rfl

theorem Command.mapExpr_mapExpr (command : Command) :
    (command.mapExpr first).mapExpr second = command.mapExpr (second ∘ first) := by
  simp only [mapExpr, List.map_map]

theorem Condition.mapExpr_mapExpr (condition : Condition) :
    (condition.mapExpr first).mapExpr second = condition.mapExpr (second ∘ first) := by
  simp only [mapExpr, Option.map_map]

theorem StateBody.mapExpr_mapExpr (body : StateBody) :
    (body.mapExpr first).mapExpr second = body.mapExpr (second ∘ first) := by
  simp only [mapExpr, option_mapExpr first second (Condition.mapExpr_mapExpr first second),
    map_mapExpr first second (Command.mapExpr_mapExpr first second)]

theorem State.mapExpr_mapExpr (state : State) :
    (state.mapExpr first).mapExpr second = state.mapExpr (second ∘ first) := by
  simp only [mapExpr, map_mapExpr first second (Attribute.mapExpr_mapExpr first second),
    map_mapExpr first second (StateBody.mapExpr_mapExpr first second)]

theorem Assigner.mapExpr_mapExpr (assigner : Assigner) :
    (assigner.mapExpr first).mapExpr second = assigner.mapExpr (second ∘ first) := by
  simp only [mapExpr, List.map_map]
  rfl

theorem Starter.mapExpr_mapExpr (starter : Starter) :
    (starter.mapExpr first).mapExpr second = starter.mapExpr (second ∘ first) := by
  simp only [mapExpr, map_mapExpr first second (Assigner.mapExpr_mapExpr first second)]

theorem consts_mapExpr_mapExpr (consts : List ConstDecl) :
    (consts.map (ConstDecl.mapExpr first)).map (ConstDecl.mapExpr second) =
      consts.map (ConstDecl.mapExpr (second ∘ first)) :=
  map_mapExpr first second (fun _ => rfl) consts

theorem Behaviour.mapExpr_mapExpr (behaviour : Behaviour) :
    (behaviour.mapExpr first).mapExpr second = behaviour.mapExpr (second ∘ first) := by
  simp only [mapExpr, map_mapExpr first second (Attribute.mapExpr_mapExpr first second),
    consts_mapExpr_mapExpr, option_mapExpr first second (Starter.mapExpr_mapExpr first second),
    map_mapExpr first second (State.mapExpr_mapExpr first second)]

theorem CommandPack.mapExpr_mapExpr (pack : CommandPack) :
    (pack.mapExpr first).mapExpr second = pack.mapExpr (second ∘ first) := by
  simp only [mapExpr, map_mapExpr first second (Command.mapExpr_mapExpr first second)]

theorem Sequence.mapExpr_mapExpr (sequence : Sequence) :
    (sequence.mapExpr first).mapExpr second = sequence.mapExpr (second ∘ first) := by
  simp only [mapExpr, map_mapExpr first second (Attribute.mapExpr_mapExpr first second),
    consts_mapExpr_mapExpr, map_mapExpr first second (CommandPack.mapExpr_mapExpr first second),
    map_mapExpr first second (Command.mapExpr_mapExpr first second)]

theorem Library.mapExpr_mapExpr (library : Library) :
    (library.mapExpr first).mapExpr second = library.mapExpr (second ∘ first) := by
  simp only [mapExpr, map_mapExpr first second (Attribute.mapExpr_mapExpr first second),
    consts_mapExpr_mapExpr, map_mapExpr first second (Behaviour.mapExpr_mapExpr first second)]

/-- Two changes of the expressions of a script are one. -/
theorem Script.mapExpr_mapExpr (script : Script) :
    (script.mapExpr first).mapExpr second = script.mapExpr (second ∘ first) := by
  cases script with
  | library content => exact congrArg library (content.mapExpr_mapExpr first second)
  | behaviour content => exact congrArg behaviour (content.mapExpr_mapExpr first second)
  | sequence content => exact congrArg sequence (content.mapExpr_mapExpr first second)

end Composition

theorem Script.erase_erase (script : Script) : script.erase.erase = script.erase := by
  rw [erase, erase, mapExpr_mapExpr]
  exact congrArg script.mapExpr (funext Expr.erase_erase)

/-! ### Arguments of attributes -/

namespace Parser.Argument

theorem namedOnly_map (change : Expr → Expr) (arguments : List Argument) :
    namedOnly (arguments.map (mapExpr change)) =
      (namedOnly arguments).map (Assign.mapExpr change) := by
  induction arguments with
  | nil => rfl
  | cons argument others inductionHypothesis =>
    cases argument with
    | named assign => exact congrArg (assign.mapExpr change :: ·) inductionHypothesis
    | plain value => exact inductionHypothesis

theorem plainOnly_map (change : Expr → Expr) (arguments : List Argument) :
    plainOnly (arguments.map (mapExpr change)) = (plainOnly arguments).map change := by
  induction arguments with
  | nil => rfl
  | cons argument others inductionHypothesis =>
    cases argument with
    | named assign => exact inductionHypothesis
    | plain value => exact congrArg (change value :: ·) inductionHypothesis

/-- The settings are found among the arguments that a packet is printed with. -/
theorem namedOnly_split (settings : List Assign) (data : List Expr) :
    namedOnly (settings.map named ++ data.map plain) = settings := by
  have front : namedOnly (settings.map named) = settings := by
    rw [namedOnly, List.filterMap_map]
    exact List.filterMap_some
  have back : namedOnly (data.map plain) = [] := by
    rw [namedOnly, List.filterMap_map]
    exact List.filterMap_eq_nil_iff.mpr fun _ _ => rfl
  calc namedOnly (settings.map named ++ data.map plain)
      = namedOnly (settings.map named) ++ namedOnly (data.map plain) := List.filterMap_append
    _ = settings := by rw [front, back, List.append_nil]

theorem plainOnly_split (settings : List Assign) (data : List Expr) :
    plainOnly (settings.map named ++ data.map plain) = data := by
  have front : plainOnly (settings.map named) = [] := by
    rw [plainOnly, List.filterMap_map]
    exact List.filterMap_eq_nil_iff.mpr fun _ _ => rfl
  have back : plainOnly (data.map plain) = data := by
    rw [plainOnly, List.filterMap_map]
    exact List.filterMap_some
  calc plainOnly (settings.map named ++ data.map plain)
      = plainOnly (settings.map named) ++ plainOnly (data.map plain) := List.filterMap_append
    _ = data := by rw [front, back, List.nil_append]

end Parser.Argument

end BehaviourScript
