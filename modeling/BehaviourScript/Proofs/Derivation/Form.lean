/-
This file holds the derivations of the grammar as trees of their own, one type for
each of its rules:

  root      := library | behaviour | sequence
  library   := attribute* 'library' NAME '{' const* behaviour* '}'
  behaviour := attribute* 'behaviour' NAME '{' const* starter? state+ '}'
  sequence  := attribute* 'sequence' NAME '{' const* pack* command* '}'
  starter   := 'starter' '{' assigner* '}'
  assigner  := 'assign' reference ('(' assign (',' assign)* ')')? ';'
  state     := attribute* 'state' NAME '(' reference? ')' '{' body* '}'
  body      := ('if' condition | 'do') '{' command* ('goto' NAME ';')? '}'
  condition := 'not'? NAME '(' sum? ')'
  command   := NAME '(' (sum (',' sum)*)? ')' ';'
  pack      := 'pack' '(' reference ')' '{' command* '}'
  attribute := '[' NAME ('(' (argument (',' argument)*)? ')')? ']'
  argument  := assign | sum
  assign    := NAME '=' sum
  const     := 'const' NAME '=' sum ';'
  reference := NUMBER | '-' NUMBER | NAME
  sum       := unary (('+' | '-') unary)*
  unary     := '-' unary | NUMBER | NAME | '(' sum ')'

A derivation has its row of kinds, its sums, and the tree that it stands for, if
its names are known and its attributes have the arguments they take. Where the
name of a state is asked for, it may stand in parentheses; the grammar as it is
documented has none there.
-/

import BehaviourScript.Proofs.Printed.Kinds

namespace BehaviourScript

open Token

namespace Derivation

/-! ### Sums -/

mutual

inductive Unary where
  | neg (operand : Unary)
  | number (value : Int64)
  | const (name : String)
  | parens (first : Unary) (others : Chain)

/-- The further operands of a sum. -/
inductive Chain where
  | done
  | more (op : BinOp) (operand : Unary) (others : Chain)

end

structure Sum where
  first : Unary
  others : Chain

mutual

def Unary.kinds : Unary → List Kind
  | .neg operand => .punct .minus :: operand.kinds
  | .number value => [.number value]
  | .const name => [.identifier name]
  | .parens first others =>
    .punct .leftParen :: (first.kinds ++ others.kinds ++ [.punct .rightParen])

def Chain.kinds : Chain → List Kind
  | .done => []
  | .more op operand others => .punct op.mark :: (operand.kinds ++ others.kinds)

end

mutual

def Unary.tree : Unary → Expr
  | .neg operand => .neg operand.tree .dummy
  | .number value => .number value.toInt .dummy
  | .const name => .const name .dummy
  | .parens first others => others.tree first.tree

/-- What stands before the operands is the left side of the first of them. -/
def Chain.tree : Chain → Expr → Expr
  | .done, left => left
  | .more op operand others, left => others.tree (.binary op left operand.tree .dummy)

end

mutual

/-- How far the counter of nesting goes up in an operand. -/
def Unary.depth : Unary → Nat
  | .neg operand => operand.depth + 1
  | .number _ => 0
  | .const _ => 0
  | .parens first others => max first.depth others.depth + 1

/-- The counter goes up with every operator and stays up to the end of the sum. -/
def Chain.depth : Chain → Nat
  | .done => 0
  | .more _ operand others => max operand.depth others.depth + 1

end

/-- The name that an operand is, however many parentheses it stands in. -/
def Unary.name? : Unary → Option String
  | .const name => some name
  | .parens first .done => first.name?
  | _ => none

/-- The operands with the operators in front of them. -/
def Chain.operands : Chain → List (BinOp × Unary)
  | .done => []
  | .more op operand others => (op, operand) :: others.operands

namespace Sum

def kinds (sum : Sum) : List Kind := sum.first.kinds ++ sum.others.kinds

def tree (sum : Sum) : Expr := sum.others.tree sum.first.tree

def depth (sum : Sum) : Nat := max sum.first.depth sum.others.depth

/-- The name that a sum is, however many parentheses it stands in. -/
def name? : Sum → Option String
  | ⟨first, .done⟩ => first.name?
  | _ => none

end Sum

/-! ### Attributes -/

inductive Reference where
  | number (value : Int64)
  | negative (value : Int64)
  | symbol (name : String)

namespace Reference

def kinds : Reference → List Kind
  | number value => [.number value]
  | negative value => [.punct .minus, .number value]
  | symbol name => [.identifier name]

def tree : Reference → BehaviourScript.Reference
  | number value => .literal value.toInt
  | negative value => .literal (-value).toInt
  | symbol name => .symbol name

end Reference

structure Assign where
  name : String
  value : Sum

namespace Assign

def kinds (assign : Assign) : List Kind :=
  .identifier assign.name :: .punct .equals :: assign.value.kinds

def tree (assign : Assign) : BehaviourScript.Assign := ⟨assign.name, assign.value.tree, .dummy⟩

end Assign

inductive Argument where
  | named (assign : Assign)
  | plain (value : Sum)

namespace Argument

def kinds : Argument → List Kind
  | named assign => assign.kinds
  | plain value => value.kinds

def sum : Argument → Sum
  | named assign => assign.value
  | plain value => value

def tree : Argument → Parser.Argument
  | named assign => .named assign.tree
  | plain value => .plain value.tree

/-- Whether an argument is a name and nothing else. -/
def isName : Argument → Bool
  | plain ⟨.const _, .done⟩ => true
  | _ => false

end Argument

/-- An attribute may have no parentheses, or nothing between them. -/
structure Attribute where
  name : String
  arguments : Option (List Argument)

/-- The attributes that there are, by name and arguments. The name of a state may stand in
parentheses. -/
def shape? (name : String) (arguments : List Argument) : Option BehaviourScript.Attribute.Kind :=
  match name, arguments with
  | "GlobalIndex", [.plain value] => some (.globalIndex value.tree)
  | "Priority", [.plain value] => some (.priority value.tree)
  | "InstanceType", [.plain value] => some (.instanceType value.tree)
  | "UseObjectSlot", [.plain value] => some (.useObjectSlot value.tree)
  | "Unknown", [.plain value] => some (.unknown value.tree)
  | "StartFrom", [.plain state] => state.name?.map .startFrom
  | "ControlPacket", arguments =>
    some (.controlPacket ⟨Parser.Argument.namedOnly (arguments.map Argument.tree),
      Parser.Argument.plainOnly (arguments.map Argument.tree)⟩)
  | "NonBlocking", [] => some .nonBlocking
  | "SkipFirstBody", [] => some .skipFirstBody
  | _, _ => none

namespace Attribute

def argumentKinds : Option (List Argument) → List Kind
  | none => []
  | some arguments => .punct .leftParen :: listedKinds (arguments.map Argument.kinds)

def kinds (attr : Attribute) : List Kind :=
  .punct .leftBracket :: .identifier attr.name ::
    (argumentKinds attr.arguments ++ [.punct .rightBracket])

def sums (attr : Attribute) : List Sum := (attr.arguments.getD []).map Argument.sum

def tree? (attr : Attribute) : Option BehaviourScript.Attribute :=
  (shape? attr.name (attr.arguments.getD [])).map (⟨·, .dummy⟩)

/-- An attribute as it is documented: the argument of `StartFrom` is the name of a state, with no
parentheses around it. -/
def Documented (attr : Attribute) : Prop :=
  attr.name = "StartFrom" → (attr.arguments.getD []).all Argument.isName = true
  deriving Decidable

end Attribute

/-! ### Commands and states -/

structure ConstDecl where
  name : String
  value : Sum

namespace ConstDecl

def kinds (decl : ConstDecl) : List Kind :=
  .keyword .const :: .identifier decl.name :: .punct .equals ::
    (decl.value.kinds ++ [.punct .semicolon])

def tree (decl : ConstDecl) : BehaviourScript.ConstDecl := ⟨decl.name, decl.value.tree, .dummy⟩

end ConstDecl

structure Command where
  name : String
  args : List Sum

namespace Command

def kinds (command : Command) : List Kind :=
  .identifier command.name :: .punct .leftParen ::
    (listedKinds (command.args.map Sum.kinds) ++ [.punct .semicolon])

def tree? (command : Command) : Option BehaviourScript.Command :=
  (Catalogue.commands.id? command.name).map (⟨·, command.args.map Sum.tree, .dummy⟩)

end Command

structure Condition where
  negated : Bool
  name : String
  parameter : Option Sum

namespace Condition

def kinds (condition : Condition) : List Kind :=
  Grammar.negation condition.negated ++ .identifier condition.name :: .punct .leftParen ::
    optionalKinds (condition.parameter.map Sum.kinds)

def tree? (condition : Condition) : Option BehaviourScript.Condition :=
  (Catalogue.conditions.id? condition.name).map
    (⟨·, condition.negated, condition.parameter.map Sum.tree, .dummy⟩)

end Condition

structure Body where
  condition : Option Condition
  commands : List Command
  jump : Option String

namespace Body

def guardKinds : Option Condition → List Kind
  | some condition => .keyword .if :: condition.kinds
  | none => [.keyword .do]

def kinds (body : Body) : List Kind :=
  guardKinds body.condition ++ .punct .leftBrace :: (body.commands.flatMap Command.kinds ++
    (StateBody.jumpKinds body.jump ++ [.punct .rightBrace]))

def sums (body : Body) : List Sum :=
  body.condition.toList.flatMap (·.parameter.toList) ++ body.commands.flatMap Command.args

def tree? (body : Body) : Option StateBody := do
  let condition ← body.condition.mapM Condition.tree?
  let commands ← body.commands.mapM Command.tree?
  return ⟨condition, commands, body.jump, .dummy⟩

end Body

structure State where
  attributes : List Attribute
  name : String
  target : Option Reference
  bodies : List Body

namespace State

def kinds (state : State) : List Kind :=
  state.attributes.flatMap Attribute.kinds ++ .keyword .state :: .identifier state.name ::
    .punct .leftParen :: (optionalKinds (state.target.map Reference.kinds) ++
      .punct .leftBrace :: (state.bodies.flatMap Body.kinds ++ [.punct .rightBrace]))

def sums (state : State) : List Sum :=
  state.attributes.flatMap Attribute.sums ++ state.bodies.flatMap Body.sums

def tree? (state : State) : Option BehaviourScript.State := do
  let attributes ← state.attributes.mapM Attribute.tree?
  let bodies ← state.bodies.mapM Body.tree?
  return ⟨attributes, state.name, state.target.map Reference.tree, bodies, .dummy⟩

end State

/-! ### Whole scripts -/

/-- An assigner without fields has no parentheses. -/
structure Assigner where
  object : Reference
  fields : List Assign

namespace Assigner

def fieldKinds : List Assign → List Kind
  | [] => []
  | field :: others => .punct .leftParen :: listedKinds ((field :: others).map Assign.kinds)

def kinds (assigner : Assigner) : List Kind :=
  .keyword .assign ::
    (assigner.object.kinds ++ (fieldKinds assigner.fields ++ [.punct .semicolon]))

def sums (assigner : Assigner) : List Sum := assigner.fields.map Assign.value

def tree (assigner : Assigner) : BehaviourScript.Assigner :=
  ⟨assigner.object.tree, assigner.fields.map Assign.tree, .dummy⟩

end Assigner

structure Starter where
  assigners : List Assigner

namespace Starter

def kinds (starter : Starter) : List Kind :=
  .keyword .starter :: .punct .leftBrace ::
    (starter.assigners.flatMap Assigner.kinds ++ [.punct .rightBrace])

def sums (starter : Starter) : List Sum := starter.assigners.flatMap Assigner.sums

def tree (starter : Starter) : BehaviourScript.Starter :=
  ⟨starter.assigners.map Assigner.tree, .dummy⟩

end Starter

/-- A behaviour has a first state. -/
structure Behaviour where
  attributes : List Attribute
  name : String
  consts : List ConstDecl
  starter : Option Starter
  first : State
  others : List State

namespace Behaviour

def bodyKinds (behaviour : Behaviour) : List Kind :=
  .keyword .behaviour :: .identifier behaviour.name :: .punct .leftBrace ::
    (behaviour.consts.flatMap ConstDecl.kinds ++ (behaviour.starter.toList.flatMap Starter.kinds ++
      ((behaviour.first :: behaviour.others).flatMap State.kinds ++ [.punct .rightBrace])))

def kinds (behaviour : Behaviour) : List Kind :=
  behaviour.attributes.flatMap Attribute.kinds ++ behaviour.bodyKinds

def sums (behaviour : Behaviour) : List Sum :=
  behaviour.attributes.flatMap Attribute.sums ++ (behaviour.consts.map ConstDecl.value ++
    (behaviour.starter.toList.flatMap Starter.sums ++
      (behaviour.first :: behaviour.others).flatMap State.sums))

/-- The attributes of a behaviour and of its states. -/
def marks (behaviour : Behaviour) : List Attribute :=
  behaviour.attributes ++ (behaviour.first :: behaviour.others).flatMap State.attributes

def tree? (behaviour : Behaviour) : Option BehaviourScript.Behaviour := do
  let attributes ← behaviour.attributes.mapM Attribute.tree?
  let states ← (behaviour.first :: behaviour.others).mapM State.tree?
  return ⟨attributes, behaviour.name, behaviour.consts.map ConstDecl.tree,
    behaviour.starter.map Starter.tree, states, .dummy⟩

end Behaviour

structure Library where
  attributes : List Attribute
  name : String
  consts : List ConstDecl
  behaviours : List Behaviour

namespace Library

def bodyKinds (library : Library) : List Kind :=
  .keyword .library :: .identifier library.name :: .punct .leftBrace ::
    (library.consts.flatMap ConstDecl.kinds ++
      (library.behaviours.flatMap Behaviour.kinds ++ [.punct .rightBrace]))

def sums (library : Library) : List Sum :=
  library.attributes.flatMap Attribute.sums ++ (library.consts.map ConstDecl.value ++
    library.behaviours.flatMap Behaviour.sums)

def tree? (library : Library) : Option BehaviourScript.Library := do
  let attributes ← library.attributes.mapM Attribute.tree?
  let behaviours ← library.behaviours.mapM Behaviour.tree?
  return ⟨attributes, library.name, library.consts.map ConstDecl.tree, behaviours, .dummy⟩

end Library

structure Pack where
  script : Reference
  commands : List Command

namespace Pack

def kinds (pack : Pack) : List Kind :=
  .keyword .pack :: .punct .leftParen :: (pack.script.kinds ++ .punct .rightParen ::
    .punct .leftBrace :: (pack.commands.flatMap Command.kinds ++ [.punct .rightBrace]))

def sums (pack : Pack) : List Sum := pack.commands.flatMap Command.args

def tree? (pack : Pack) : Option CommandPack := do
  let commands ← pack.commands.mapM Command.tree?
  return ⟨pack.script.tree, commands, .dummy⟩

end Pack

structure Sequence where
  attributes : List Attribute
  name : String
  consts : List ConstDecl
  packs : List Pack
  commands : List Command

namespace Sequence

def bodyKinds (sequence : Sequence) : List Kind :=
  .keyword .sequence :: .identifier sequence.name :: .punct .leftBrace ::
    (sequence.consts.flatMap ConstDecl.kinds ++ (sequence.packs.flatMap Pack.kinds ++
      (sequence.commands.flatMap Command.kinds ++ [.punct .rightBrace])))

def sums (sequence : Sequence) : List Sum :=
  sequence.attributes.flatMap Attribute.sums ++ (sequence.consts.map ConstDecl.value ++
    (sequence.packs.flatMap Pack.sums ++ sequence.commands.flatMap Command.args))

def tree? (sequence : Sequence) : Option BehaviourScript.Sequence := do
  let attributes ← sequence.attributes.mapM Attribute.tree?
  let packs ← sequence.packs.mapM Pack.tree?
  let commands ← sequence.commands.mapM Command.tree?
  return ⟨attributes, sequence.name, sequence.consts.map ConstDecl.tree, packs, commands, .dummy⟩

end Sequence

inductive Root where
  | library (content : Library)
  | behaviour (content : Behaviour)
  | sequence (content : Sequence)

namespace Root

def attributes : Root → List Attribute
  | library content => content.attributes
  | behaviour content => content.attributes
  | sequence content => content.attributes

def bodyKinds : Root → List Kind
  | library content => content.bodyKinds
  | behaviour content => content.bodyKinds
  | sequence content => content.bodyKinds

/-- The kinds that a derivation derives. -/
def kinds (root : Root) : List Kind :=
  root.attributes.flatMap Attribute.kinds ++ root.bodyKinds

/-- The sums in a derivation. -/
def sums : Root → List Sum
  | library content => content.sums
  | behaviour content => content.sums
  | sequence content => content.sums

/-- The attributes in a derivation. -/
def marks : Root → List Attribute
  | library content => content.attributes ++ content.behaviours.flatMap Behaviour.marks
  | behaviour content => content.marks
  | sequence content => content.attributes

/-- A derivation of the grammar as it is documented. -/
def Documented (root : Root) : Prop := ∀ attr ∈ root.marks, attr.Documented
  deriving Decidable

/-- The script that a derivation stands for. There is none if an attribute has another name or
other arguments than the attributes that there are, or if the catalogue does not know the name of
a command or a condition. -/
def tree? : Root → Option Script
  | library content => content.tree?.map .library
  | behaviour content => content.tree?.map .behaviour
  | sequence content => content.tree?.map .sequence

end Root

end Derivation

end BehaviourScript
