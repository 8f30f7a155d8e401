/-
This file holds the tree of a script. A script is a library of behaviours, a
single behaviour, which is a state machine, or a sequence of commands. Lists
are in source order, and every node carries the span it was read from.
-/

import BehaviourScript.Span

namespace BehaviourScript

/-- The binary operators. -/
inductive BinOp where
  | add | sub
  deriving DecidableEq

/-- An arithmetic expression over numbers and consts. -/
inductive Expr where
  | number (value : Int) (span : Span)
  | const (name : String) (span : Span)
  | neg (operand : Expr) (span : Span)
  | binary (op : BinOp) (left right : Expr) (span : Span)
  deriving DecidableEq

namespace Expr

/-- The span of an expression. -/
def span : Expr → Span
  | number _ span => span
  | const _ span => span
  | neg _ span => span
  | binary _ _ _ span => span

/-- A number that no source text was read for. -/
def literal (value : Int) : Expr := number value .dummy

/-- A sum or a difference. -/
def isBinary : Expr → Bool
  | binary .. => true
  | _ => false

/-- The consts an expression names, with their places, in source order. -/
def references : Expr → List (String × Span)
  | number _ _ => []
  | const name span => [(name, span)]
  | neg operand _ => operand.references
  | binary _ left right _ => left.references ++ right.references

end Expr

/-- A pointer into the host's assets: an ID, or a name that the host gives an
ID to. -/
inductive Reference where
  | literal (id : Int)
  | symbol (name : String)
  deriving DecidableEq

namespace Reference

/-- How a reference is written. -/
def text : Reference → String
  | literal id => toString id
  | symbol name => name

end Reference

/-- A named value: a setting of a control packet or a field of an assigner. -/
structure Assign where
  name : String
  value : Expr
  span : Span
  deriving DecidableEq

/-- A declared const. -/
structure ConstDecl where
  name : String
  value : Expr
  span : Span
  deriving DecidableEq

/-- The settings and the raw data words of a control packet. -/
structure ControlPacket where
  settings : List Assign
  data : List Expr
  deriving DecidableEq

namespace Attribute

/-- The attributes and what they hold. -/
inductive Kind where
  | globalIndex (value : Expr)
  | priority (value : Expr)
  | instanceType (value : Expr)
  | startFrom (state : String)
  | useObjectSlot (value : Expr)
  | controlPacket (packet : ControlPacket)
  | nonBlocking
  | skipFirstBody
  | unknown (value : Expr)
  deriving DecidableEq

namespace Kind

/-- The name an attribute is written with. -/
def name : Kind → String
  | globalIndex _ => "GlobalIndex"
  | priority _ => "Priority"
  | instanceType _ => "InstanceType"
  | startFrom _ => "StartFrom"
  | useObjectSlot _ => "UseObjectSlot"
  | controlPacket _ => "ControlPacket"
  | nonBlocking => "NonBlocking"
  | skipFirstBody => "SkipFirstBody"
  | unknown _ => "Unknown"

end Kind

end Attribute

/-- An attribute of a library, a behaviour, a sequence or a state. -/
structure Attribute where
  kind : Attribute.Kind
  span : Span
  deriving DecidableEq

/-- A test on the agent or its surroundings. -/
structure Condition where
  id : UInt16
  negate : Bool
  parameter : Option Expr
  span : Span
  deriving DecidableEq

/-- An instruction to the engine. -/
structure Command where
  id : UInt16
  args : List Expr
  span : Span
  deriving DecidableEq

/-- A body of a state: the condition it waits for, if any, its commands, and
the state it goes to in the end, if any. -/
structure StateBody where
  condition : Option Condition
  commands : List Command
  jump : Option String
  span : Span
  deriving DecidableEq

/-- A state of a behaviour, which may run another graph. -/
structure State where
  attributes : List Attribute
  name : String
  target : Option Reference
  bodies : List StateBody
  span : Span
  deriving DecidableEq

/-- The values an object starts with. -/
structure Assigner where
  object : Reference
  fields : List Assign
  span : Span
  deriving DecidableEq

/-- What a behaviour sets up before its first state. -/
structure Starter where
  assigners : List Assigner
  span : Span
  deriving DecidableEq

/-- A state machine. -/
structure Behaviour where
  attributes : List Attribute
  name : String
  consts : List ConstDecl
  starter : Option Starter
  states : List State
  span : Span
  deriving DecidableEq

/-- Commands that run along with a script. -/
structure CommandPack where
  script : Reference
  commands : List Command
  span : Span
  deriving DecidableEq

/-- A row of commands. -/
structure Sequence where
  attributes : List Attribute
  name : String
  consts : List ConstDecl
  packs : List CommandPack
  commands : List Command
  span : Span
  deriving DecidableEq

/-- Behaviours that share consts. -/
structure Library where
  attributes : List Attribute
  name : String
  consts : List ConstDecl
  behaviours : List Behaviour
  span : Span
  deriving DecidableEq

/-- A whole script. -/
inductive Script where
  | library (content : Library)
  | behaviour (content : Behaviour)
  | sequence (content : Sequence)
  deriving DecidableEq

namespace Script

/-- The declared name of a script. -/
def name : Script → String
  | library content => content.name
  | behaviour content => content.name
  | sequence content => content.name

/-- The consts declared at the top of a script. -/
def consts : Script → List ConstDecl
  | library content => content.consts
  | behaviour content => content.consts
  | sequence content => content.consts

end Script

end BehaviourScript
