/-
This file lists every number that goes into the binary, with the range its
field holds.
-/

import BehaviourScript.Bytes
import BehaviourScript.Catalogue
import BehaviourScript.Layout
import BehaviourScript.Script

namespace BehaviourScript

/-- A number that goes into the binary, and whose it is. -/
inductive Quantity where
  | behaviourCount (library : String)
  | libraryUnknown (library : String)
  | graphId (behaviour : String)
  | graphLength (behaviour : String)
  | stateCount (behaviour : String)
  | priority (behaviour : String)
  | behaviourUnknown (behaviour : String)
  | assignerCount
  | object (reference : Reference)
  | assignerField (field : String)
  | bodyCount (state : String)
  | stateTarget (state : String)
  | setting (name : String)
  | dataCount
  | dataWord
  | conditionParameter (condition : UInt16)
  | argumentCount (command : UInt16)
  | argument (command : UInt16)
  | instanceType (sequence : String)
  | globalIndex (sequence : String)
  | sequenceUnknown (sequence : String)
  | packCount (sequence : String)
  | script (reference : Reference)
  deriving DecidableEq

namespace Quantity

/-- The wording of a quantity. -/
def text : Quantity → String
  | behaviourCount library => "behaviour count of library `" ++ library ++ "`"
  | libraryUnknown library => "`Unknown` of library `" ++ library ++ "`"
  | graphId behaviour => "graph id of behaviour `" ++ behaviour ++ "`"
  | graphLength behaviour => "byte length of behaviour `" ++ behaviour ++ "`"
  | stateCount behaviour => "state count of behaviour `" ++ behaviour ++ "`"
  | priority behaviour => "priority of behaviour `" ++ behaviour ++ "`"
  | behaviourUnknown behaviour => "`Unknown` of behaviour `" ++ behaviour ++ "`"
  | assignerCount => "assigner count"
  | object reference => "global object id `" ++ reference.text ++ "`"
  | assignerField field => "assigner field `" ++ field ++ "`"
  | bodyCount state => "body count of state `" ++ state ++ "`"
  | stateTarget state => "target of state `" ++ state ++ "`"
  | setting name => "control packet setting `" ++ name ++ "`"
  | dataCount => "control packet data count"
  | dataWord => "control packet data"
  | conditionParameter condition =>
    "parameter of condition `" ++ Catalogue.conditions.name condition ++ "`"
  | argumentCount command => "argument count of `" ++ Catalogue.commands.name command ++ "`"
  | argument command => "argument of `" ++ Catalogue.commands.name command ++ "`"
  | instanceType sequence => "instance type of sequence `" ++ sequence ++ "`"
  | globalIndex sequence => "global index of sequence `" ++ sequence ++ "`"
  | sequenceUnknown sequence => "`Unknown` of sequence `" ++ sequence ++ "`"
  | packCount sequence => "pack count of sequence `" ++ sequence ++ "`"
  | script reference => "script id `" ++ reference.text ++ "`"

/-- The least value of a quantity. Only words for the engine may be negative. -/
def min : Quantity → Int
  | dataWord => IntFormat.i32.min
  | conditionParameter _ => IntFormat.i32.min
  | argument _ => IntFormat.i32.min
  | _ => 0

/-- The greatest value of a quantity. -/
def max : Quantity → Int
  | behaviourCount _ => IntFormat.u16.max
  | libraryUnknown _ => IntFormat.u16.max
  | graphId _ => IntFormat.u32.max
  | graphLength _ => IntFormat.u32.max
  | stateCount _ => 256
  | priority _ => Layout.Graph.priority.max
  | behaviourUnknown _ => Layout.Graph.unknown.max
  | assignerCount => IntFormat.u16.max
  | object _ => IntFormat.u16.max
  | assignerField _ => 15
  | bodyCount _ => Layout.State.bodyCount.max
  | stateTarget _ => IntFormat.i16.max
  | setting _ => IntFormat.u8.max
  | dataCount => Layout.ControlPacket.dataCount.max
  | dataWord => IntFormat.i32.max
  | conditionParameter _ => IntFormat.i32.max
  | argumentCount _ => Layout.Command.argCount.max
  | argument _ => IntFormat.i32.max
  | instanceType _ => Layout.Sequence.instanceType.max
  | globalIndex _ => Layout.Sequence.globalIndex.max
  | sequenceUnknown _ => Layout.Sequence.unknown.max
  | packCount _ => Layout.Sequence.packCount.max
  | script _ => IntFormat.u16.max

/-- Whether a value is in a quantity's range. -/
def holds (quantity : Quantity) (value : Int) : Bool :=
  quantity.min ≤ value && value ≤ quantity.max

end Quantity

end BehaviourScript
