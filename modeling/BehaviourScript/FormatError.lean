/-
This file holds what can be wrong with a binary.
-/

namespace BehaviourScript

/-- The records that have reserved bits. -/
inductive RecordKind where
  | behaviourHeader | stateHeader | controlPacket | bodyHeader | conditionFlags | command
  | commandPack
  deriving DecidableEq

namespace RecordKind

/-- The name of a record in messages. -/
def text : RecordKind → String
  | behaviourHeader => "behaviour header"
  | stateHeader => "state header"
  | controlPacket => "control packet"
  | bodyHeader => "body header"
  | conditionFlags => "condition flags"
  | command => "command"
  | commandPack => "command pack"

end RecordKind

/-- Values that can be read and make no sense. -/
inductive Oddity where
  | stateCount
  | jump (target : Int)
  | startState (index : Nat)
  | objectSlot (slot : Int)
  | stateTarget (target : Int)
  deriving DecidableEq

namespace Oddity

/-- The wording of a value that makes no sense. -/
def text : Oddity → String
  | stateCount => "state count"
  | jump target => "jump to state " ++ toString target
  | startState index => "start state " ++ toString index
  | objectSlot slot => "object slot " ++ toString slot
  | stateTarget target => "state target " ++ toString target

end Oddity

/-- Why bytes are not a binary script. -/
inductive FormatError where
  | unexpectedEof (offset needed : Nat)
  | reservedBits (record : RecordKind) (offset bits : Nat)
  | nonsense (what : Oddity) (offset : Nat)
  | lengthMismatch (graphId declared actual : Nat)
  | trailingBytes (offset count : Nat)
  deriving DecidableEq

namespace FormatError

/-- The wording of an error. -/
def message : FormatError → String
  | unexpectedEof offset needed =>
    "unexpected end of data at offset " ++ toString offset ++ " (" ++ toString needed
      ++ " more bytes needed)"
  | reservedBits record offset bits =>
    "reserved bits 0x" ++ String.ofList (Nat.toDigits 16 bits) ++ " set in " ++ record.text
      ++ " at offset " ++ toString offset
  | nonsense what offset => "implausible " ++ what.text ++ " at offset " ++ toString offset
  | lengthMismatch graphId declared actual =>
    "graph " ++ toString graphId ++ " declares " ++ toString declared
      ++ " bytes but its records span " ++ toString actual
  | trailingBytes offset count =>
    toString count ++ " trailing bytes at offset " ++ toString offset

end FormatError

end BehaviourScript
