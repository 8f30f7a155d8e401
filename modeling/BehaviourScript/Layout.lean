/-
This file holds the bit fields of the binary's header words. A field is a run
of bits inside a word of 16 or 32 bits. Every record's fields and its reserved
run, which must be zero, share the record's word without overlap.
-/

namespace BehaviourScript.Layout

/-- A run of bits inside a word. -/
structure Field where
  shift : Nat
  width : Nat
  deriving DecidableEq

namespace Field

/-- The largest value a field holds. A word has 32 bits, so no field holds
more. -/
def max (field : Field) : Nat := Nat.pow 2 (min field.width 32) - 1

/-- The value of a field of a word. -/
def get (field : Field) (word : Nat) : Nat := (word >>> field.shift) &&& field.max

/-- Whether a field of a word is not zero. -/
def flag (field : Field) (word : Nat) : Bool := field.get word != 0

/-- A word with a value in a field and zeros elsewhere. Bits that the field or
the word does not hold are dropped. -/
def put (field : Field) (value : Nat) : Nat :=
  ((value &&& field.max) <<< field.shift) % 4294967296

/-- A word with a flag in a field and zeros elsewhere. -/
def putFlag (field : Field) (set : Bool) : Nat := field.put set.toNat

end Field

/-- A word with a value in each of several fields. -/
def pack (fields : List (Field × Nat)) : Nat :=
  fields.foldr (fun entry word => entry.1.put entry.2 ||| word) 0

/-! ### The header of a behaviour's graph, 32 bits -/

namespace Graph

def startState : Field := ⟨0, 8⟩
def priority : Field := ⟨8, 8⟩
def hasStarter : Field := ⟨16, 1⟩
def reserved : Field := ⟨17, 7⟩
def unknown : Field := ⟨24, 8⟩

end Graph

/-! ### The values of an assigner, 16 bits -/

namespace Assigner

/-- One nibble for each of the assigner's fields, in their order. -/
def nibbles : List Field := [⟨0, 4⟩, ⟨4, 4⟩, ⟨8, 4⟩, ⟨12, 4⟩]

end Assigner

/-! ### The header of a state, 16 bits -/

namespace State

def bodyCount : Field := ⟨0, 5⟩
def skipFirstBody : Field := ⟨5, 1⟩
def nonBlocking : Field := ⟨6, 1⟩
def usesObjectSlot : Field := ⟨7, 1⟩
def hasControlPacket : Field := ⟨8, 1⟩
def hasNext : Field := ⟨9, 1⟩
def reserved : Field := ⟨10, 6⟩

end State

/-! ### The header of a body, 16 bits -/

namespace Body

def hasCondition : Field := ⟨0, 1⟩
def hasCommands : Field := ⟨1, 1⟩
def reserved : Field := ⟨2, 14⟩

end Body

/-! ### The flags of a condition, 16 bits -/

namespace Condition

def negate : Field := ⟨0, 1⟩
def reserved : Field := ⟨1, 15⟩

end Condition

/-! ### The word of a command, 32 bits -/

namespace Command

def id : Field := ⟨0, 16⟩
def argCount : Field := ⟨16, 4⟩
def reserved : Field := ⟨20, 11⟩
def hasNext : Field := ⟨31, 1⟩

end Command

/-! ### The header of a control packet, 32 bits -/

namespace ControlPacket

def settingsMask : Field := ⟨0, 16⟩
def dataCount : Field := ⟨16, 8⟩
def reserved : Field := ⟨24, 8⟩

end ControlPacket

/-! ### The flags of a command pack, 16 bits -/

namespace Pack

def hasCommands : Field := ⟨0, 1⟩
def reserved : Field := ⟨1, 15⟩

end Pack

/-! ### The header of a sequence, 32 bits -/

namespace Sequence

def instanceType : Field := ⟨0, 8⟩
def globalIndex : Field := ⟨8, 8⟩
def packCount : Field := ⟨16, 8⟩
def unknown : Field := ⟨24, 8⟩

end Sequence

end BehaviourScript.Layout
