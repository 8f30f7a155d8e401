/-
This file holds the shapes of the header words: which fields a record's word
has, and the run of bits that stays zero. Every shape fills its word without
overlap, so a word with a clear reserved run and the values of its fields
determine each other.
-/

import BehaviourScript.Proofs.BitFields

namespace BehaviourScript.Layout

/-- The fields of a word that leave no bit out but the reserved ones. -/
structure Shape where
  fields : List Field
  reserved : Field
  bits : Nat
  inWord : bits ≤ 32 := by decide
  inside : ∀ field ∈ fields, field.Inside bits := by decide
  apart : fields.Pairwise Field.Apart := by decide
  kept : ∀ field ∈ fields, field.Apart reserved := by decide
  full : ∀ bit < bits, reserved.covers bit = true ∨ ∃ field ∈ fields, field.covers bit = true := by
    decide

namespace Shape

variable (shape : Shape) {word : Nat} {entries : List (Field × Nat)}

/-- A word is packed from what its fields hold. -/
theorem pack_get (small : word < 2 ^ shape.bits) (clear : shape.reserved.get word = 0) :
    pack (shape.fields.map fun field => (field, field.get word)) = word := by
  have wider : 2 ^ shape.bits ≤ 2 ^ 32 := Nat.pow_le_pow_right (by decide) shape.inWord
  refine Layout.pack_get (Nat.lt_of_lt_of_le small wider) fun bit set => ?_
  have below : bit < shape.bits := by
    by_contra beyond
    rw [Nat.testBit_lt_two_pow (Nat.lt_of_lt_of_le small
      (Nat.pow_le_pow_right (by decide) (by omega)))] at set
    exact Bool.false_ne_true set
  refine (shape.full bit below).resolve_left fun covered => ?_
  rw [Field.covers_iff] at covered
  have held : (shape.reserved.get word).testBit (bit - shape.reserved.shift) = true := by
    have inBits := shape.inWord
    rw [Field.testBit_get, show shape.reserved.shift + (bit - shape.reserved.shift) = bit by omega,
      set, decide_eq_true (by omega)]
    rfl
  rw [clear, Nat.zero_testBit] at held
  exact Bool.false_ne_true held

section Packing

variable {shape} (same : entries.map Prod.fst = shape.fields)

include same

theorem mem_fields {entry : Field × Nat} (member : entry ∈ entries) : entry.1 ∈ shape.fields :=
  same ▸ List.mem_map_of_mem member

theorem pack_lt : pack entries < 2 ^ shape.bits :=
  Layout.pack_lt fun _ member => shape.inside _ (mem_fields same member)

theorem reserved_pack : shape.reserved.get (pack entries) = 0 :=
  get_pack_of_apart fun _ member => shape.kept _ (mem_fields same member)

/-- A field holds what was packed into it. -/
theorem get_pack {field : Field} {value : Nat} (member : (field, value) ∈ entries)
    (small : value ≤ field.max) : field.get (pack entries) = value := by
  have inside := shape.inside _ (mem_fields same member)
  have inWord := shape.inWord
  have apart : entries.Pairwise fun first second => first.1.Apart second.1 := by
    rw [← List.pairwise_map, same]
    exact shape.apart
  refine Layout.get_pack apart member ?_ small
  rw [Field.Inside] at inside ⊢
  omega

theorem flag_pack (field : Field) (set : Bool) (member : (field, set.toNat) ∈ entries)
    (positive : 0 < field.max) : field.flag (pack entries) = set :=
  Field.flag_eq_of_get (get_pack same member (Nat.le_trans (Bool.toNat_le set) positive))

end Packing

end Shape

theorem putFlag_eq_pack (field : Field) (set : Bool) :
    field.putFlag set = pack [(field, set.toNat)] :=
  (Nat.or_zero _).symm

/-! ### The shapes of the records -/

def Graph.shape : Shape where
  fields := [startState, priority, hasStarter, unknown]
  reserved := reserved
  bits := 32

def State.shape : Shape where
  fields := [bodyCount, skipFirstBody, nonBlocking, usesObjectSlot, hasControlPacket, hasNext]
  reserved := reserved
  bits := 16

def Body.shape : Shape where
  fields := [hasCondition, hasCommands]
  reserved := reserved
  bits := 16

def Condition.shape : Shape where
  fields := [negate]
  reserved := reserved
  bits := 16

def Command.shape : Shape where
  fields := [id, argCount, hasNext]
  reserved := reserved
  bits := 32

def ControlPacket.shape : Shape where
  fields := [settingsMask, dataCount]
  reserved := reserved
  bits := 32

def Pack.shape : Shape where
  fields := [hasCommands]
  reserved := reserved
  bits := 16

/-- A sequence's word has no reserved bits. -/
def Sequence.shape : Shape where
  fields := [instanceType, globalIndex, packCount, unknown]
  reserved := ⟨0, 0⟩
  bits := 32

def Assigner.shape : Shape where
  fields := nibbles
  reserved := ⟨0, 0⟩
  bits := 16

/-- The mask of a control packet has a bit for each setting. -/
def ControlPacket.maskShape : Shape where
  fields := (List.range 16).map fun bit => ⟨bit, 1⟩
  reserved := ⟨0, 0⟩
  bits := 16

end BehaviourScript.Layout
