/-
This file proves that bit fields share a word without touching each other.
Everything is read off bit by bit: a bit of a packed word is set if and only if
one of the fields sets it. Fields that lie inside the word and apart from each
other are therefore read back as they were packed, a field apart from all of
them reads as zero, and a word whose other bits are zero is packed again from
what its fields hold.
-/

import BehaviourScript.Layout
import Mathlib.Algebra.Group.Nat.Defs
import Mathlib.Data.List.Pairwise
import Mathlib.Tactic.ByContra

namespace BehaviourScript.Layout

namespace Field

/-- Whether a field has a bit of the word. -/
def covers (field : Field) (bit : Nat) : Bool :=
  decide (field.shift ≤ bit) && decide (bit < field.shift + field.width)

/-- Two fields have no bit in common. -/
def Apart (first second : Field) : Prop :=
  first.shift + first.width ≤ second.shift ∨ second.shift + second.width ≤ first.shift
  deriving Decidable

/-- A field lies inside a word of some number of bits. -/
def Inside (field : Field) (bits : Nat) : Prop := field.shift + field.width ≤ bits
  deriving Decidable

theorem covers_iff {field : Field} {bit : Nat} :
    field.covers bit = true ↔ field.shift ≤ bit ∧ bit < field.shift + field.width := by
  rw [covers, Bool.and_eq_true, decide_eq_true_eq, decide_eq_true_eq]

/-- Of packed fields, lying apart does not depend on the order. -/
instance apartSymm :
    Std.Symm fun first second : Field × Nat => first.1.Apart second.1 where
  symm _ _ apart := Or.symm apart

theorem Apart.covers_eq_false {first second : Field} (apart : first.Apart second) {bit : Nat}
    (covered : first.covers bit = true) : second.covers bit = false := by
  rw [covers_iff] at covered
  rw [← Bool.not_eq_true, covers_iff]
  rcases apart with below | above <;> omega

/-! ### The bits of one field -/

theorem max_eq (field : Field) : field.max = 2 ^ min field.width 32 - 1 := rfl

theorem put_eq (field : Field) (value : Nat) :
    field.put value = ((value &&& field.max) <<< field.shift) % 2 ^ 32 := rfl

theorem testBit_put (field : Field) (value bit : Nat) :
    (field.put value).testBit bit =
      (field.covers bit && decide (bit < 32) && value.testBit (bit - field.shift)) := by
  rw [put_eq, max_eq, Nat.testBit_mod_two_pow, Nat.testBit_shiftLeft, Nat.testBit_and,
    Nat.testBit_two_pow_sub_one, covers, Bool.eq_iff_iff]
  simp only [Bool.and_eq_true, decide_eq_true_eq]
  constructor
  · rintro ⟨inWord, above, bitSet, inField⟩
    exact ⟨⟨⟨above, by omega⟩, inWord⟩, bitSet⟩
  · rintro ⟨⟨⟨above, below⟩, inWord⟩, bitSet⟩
    exact ⟨inWord, above, bitSet, by omega⟩

theorem testBit_get (field : Field) (word bit : Nat) :
    (field.get word).testBit bit =
      (word.testBit (field.shift + bit) && decide (bit < min field.width 32)) := by
  rw [get, max_eq, Nat.testBit_and, Nat.testBit_shiftRight, Nat.testBit_two_pow_sub_one]

theorem get_le_max (field : Field) (word : Nat) : field.get word ≤ field.max :=
  Nat.and_le_right

theorem get_lt (field : Field) (word : Nat) : field.get word < 2 ^ field.width := by
  have bound := field.get_le_max word
  have smaller : 2 ^ min field.width 32 ≤ 2 ^ field.width :=
    Nat.pow_le_pow_right (by decide) (Nat.min_le_left ..)
  have positive : 0 < 2 ^ min field.width 32 := Nat.pow_pos (by decide)
  rw [max_eq] at bound
  omega

/-- A value that a field holds has no bits beyond the field. -/
theorem testBit_of_le_max {field : Field} {value : Nat} (small : value ≤ field.max) {bit : Nat}
    (beyond : field.width ≤ bit) : value.testBit bit = false := by
  have positive : 0 < 2 ^ min field.width 32 := Nat.pow_pos (by decide)
  have wider : 2 ^ min field.width 32 ≤ 2 ^ bit :=
    Nat.pow_le_pow_right (by decide) (by omega)
  refine Nat.testBit_lt_two_pow ?_
  rw [max_eq] at small
  omega

@[simp] theorem put_zero (field : Field) : field.put 0 = 0 := by
  rw [put, Nat.zero_and, Nat.zero_shiftLeft, Nat.zero_mod]

/-- A flag is what a field of one bit holds. -/
theorem toNat_flag (field : Field) (single : field.width = 1) (word : Nat) :
    (field.flag word).toNat = field.get word := by
  have bound := field.get_lt word
  rw [single] at bound
  rcases Nat.eq_zero_or_pos (field.get word) with clear | set
  · rw [flag, clear]
    rfl
  · have one : field.get word = 1 := by omega
    rw [flag, one]
    rfl

theorem flag_eq_of_get {field : Field} {word : Nat} {set : Bool}
    (held : field.get word = set.toNat) : field.flag word = set := by
  rw [flag, held]
  cases set <;> rfl

end Field

/-! ### The bits of a packed word -/

theorem testBit_pack (fields : List (Field × Nat)) (bit : Nat) :
    (pack fields).testBit bit =
      fields.any fun entry => (entry.1.put entry.2).testBit bit := by
  induction fields with
  | nil => exact Nat.zero_testBit bit
  | cons entry rest inductionHypothesis =>
    rw [List.any_cons, ← inductionHypothesis]
    exact Nat.testBit_or ..

/-- A word has no bits beyond those that all its fields lie inside of. -/
theorem pack_lt {fields : List (Field × Nat)} {bits : Nat}
    (inside : ∀ entry ∈ fields, entry.1.Inside bits) : pack fields < 2 ^ bits := by
  refine Nat.lt_pow_two_of_testBit _ fun bit beyond => ?_
  rw [testBit_pack, List.any_eq_false]
  intro entry member set
  have bound := inside entry member
  rw [Field.testBit_put, Bool.and_eq_true, Bool.and_eq_true, Field.covers_iff] at set
  rw [Field.Inside] at bound
  omega

/-- A field that lies apart from all packed ones is empty. -/
theorem get_pack_of_apart {fields : List (Field × Nat)} {field : Field}
    (apart : ∀ entry ∈ fields, entry.1.Apart field) : field.get (pack fields) = 0 := by
  refine Nat.eq_of_testBit_eq fun bit => ?_
  rw [Nat.zero_testBit, Field.testBit_get, ← Bool.not_eq_true, Bool.and_eq_true,
    decide_eq_true_eq, testBit_pack, List.any_eq_true]
  rintro ⟨⟨entry, member, set⟩, below⟩
  rw [Field.testBit_put, Bool.and_eq_true, Bool.and_eq_true] at set
  have other := (apart entry member).covers_eq_false set.1.1
  rw [← Bool.not_eq_true, Field.covers_iff] at other
  omega

theorem get_pack_cons (field : Field) (entry : Field × Nat) (fields : List (Field × Nat)) :
    field.get (pack (entry :: fields)) = field.get (pack [entry]) ||| field.get (pack fields) := by
  have split : pack (entry :: fields) = pack [entry] ||| pack fields :=
    congrArg (· ||| pack fields) (Nat.or_zero _).symm
  rw [split, Field.get, Nat.shiftRight_or_distrib, Nat.and_or_distrib_right]
  rfl

/-- Of fields that lie apart from each other, each is read back as it was
packed. -/
theorem get_pack {fields : List (Field × Nat)}
    (apart : fields.Pairwise fun first second => first.1.Apart second.1)
    {entry : Field × Nat} (member : entry ∈ fields) (inside : entry.1.Inside 32)
    (small : entry.2 ≤ entry.1.max) : entry.1.get (pack fields) = entry.2 := by
  refine Nat.eq_of_testBit_eq fun bit => ?_
  rw [Field.Inside] at inside
  rw [Field.testBit_get, testBit_pack]
  by_cases within : bit < entry.1.width
  · have covered : entry.1.covers (entry.1.shift + bit) = true :=
      Field.covers_iff.mpr ⟨by omega, by omega⟩
    have own : (entry.1.put entry.2).testBit (entry.1.shift + bit) = entry.2.testBit bit := by
      rw [Field.testBit_put, covered, decide_eq_true (by omega), Nat.add_sub_cancel_left]
      rfl
    -- No other entry has this bit, so the whole word has it if this entry does.
    have others : ∀ other ∈ fields,
        (other.1.put other.2).testBit (entry.1.shift + bit) = true → other = entry := by
      intro other otherMember set
      by_contra different
      rw [Field.testBit_put, Bool.and_eq_true, Bool.and_eq_true] at set
      have distinct : other.1.Apart entry.1 := apart.forall otherMember member different
      rw [distinct.covers_eq_false set.1.1] at covered
      exact Bool.false_ne_true covered
    rw [decide_eq_true (by omega), Bool.and_true, Bool.eq_iff_iff, List.any_eq_true]
    constructor
    · rintro ⟨other, otherMember, set⟩
      rw [others other otherMember set] at set
      rwa [own] at set
    · intro set
      exact ⟨entry, member, own.trans set⟩
  · rw [decide_eq_false (by omega), Bool.and_false,
      Field.testBit_of_le_max small (by omega)]

/-- A word is packed again from what its fields hold, if the fields have all
bits that are set in it. -/
theorem pack_get {fields : List Field} {word : Nat} (small : word < 2 ^ 32)
    (covered : ∀ bit, word.testBit bit = true → ∃ field ∈ fields, field.covers bit = true) :
    pack (fields.map fun field => (field, field.get word)) = word := by
  refine Nat.eq_of_testBit_eq fun bit => ?_
  rw [testBit_pack, List.any_map, Bool.eq_iff_iff, List.any_eq_true]
  constructor
  · rintro ⟨field, _, set⟩
    dsimp only [Function.comp_apply] at set
    rw [Field.testBit_put, Bool.and_eq_true, Bool.and_eq_true,
      Field.testBit_get, Bool.and_eq_true, Field.covers_iff] at set
    rw [show bit = field.shift + (bit - field.shift) by omega]
    exact set.2.1
  · intro set
    obtain ⟨field, member, inField⟩ := covered bit set
    have inWord : bit < 32 := by
      by_contra beyond
      rw [Nat.testBit_lt_two_pow (Nat.lt_of_lt_of_le small
        (Nat.pow_le_pow_right (by decide) (by omega)))] at set
      exact Bool.false_ne_true set
    refine ⟨field, member, ?_⟩
    dsimp only [Function.comp_apply]
    rw [Field.testBit_put, inField, decide_eq_true inWord,
      Field.testBit_get]
    rw [Field.covers_iff] at inField
    rw [show field.shift + (bit - field.shift) = bit by omega, set, decide_eq_true (by omega)]
    rfl

end BehaviourScript.Layout
