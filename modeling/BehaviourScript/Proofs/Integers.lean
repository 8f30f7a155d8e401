/-
This file proves that the integer formats lose nothing. Bytes of a format's
width and the integers that the format has stand for each other: an integer
that fits is read back from its bytes, and bytes are written again from the
integer that they stand for.
-/

import BehaviourScript.Bytes
import Mathlib.Algebra.Group.Nat.Defs

namespace BehaviourScript

namespace Bytes

/-! ### Natural numbers, lowest byte first -/

@[simp] theorem length_ofNat (width value : Nat) : (ofNat width value).length = width := by
  induction width generalizing value with
  | zero => rfl
  | succ width inductionHypothesis => rw [ofNat, List.length_cons, inductionHypothesis]

/-- The lowest bytes of a number hold it modulo the number of values they have. -/
theorem toNat_ofNat (width value : Nat) : toNat (ofNat width value) = value % 256 ^ width := by
  induction width generalizing value with
  | zero => rw [ofNat, toNat, Nat.pow_zero, Nat.mod_one]
  | succ width inductionHypothesis =>
    rw [ofNat, toNat, inductionHypothesis, UInt8.toNat_ofNat', Nat.pow_succ _ width,
      Nat.mul_comm (256 ^ width), Nat.mod_mul]

/-- Bytes stand for a number that fits in them. -/
theorem toNat_lt (bytes : Bytes) : toNat bytes < 256 ^ bytes.length := by
  induction bytes with
  | nil => exact Nat.one_pos
  | cons byte rest inductionHypothesis =>
    have low : byte.toNat < 256 := byte.toNat_lt
    rw [toNat, List.length_cons, Nat.pow_succ]
    omega

/-- Bytes are the lowest bytes of the number that they stand for. -/
theorem ofNat_toNat (bytes : Bytes) : ofNat bytes.length (toNat bytes) = bytes := by
  induction bytes with
  | nil => rfl
  | cons byte rest inductionHypothesis =>
    have low : byte.toNat < 256 := byte.toNat_lt
    have head : UInt8.ofNat (byte.toNat + 256 * toNat rest) = byte := by
      rw [← UInt8.toNat_inj, UInt8.toNat_ofNat']
      omega
    have tail : (byte.toNat + 256 * toNat rest) / 256 = toNat rest := by omega
    rw [toNat, List.length_cons, ofNat, head, tail, inductionHypothesis]

end Bytes

namespace IntFormat

/-! ### Signed and unsigned integers -/

theorem modulus_pos (format : IntFormat) : 0 < format.modulus :=
  Nat.pow_pos (by decide)

theorem width_pos (format : IntFormat) : 0 < format.width := by
  cases format <;> decide

/-- A format has as many integers below its middle as above it. -/
theorem two_mul_half_modulus (format : IntFormat) :
    2 * (format.modulus / 2) = format.modulus := by
  cases format <;> decide

@[simp] theorem length_encode (format : IntFormat) (value : Int) :
    (format.encode value).length = format.width :=
  Bytes.length_ofNat _ _

theorem encode_ne_nil (format : IntFormat) (value : Int) : format.encode value ≠ [] :=
  List.ne_nil_of_length_pos (format.length_encode value ▸ format.width_pos)

/-- The bytes of any integer stand for it modulo the number of integers. -/
theorem toNat_encode (format : IntFormat) (value : Int) :
    Bytes.toNat (format.encode value) = (value % format.modulus).toNat := by
  have small : value % format.modulus < format.modulus :=
    Int.emod_lt_of_pos value (Int.natCast_pos.mpr format.modulus_pos)
  rw [encode, Bytes.toNat_ofNat]
  refine Nat.mod_eq_of_lt ?_
  show (value % format.modulus).toNat < format.modulus
  have positive := format.modulus_pos
  omega

/-- An integer near zero has itself or its complement as residue. -/
theorem emod_modulus {format : IntFormat} {value : Int} (low : -format.modulus ≤ value)
    (high : value < format.modulus) :
    value % format.modulus = if value < 0 then value + format.modulus else value := by
  split
  · next negative =>
    rw [← Int.add_emod_right]
    exact Int.emod_eq_of_lt (by omega) (by omega)
  · next natural => exact Int.emod_eq_of_lt (by omega) high

theorem holds_iff {format : IntFormat} {value : Int} :
    format.holds value = true ↔ format.min ≤ value ∧ value ≤ format.max := by
  rw [holds, Bool.and_eq_true, decide_eq_true_eq, decide_eq_true_eq]

theorem le_max_iff {format : IntFormat} (natural : format.signed = false) {value : Nat} :
    (value : Int) ≤ format.max ↔ value < format.modulus := by
  rw [max, natural]
  show (value : Int) ≤ format.modulus - 1 ↔ _
  omega

/-- An integer that the format has is read back from its bytes. -/
theorem decode_encode {format : IntFormat} {value : Int} (fits : format.holds value = true) :
    format.decode (format.encode value) = value := by
  have half := format.two_mul_half_modulus
  rw [holds_iff, min, max] at fits
  cases signed : format.signed
  · simp only [signed, Bool.false_eq_true, if_false] at fits
    simp only [decode, toNat_encode, signed, Bool.false_and, Bool.false_eq_true, if_false]
    rw [emod_modulus (by omega) (by omega), if_neg (by omega)]
    omega
  · simp only [signed, if_true] at fits
    simp only [decode, toNat_encode, signed, Bool.true_and, decide_eq_true_eq]
    rw [emod_modulus (by omega) (by omega)]
    by_cases negative : value < 0
    · rw [if_pos negative, if_pos (by omega)]
      omega
    · rw [if_neg negative, if_neg (by omega)]
      omega

/-- Bytes of the format's width are written again from what they stand for. -/
theorem encode_decode {format : IntFormat} {bytes : Bytes}
    (length : bytes.length = format.width) : format.encode (format.decode bytes) = bytes := by
  have small : Bytes.toNat bytes < format.modulus := by
    rw [modulus, ← length]
    exact Bytes.toNat_lt bytes
  have same : (format.decode bytes % format.modulus).toNat = Bytes.toNat bytes := by
    simp only [decode]
    split
    · rw [emod_modulus (by omega) (by omega), if_pos (by omega)]
      omega
    · rw [emod_modulus (by omega) (by omega), if_neg (by omega)]
      omega
  rw [encode, same, ← length, Bytes.ofNat_toNat]

/-- Bytes of the format's width stand for an integer that the format has. -/
theorem holds_decode {format : IntFormat} {bytes : Bytes}
    (length : bytes.length = format.width) : format.holds (format.decode bytes) = true := by
  have half := format.two_mul_half_modulus
  have small : Bytes.toNat bytes < format.modulus := by
    rw [modulus, ← length]
    exact Bytes.toNat_lt bytes
  rw [holds_iff, min, max, decode]
  cases signed : format.signed
  · simp only [Bool.false_and, Bool.false_eq_true, if_false]
    omega
  · simp only [Bool.true_and, decide_eq_true_eq, if_true]
    split <;> omega

end IntFormat

end BehaviourScript
