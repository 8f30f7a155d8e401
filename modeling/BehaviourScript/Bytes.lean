/-
This file holds the byte strings of the binary format and its integer formats,
all of them little-endian, the signed ones in two's complement.
-/

namespace BehaviourScript

/-- A string of bytes. -/
abbrev Bytes := List UInt8

namespace Bytes

/-- The lowest bytes of a number, lowest first. -/
def ofNat : (width : Nat) → (value : Nat) → Bytes
  | 0, _ => []
  | width + 1, value => UInt8.ofNat value :: ofNat width (value / 256)

/-- The number that bytes make, lowest first. -/
def toNat : Bytes → Nat
  | [] => 0
  | byte :: rest => byte.toNat + 256 * toNat rest

/-- The digit of a value below sixteen. -/
def hexDigit (value : Nat) : Char := Nat.digitChar value

/-- Bytes in hexadecimal, two digits each. -/
def hex (bytes : Bytes) : String :=
  String.ofList (bytes.flatMap fun byte => [hexDigit (byte.toNat / 16), hexDigit (byte.toNat % 16)])

end Bytes

/-- The integer formats of the binary. -/
inductive IntFormat where
  | u8 | u16 | i16 | u32 | i32
  deriving DecidableEq

namespace IntFormat

/-- How many bytes an integer takes. -/
def width : IntFormat → Nat
  | u8 => 1
  | u16 => 2
  | i16 => 2
  | u32 => 4
  | i32 => 4

/-- Whether a format has negative integers. -/
def signed : IntFormat → Bool
  | i16 => true
  | i32 => true
  | _ => false

/-- How many integers a format has. -/
def modulus (format : IntFormat) : Nat := Nat.pow 256 format.width

/-- The least integer of a format. -/
def min (format : IntFormat) : Int := if format.signed then -(format.modulus / 2 : Nat) else 0

/-- The greatest integer of a format. -/
def max (format : IntFormat) : Int :=
  if format.signed then (format.modulus / 2 : Nat) - 1 else format.modulus - 1

/-- Whether a format has an integer. -/
def holds (format : IntFormat) (value : Int) : Bool := format.min ≤ value && value ≤ format.max

/-- The bytes of an integer. An integer that the format does not have is taken
modulo its number of integers. -/
def encode (format : IntFormat) (value : Int) : Bytes :=
  Bytes.ofNat format.width (value % format.modulus).toNat

/-- The integer that bytes of a format stand for. -/
def decode (format : IntFormat) (bytes : Bytes) : Int :=
  let value := Bytes.toNat bytes
  if format.signed && format.modulus ≤ 2 * value then (value : Int) - format.modulus else value

end IntFormat

end BehaviourScript
