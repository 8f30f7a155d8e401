/-
This file reads the numbers of TOML. Integers are read in four bases and must
fit in 64 bits. Floats are only told from other words, but one that is too
large for double precision is none.
-/

import BehaviourScript.Token

namespace BehaviourScript.Toml

/-- Digits without the underscores between them. An underscore must have a
digit on either side. -/
def joinDigits? : List Char → Option (List Char)
  | [] => some []
  | '_' :: _ => none
  | char :: '_' :: next :: rest =>
    if next == '_' then none else (joinDigits? (next :: rest)).map (char :: ·)
  | char :: rest => (joinDigits? rest).map (char :: ·)

/-- A number of digits of a base, with underscores between them. -/
def digits? (base : Nat) (digits : List Char) : Option Nat :=
  (joinDigits? digits).bind (Numeral.read? base)

/-- A decimal number, which has no zero in front. -/
def decimal? (digits : List Char) : Option Nat :=
  match digits with
  | '0' :: _ :: _ => none
  | _ => digits? 10 digits

/-- A word's integer, of any size. -/
def anyInteger? (word : List Char) : Option Int :=
  match word with
  | '0' :: 'x' :: digits => (digits? 16 digits).map Int.ofNat
  | '0' :: 'o' :: digits => (digits? 8 digits).map Int.ofNat
  | '0' :: 'b' :: digits => (digits? 2 digits).map Int.ofNat
  | '+' :: digits => (decimal? digits).map Int.ofNat
  | '-' :: digits => (decimal? digits).map fun value => -(value : Int)
  | digits => (decimal? digits).map Int.ofNat

/-- Whether an integer fits in 64 bits. -/
def fitsWord (value : Int) : Bool :=
  -9223372036854775808 ≤ value && value < 9223372036854775808

/-- The exponent behind its mark. -/
def exponent? : List Char → Option Int
  | '+' :: digits => (digits? 10 digits).map Int.ofNat
  | '-' :: digits => (digits? 10 digits).map fun value => -(value : Int)
  | digits => (digits? 10 digits).map Int.ofNat

/-- Whether a character marks the exponent. -/
def isExponentMark (char : Char) : Bool := char == 'e' || char == 'E'

/-- A decimal number with a fraction, an exponent or both: an integer and the
power of ten to multiply it with. -/
def scientific? (word : List Char) : Option (Nat × Int) := do
  let mantissa := word.takeWhile (!isExponentMark ·)
  let whole := mantissa.takeWhile (· != '.')
  let _ ← decimal? whole
  let exponent ← match word.dropWhile (!isExponentMark ·) with
    | [] => some 0
    | _ :: text => exponent? text
  match mantissa.dropWhile (· != '.') with
  | [] => if word.any isExponentMark then return (← digits? 10 whole, exponent) else none
  | _ :: fraction =>
    let _ ← digits? 10 fraction
    let places ← joinDigits? fraction
    let digits ← joinDigits? whole
    return (← Numeral.read? 10 (digits ++ places), exponent - places.length)

/-- The least number that rounds to infinity in double precision. It lies half
a unit above the largest finite one. -/
def infinityBound : Nat := 1 <<< 1024 - 1 <<< 970

/-- Whether a scaled number rounds to infinity in double precision. The bound
has 309 digits, so only numbers with as many need be compared with it. -/
def isInfinite (mantissa : Nat) (exponent : Int) : Bool :=
  let digits : Int := (Nat.toDigits 10 mantissa).length + exponent
  if mantissa = 0 ∨ digits < 309 then false
  else if 309 < digits then true
  else
    match exponent with
    | .ofNat power => infinityBound ≤ mantissa * Nat.pow 10 power
    | .negSucc power => infinityBound * Nat.pow 10 (power + 1) ≤ mantissa

/-- Whether a word without a sign is infinity or no number, by name. -/
def isNamedFloat (word : List Char) : Bool := word == "inf".toList || word == "nan".toList

/-- Whether a word is a float. It may be too large only if it is negative. -/
def isFloat : List Char → Bool
  | '-' :: word => isNamedFloat word || (scientific? word).isSome
  | '+' :: word => isNamedFloat word || (scientific? word).any fun (m, e) => !isInfinite m e
  | word => isNamedFloat word || (scientific? word).any fun (m, e) => !isInfinite m e

end BehaviourScript.Toml
