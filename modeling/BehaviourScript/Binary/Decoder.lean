/-
This file holds the readers that a binary script is taken apart with. A reader
gives a value and the bytes behind it, or the first fault it meets.
-/

import BehaviourScript.Bytes.Buffer
import BehaviourScript.Error

namespace BehaviourScript

/-- A reader of binary records. -/
abbrev Decoder := StateT Reader Outcome

namespace Decoder

/-- Takes over an outcome that needs no reading. -/
def lift {α : Type} (outcome : Outcome α) : Decoder α := fun reader =>
  match outcome with
  | .ok value => .ok (value, reader)
  | .error error => .error error

/-- Gives up because the bytes are not a binary script. -/
def fail {α : Type} (error : FormatError) : Decoder α := fun _ => .error (.format error)

/-- How many bytes were read so far. -/
def offset : Decoder Nat := fun reader => .ok (reader.offset, reader)

/-- Reads an integer. -/
def int (format : IntFormat) : Decoder Int := fun reader =>
  match Reader.read format reader with
  | .ok value next => .ok (value, next)
  | .error error _ => .error (.format error)

/-- Reads an integer of a format without negative ones. -/
def nat (format : IntFormat) : Decoder Nat := Int.toNat <$> int format

/-- Checks that the reserved bits of a word are zero. -/
def checkReserved (record : RecordKind) (offset : Nat) (field : Layout.Field) (word : Nat) :
    Decoder Unit :=
  if field.get word = 0 then pure ()
  else fail (.reservedBits record offset (field.put (field.get word)))

/-- Reads a header word whose reserved bits must be zero. -/
def header (record : RecordKind) (format : IntFormat) (reserved : Layout.Field) :
    Decoder Nat := do
  let start ← offset
  let word ← nat format
  checkReserved record start reserved word
  return word

/-- Reads a number of items. -/
def times {α : Type} : Nat → Decoder α → Decoder (List α)
  | 0, _ => pure []
  | count + 1, item => do
    let first ← item
    let others ← times count item
    return first :: others

/-- Reads the links of a chain, from the one with a given number on. Every link
says whether another follows. A link takes bytes, and one that did not would be
the last. -/
def chainFrom {α : Type} (link : Nat → Decoder (α × Bool)) (index : Nat) : Decoder (List α) :=
  fun reader =>
    match link index reader with
    | .error error => .error error
    | .ok ((value, hasNext), next) =>
      if hasNext ∧ next.remaining < reader.remaining then
        match chainFrom link (index + 1) next with
        | .error error => .error error
        | .ok (values, stop) => .ok (value :: values, stop)
      else .ok ([value], next)
termination_by reader => reader.remaining

/-- Reads the links of a chain. -/
def chain {α : Type} (link : Nat → Decoder (α × Bool)) : Decoder (List α) := chainFrom link 0

/-- Reads all of a byte string, behind which nothing may stand. -/
def run {α : Type} (decoder : Decoder α) (bytes : Bytes) : Outcome α :=
  match decoder (.ofBytes bytes) with
  | .error error => .error error
  | .ok (value, rest) =>
    if rest.isEmpty then .ok value
    else .error (.format (.trailingBytes rest.offset rest.remaining))

end Decoder

end BehaviourScript
