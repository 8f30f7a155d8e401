/-
This file holds the buffers that integers go through. Integers are added to a
writer one after the other, and a 32-bit integer can be filled in afterwards. A
reader takes integers off the front of a byte string. A read that asks for more
than is left says how much is missing, and the reader is then where it was.
-/

import BehaviourScript.Bytes
import BehaviourScript.FormatError

namespace BehaviourScript

/-- The bytes written so far. -/
structure Writer where
  bytes : Bytes
  deriving DecidableEq

namespace Writer

/-- A writer with nothing written. -/
def empty : Writer := ⟨[]⟩

/-- How many bytes are written. -/
def length (writer : Writer) : Nat := writer.bytes.length

/-- Whether nothing is written. -/
def isEmpty (writer : Writer) : Bool := writer.bytes.isEmpty

/-- Writes an integer at the end. -/
def write (writer : Writer) (format : IntFormat) (value : Int) : Writer :=
  ⟨writer.bytes ++ format.encode value⟩

/-- Overwrites four bytes with an integer. Nothing happens if they are not all
written yet. -/
def patch (writer : Writer) (offset : Nat) (value : Int) : Writer :=
  if offset + IntFormat.u32.width ≤ writer.length then
    ⟨writer.bytes.take offset ++ IntFormat.u32.encode value
      ++ writer.bytes.drop (offset + IntFormat.u32.width)⟩
  else writer

end Writer

/-- The bytes still to be read, how many they are, and how many were read before
them. -/
structure Reader where
  offset : Nat
  rest : Bytes
  remaining : Nat := rest.length
  counted : remaining = rest.length := by rfl
  deriving DecidableEq

namespace Reader

/-- A read. Whether it gives something or fails, it says where the reader is
afterwards. -/
abbrev Read := EStateM FormatError Reader

/-- The start of a byte string. -/
def ofBytes (bytes : Bytes) : Reader where
  offset := 0
  rest := bytes

/-- Whether no bytes are left. -/
def isEmpty (reader : Reader) : Bool := reader.rest.isEmpty

/-- The reader behind a number of bytes. -/
def skip (reader : Reader) (count : Nat) : Reader where
  offset := reader.offset + count
  rest := reader.rest.drop count
  remaining := reader.remaining - count
  counted := by rw [reader.counted, List.length_drop]

/-- Takes a number of bytes off the front. -/
def take (count : Nat) : Read Bytes := fun reader =>
  if reader.remaining < count then
    .error (.unexpectedEof reader.offset (count - reader.remaining)) reader
  else .ok (reader.rest.take count) (reader.skip count)

/-- Takes an integer off the front. -/
def read (format : IntFormat) : Read Int := format.decode <$> take format.width

end Reader

end BehaviourScript
