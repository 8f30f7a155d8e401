/-
This file holds places in a source text. A position counts lines and columns
from one, the column in characters, and its offset in bytes from zero. A span
runs from a first position up to, and not including, a last one.
-/

namespace BehaviourScript

/-- A place in a source text. -/
structure Position where
  line : Nat
  column : Nat
  offset : Nat
  deriving DecidableEq, Inhabited

namespace Position

/-- The place of the first character of a text. -/
def first : Position := ⟨1, 1, 0⟩

/-- The place of nodes that no source text was read for. -/
def dummy : Position := ⟨0, 0, 0⟩

/-- The place behind a character. Only a newline starts a line. -/
def advance (position : Position) (char : Char) : Position :=
  if char = '\n' then ⟨position.line + 1, 1, position.offset + char.utf8Size⟩
  else ⟨position.line, position.column + 1, position.offset + char.utf8Size⟩

/-- The place behind a run of characters. -/
def after (position : Position) (text : List Char) : Position :=
  text.foldl advance position

/-- A position in messages: line and column. -/
def text (position : Position) : String :=
  toString position.line ++ ":" ++ toString position.column

@[simp] theorem after_nil (position : Position) : position.after [] = position := rfl

@[simp] theorem after_cons (position : Position) (char : Char) (rest : List Char) :
    position.after (char :: rest) = (position.advance char).after rest := rfl

theorem after_append (position : Position) (left right : List Char) :
    position.after (left ++ right) = (position.after left).after right :=
  List.foldl_append ..

end Position

/-- A stretch of source text; the end is exclusive. -/
structure Span where
  start : Position
  stop : Position
  deriving DecidableEq, Inhabited

namespace Span

/-- The span of nodes that no source text was read for. -/
def dummy : Span := ⟨.dummy, .dummy⟩

/-- Lines count from one, so a span on line zero stands for no text. -/
def isDummy (span : Span) : Bool := span.start.line == 0

/-- The span from the start of `first` to the end of `last`. -/
def through (first last : Span) : Span := ⟨first.start, last.stop⟩

/-- How many bytes a span covers; none if it ends before it starts. -/
def length (span : Span) : Nat := span.stop.offset - span.start.offset

/-- A span is empty if it starts and ends at one offset. -/
def isEmpty (span : Span) : Bool := span.start.offset == span.stop.offset

/-- A span in messages. -/
def text (span : Span) : String := "[" ++ span.start.text ++ " - " ++ span.stop.text ++ "]"

end Span

end BehaviourScript
