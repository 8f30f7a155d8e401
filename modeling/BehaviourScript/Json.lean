/-
This file holds JSON values and prints them, one member a line and indented by
two spaces a level. Members keep their order. Quotes, backslashes and control
characters are escaped, and no other character is.
-/

namespace BehaviourScript

/-- A JSON value. Its numbers are whole. -/
inductive Json where
  | null
  | bool (value : Bool)
  | number (value : Int)
  | text (value : String)
  | list (items : List Json)
  | object (members : List (String × Json))

namespace Json

/-- A character inside a quoted text. -/
def escapedChar (char : Char) : List Char :=
  match char with
  | '"' => ['\\', '"']
  | '\\' => ['\\', '\\']
  | '\n' => ['\\', 'n']
  | '\r' => ['\\', 'r']
  | '\t' => ['\\', 't']
  | '\x08' => ['\\', 'b']
  | '\x0c' => ['\\', 'f']
  | _ =>
    if char.toNat < 32 then
      ['\\', 'u', '0', '0', Nat.digitChar (char.toNat / 16), Nat.digitChar (char.toNat % 16)]
    else [char]

/-- A text in quotes. -/
def quote (value : String) : String :=
  "\"" ++ String.ofList (value.toList.flatMap escapedChar) ++ "\""

/-- A new line at a depth of indentation. -/
def newline (depth : Nat) : String := "\n" ++ String.ofList (List.replicate (2 * depth) ' ')

mutual

/-- A value whose members stand at a depth of indentation. -/
def prettyAt (depth : Nat) : Json → String
  | null => "null"
  | bool value => if value then "true" else "false"
  | number value => toString value
  | text value => quote value
  | list [] => "[]"
  | list (first :: rest) =>
    "[" ++ newline (depth + 1) ++ prettyAt (depth + 1) first ++ prettyItems (depth + 1) rest
      ++ newline depth ++ "]"
  | object [] => "\x7b\x7d"
  | object ((key, value) :: rest) =>
    "\x7b" ++ newline (depth + 1) ++ quote key ++ ": " ++ prettyAt (depth + 1) value
      ++ prettyMembers (depth + 1) rest ++ newline depth ++ "\x7d"

/-- The items of a list behind the first one. -/
def prettyItems (depth : Nat) : List Json → String
  | [] => ""
  | item :: rest => "," ++ newline depth ++ prettyAt depth item ++ prettyItems depth rest

/-- The members of an object behind the first one. -/
def prettyMembers (depth : Nat) : List (String × Json) → String
  | [] => ""
  | (key, value) :: rest =>
    "," ++ newline depth ++ quote key ++ ": " ++ prettyAt depth value
      ++ prettyMembers depth rest

end

/-- The text of a value. -/
def pretty (json : Json) : String := prettyAt 0 json

/-- The value of something that may be missing. -/
def optional {α : Type} (convert : α → Json) : Option α → Json
  | some value => convert value
  | none => null

/-- A value under the name of its case. -/
def tagged (tag : String) (value : Json) : Json := object [(tag, value)]

end Json

end BehaviourScript
