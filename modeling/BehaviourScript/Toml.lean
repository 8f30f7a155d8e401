/-
This file reads the part of TOML that settings and symbol files are written in:
comments, table headers, bare, quoted and dotted keys, and texts, integers,
floats and truth values, one a line, but for texts in three quotes, which may
span lines. A key or a table may be given only once.
-/

import BehaviourScript.Toml.Number
import BehaviourScript.Toml.Quoted

namespace BehaviourScript.Toml

/-- What a key can be set to. Floats are told from integers and not read. -/
inductive Scalar where
  | text (value : String)
  | integer (value : Int)
  | float
  | bool (value : Bool)
  deriving DecidableEq

/-- Why a text cannot be read, or is not of the form asked for. -/
inductive Fault where
  | malformed (line : Nat)
  | duplicate (line : Nat)
  | wrongType (key : String)
  deriving DecidableEq

namespace Fault

/-- The wording of a fault. -/
def message : Fault → String
  | malformed line => "line " ++ toString line ++ " cannot be read"
  | duplicate line => "line " ++ toString line ++ " sets a key or table again"
  | wrongType key => "`" ++ key ++ "` has a value of the wrong type"

end Fault

/-- The blanks within a line. -/
def isSpace (char : Char) : Bool := char == ' ' || char == '\t'

/-- The characters of a bare key. -/
def isKeyChar (char : Char) : Bool := char.isAlphanum || char == '_' || char == '-'

/-- A line from its first character that is not a blank. -/
def skipSpace (line : List Char) : List Char := line.dropWhile isSpace

/-- Whether nothing but blanks and a comment is left of a line. -/
def isDone (line : List Char) : Bool :=
  match skipSpace line with
  | [] => true
  | '#' :: comment => comment.all isPlain
  | _ => false

/-- A key without dots at the front of a line. -/
def simpleKey? (line : List Char) : Option (String × List Char) :=
  match line with
  | '"' :: _ => quoted? line
  | '\x27' :: _ => quoted? line
  | _ =>
    match line.takeWhile isKeyChar with
    | [] => none
    | key => some (String.ofList key, line.dropWhile isKeyChar)

/-- A key at the front of a line, read with a number of steps; each step takes
the part up to a dot. -/
def dottedKey? : (steps : Nat) → List Char → Option (List String × List Char)
  | 0, _ => none
  | steps + 1, line => do
    let (part, rest) ← simpleKey? (skipSpace line)
    match skipSpace rest with
    | '.' :: rest =>
      let (parts, rest) ← dottedKey? steps rest
      return (part :: parts, rest)
    | rest => return ([part], rest)

/-- A key at the front of a line. -/
def key? (line : List Char) : Option (List String × List Char) :=
  dottedKey? (line.length + 1) line

/-- What a word is. Integers must fit in 64 bits. -/
def word? (word : List Char) : Option Scalar :=
  if word = "true".toList then some (.bool true)
  else if word = "false".toList then some (.bool false)
  else
    match anyInteger? word with
    | some value => if fitsWord value then some (.integer value) else none
    | none => if isFloat word then some .float else none

/-- Whether a character ends a word. -/
def endsWord (char : Char) : Bool := isSpace char || char == '#'

/-- What a line sets its key to. -/
def scalar? (line : List Char) : Option Scalar :=
  match longQuoted? line <|> quoted? line with
  | some (text, rest) => if isDone rest then some (.text text) else none
  | none =>
    if isDone (line.dropWhile (!endsWord ·)) then word? (line.takeWhile (!endsWord ·)) else none

/-- What a line says. -/
inductive Statement where
  | nothing
  | table (path : List String)
  | assign (path : List String) (value : Scalar)
  deriving DecidableEq

/-- Reads a line. -/
def statement? (line : List Char) : Option Statement :=
  if isDone line then some .nothing
  else
    match skipSpace line with
    | '[' :: rest =>
      match key? rest with
      | some (path, ']' :: rest) => if isDone rest then some (.table path) else none
      | _ => none
    | line =>
      match key? line with
      | some (path, '=' :: rest) => (scalar? (skipSpace rest)).map (.assign path)
      | _ => none

/-- The tables and the values of a text, in its order. `implied` holds the
tables that dotted keys made. -/
structure Document where
  tables : List (List String)
  implied : List (List String)
  values : List (List String × Scalar)
  deriving DecidableEq

namespace Document

/-- A text that says nothing. -/
def empty : Document := ⟨[], [], []⟩

/-- Whether a value stands at a path or above it. -/
def hasValueOver (document : Document) (path : List String) : Bool :=
  document.values.any fun entry => entry.1.isPrefixOf path

/-- Whether a table or a value stands at a path or below it. -/
def hasUnder (document : Document) (path : List String) : Bool :=
  document.tables.any (path.isPrefixOf ·)
    || document.values.any fun entry => path.isPrefixOf entry.1

/-- Opens a table. It must be new, though tables below it may have come before,
and no dotted key may have made it. -/
def addTable? (document : Document) (path : List String) : Option Document :=
  if document.tables.contains path || document.implied.contains path
      || document.hasValueOver path then none
  else some { document with tables := document.tables ++ [path] }

/-- Goes down from a table along the front parts of a dotted key. A table on the
way must not have been opened; one that is not there yet is made. -/
def descend? (document : Document) (table : List String) : List String → Option Document
  | [] => some document
  | part :: rest =>
    let next := table ++ [part]
    if document.tables.contains next || document.hasValueOver next then none
    else if document.hasUnder next then document.descend? next rest
    else { document with implied := document.implied ++ [next] }.descend? next rest

/-- Sets a value at a new path below a table. Other than in the table itself,
it must be in a table that dotted keys made. -/
def addValue? (document : Document) (table path : List String) (value : Scalar) :
    Option Document := do
  let next ← document.descend? table path.dropLast
  let whole := table ++ path
  if next.hasValueOver whole || next.hasUnder whole then none
  else if path.length ≤ 1 || next.implied.contains whole.dropLast then
    some { next with values := next.values ++ [(whole, value)] }
  else none

/-- Takes in the lines of a text, the first of which has a number; `table` is
the one that keys belong to. -/
def addLines (document : Document) (table : List String) :
    (number : Nat) → List (List Char) → Except Fault Document
  | _, [] => .ok document
  | number, line :: rest =>
    match statement? line with
    | none => .error (.malformed number)
    | some .nothing => addLines document table (number + 1) rest
    | some (.table path) =>
      match document.addTable? path with
      | some next => addLines next path (number + 1) rest
      | none => .error (.duplicate number)
    | some (.assign path value) =>
      match document.addValue? table path value with
      | some next => addLines next table (number + 1) rest
      | none => .error (.duplicate number)

/-- The members of a top-level table, in order; a member that is a table has no
value. Nothing if there is no such table. -/
def members? (document : Document) (name : String) :
    Except Fault (Option (List (String × Option Scalar))) :=
  if document.values.any (·.1 == [name]) then .error (.wrongType name)
  else if document.hasUnder [name] then
    let values := document.values.filterMap fun
      | ([first, key], value) => if first = name then some (key, some value) else none
      | (first :: key :: _, _) => if first = name then some (key, none) else none
      | _ => none
    let tables := document.tables.filterMap fun
      | first :: key :: _ => if first = name then some (key, none) else none
      | _ => none
    .ok (some (values ++ tables))
  else .ok none

end Document

/-- The lines of a text. A carriage return in front of a newline belongs to the
line's end. -/
def lines (text : List Char) : List (List Char) :=
  let parts := text.splitOn '\n'
  parts.dropLast.map (fun line => if line.getLast? = some '\r' then line.dropLast else line)
    ++ parts.drop (parts.length - 1)

/-- A text without the byte order mark that it may start with. -/
def skipMark : List Char → List Char
  | '\ufeff' :: text => text
  | text => text

/-- Whether a line sets a key to a text in three quotes that it does not end. -/
def leavesOpen (line : List Char) : Bool :=
  match key? (skipSpace line) with
  | some (_, '=' :: rest) =>
    let value := skipSpace rest
    ("\"\"\"".toList.isPrefixOf value || "\x27\x27\x27".toList.isPrefixOf value)
      && (longQuoted? value).isNone
  | _ => false

/-- Joins every line that is left open with those up to its end; `start` is one
such line, joined so far. -/
def joinOpen : (start : Option (List Char)) → List (List Char) → List (List Char)
  | none, [] => []
  | some start, [] => [start]
  | start, line :: rest =>
    let whole := match start with
      | some start => start ++ '\n' :: line
      | none => line
    if leavesOpen whole then joinOpen (some whole) rest else whole :: joinOpen none rest

/-- Reads a text. -/
def read (text : String) : Except Fault Document :=
  Document.empty.addLines [] 1 (joinOpen none (lines (skipMark text.toList)))

end BehaviourScript.Toml
