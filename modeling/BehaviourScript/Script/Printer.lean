/-
This file prints a script in its canonical layout. Attributes stand on lines of
their own above what they belong to; a block opens on its header's line and
closes on a line of its own; a blank line divides the const list, the starter
and the states of a behaviour, and the const list and the behaviours of a
library. Parentheses stand only where the tree needs them.
-/

import BehaviourScript.Catalogue
import BehaviourScript.Script

namespace BehaviourScript

/-- How lines are indented: with one tab for each level, or with spaces. -/
structure PrintOptions where
  useTabs : Bool := true
  indentWidth : Nat := 4
  deriving DecidableEq, Inhabited

namespace PrintOptions

/-- The indentation of one level. -/
def indent (options : PrintOptions) : List Char :=
  if options.useTabs then ['\t'] else List.replicate options.indentWidth ' '

end PrintOptions

/-- A printed line: blank, or a text at a depth of indentation. -/
inductive Line where
  | blank
  | text (depth : Nat) (content : String)
  deriving DecidableEq

namespace Line

/-- The text of a line, with its newline. -/
def render (options : PrintOptions) : Line → String
  | blank => "\n"
  | text depth content =>
    String.ofList (List.replicate depth options.indent).flatten ++ content ++ "\n"

/-- A block: its header, its lines and the brace that closes it. -/
def block (depth : Nat) (header : String) (lines : List Line) : List Line :=
  text depth (header ++ " \x7b") :: lines ++ [text depth "\x7d"]

/-- Groups of lines with a blank line between them; the first may be missing. -/
def stack (top : List Line) (groups : List (List Line)) : List Line :=
  List.intercalate [blank] (if top.isEmpty then groups else top :: groups)

end Line

/-- Texts with commas between them. -/
def commaSeparated (items : List String) : String := String.intercalate ", " items

namespace BinOp

/-- An operator with the blanks around it. -/
def text : BinOp → String
  | add => " + "
  | sub => " - "

end BinOp

namespace Expr

/-- Wraps the text of an operand: sums and differences need parentheses. -/
def wrap (operand : Expr) (text : String) : String :=
  if operand.isBinary then "(" ++ text ++ ")" else text

/-- The text of an expression. -/
def text : Expr → String
  | number value _ => toString value
  | const name _ => name
  | neg operand _ => "-" ++ operand.wrap operand.text
  | binary op left right _ => left.text ++ op.text ++ right.wrap right.text

end Expr

namespace Assign

/-- The text of a named value. -/
def text (assign : Assign) : String := assign.name ++ " = " ++ assign.value.text

end Assign

namespace Attribute

namespace Kind

/-- The texts of an attribute's arguments, if it takes any. -/
def argumentTexts : Kind → Option (List String)
  | globalIndex value => some [value.text]
  | priority value => some [value.text]
  | instanceType value => some [value.text]
  | useObjectSlot value => some [value.text]
  | unknown value => some [value.text]
  | startFrom state => some [state]
  | controlPacket packet => some (packet.settings.map Assign.text ++ packet.data.map Expr.text)
  | nonBlocking => none
  | skipFirstBody => none

/-- The text of an attribute, in its brackets. -/
def text (kind : Kind) : String :=
  match kind.argumentTexts with
  | some texts => "[" ++ kind.name ++ "(" ++ commaSeparated texts ++ ")]"
  | none => "[" ++ kind.name ++ "]"

end Kind

/-- The line of an attribute. -/
def line (depth : Nat) (attr : Attribute) : Line := .text depth attr.kind.text

end Attribute

namespace ConstDecl

/-- The line of a const declaration. -/
def line (depth : Nat) (decl : ConstDecl) : Line :=
  .text depth ("const " ++ decl.name ++ " = " ++ decl.value.text ++ ";")

end ConstDecl

namespace Command

/-- The line of a command. -/
def line (depth : Nat) (command : Command) : Line :=
  .text depth
    (Catalogue.commands.name command.id ++ "(" ++ commaSeparated (command.args.map Expr.text)
      ++ ");")

end Command

namespace Condition

/-- The text of a condition. -/
def text (condition : Condition) : String :=
  (if condition.negate then "not " else "") ++ Catalogue.conditions.name condition.id ++ "("
    ++ (condition.parameter.map Expr.text).getD "" ++ ")"

end Condition

namespace StateBody

/-- The text that a body opens with. -/
def header (body : StateBody) : String :=
  match body.condition with
  | some condition => "if " ++ condition.text
  | none => "do"

/-- The lines of a body. -/
def lines (depth : Nat) (body : StateBody) : List Line :=
  Line.block depth body.header
    (body.commands.map (Command.line (depth + 1))
      ++ (body.jump.map fun state => Line.text (depth + 1) ("goto " ++ state ++ ";")).toList)

end StateBody

namespace State

/-- The lines of a state. -/
def lines (depth : Nat) (state : State) : List Line :=
  state.attributes.map (Attribute.line depth)
    ++ Line.block depth
      ("state " ++ state.name ++ "(" ++ (state.target.map Reference.text).getD "" ++ ")")
      (state.bodies.flatMap (StateBody.lines (depth + 1)))

end State

namespace Assigner

/-- The line of an assigner. -/
def line (depth : Nat) (assigner : Assigner) : Line :=
  .text depth
    ("assign " ++ assigner.object.text
      ++ (if assigner.fields.isEmpty then ""
          else "(" ++ commaSeparated (assigner.fields.map Assign.text) ++ ")")
      ++ ";")

end Assigner

namespace Starter

/-- The lines of a starter. -/
def lines (depth : Nat) (starter : Starter) : List Line :=
  Line.block depth "starter" (starter.assigners.map (Assigner.line (depth + 1)))

end Starter

namespace Behaviour

/-- The lines of a behaviour. -/
def lines (depth : Nat) (behaviour : Behaviour) : List Line :=
  behaviour.attributes.map (Attribute.line depth)
    ++ Line.block depth ("behaviour " ++ behaviour.name)
      (Line.stack (behaviour.consts.map (ConstDecl.line (depth + 1)))
        ((behaviour.starter.map (Starter.lines (depth + 1))).toList
          ++ behaviour.states.map (State.lines (depth + 1))))

end Behaviour

namespace CommandPack

/-- The lines of a pack. -/
def lines (depth : Nat) (pack : CommandPack) : List Line :=
  Line.block depth ("pack(" ++ pack.script.text ++ ")")
    (pack.commands.map (Command.line (depth + 1)))

end CommandPack

namespace Sequence

/-- The lines of a sequence. -/
def lines (sequence : Sequence) : List Line :=
  sequence.attributes.map (Attribute.line 0)
    ++ Line.block 0 ("sequence " ++ sequence.name)
      (sequence.consts.map (ConstDecl.line 1)
        ++ sequence.packs.flatMap (CommandPack.lines 1)
        ++ sequence.commands.map (Command.line 1))

end Sequence

namespace Library

/-- The lines of a library. -/
def lines (library : Library) : List Line :=
  library.attributes.map (Attribute.line 0)
    ++ Line.block 0 ("library " ++ library.name)
      (Line.stack (library.consts.map (ConstDecl.line 1))
        (library.behaviours.map (Behaviour.lines 1)))

end Library

namespace Script

/-- The lines of a script. -/
def lines : Script → List Line
  | library content => content.lines
  | behaviour content => content.lines 0
  | sequence content => content.lines

/-- The canonical text of a script. -/
def print (script : Script) (options : PrintOptions) : String :=
  String.join (script.lines.map (Line.render options))

end Script

end BehaviourScript
