/-
This file shows tokens and scripts as JSON, for tools that look inside.
-/

import BehaviourScript.Json
import BehaviourScript.Script
import BehaviourScript.Token

namespace BehaviourScript

/-- A position as JSON. -/
def Position.toJson (position : Position) : Json :=
  .object [("line", .number position.line), ("column", .number position.column),
    ("offset", .number position.offset)]

/-- A span as JSON. -/
def Span.toJson (span : Span) : Json :=
  .object [("start", span.start.toJson), ("end", span.stop.toJson)]

/-- The tag of a reserved word. -/
def Keyword.tag : Keyword → String
  | library => "KwLibrary"
  | behaviour => "KwBehaviour"
  | sequence => "KwSequence"
  | state => "KwState"
  | const => "KwConst"
  | starter => "KwStarter"
  | assign => "KwAssign"
  | pack => "KwPack"
  | «if» => "KwIf"
  | «do» => "KwDo"
  | not => "KwNot"
  | goto => "KwGoto"

/-- The tag of an operator or delimiter. -/
def Punct.tag : Punct → String
  | plus => "Plus"
  | minus => "Minus"
  | equals => "Eq"
  | leftParen => "LParen"
  | rightParen => "RParen"
  | leftBracket => "LBracket"
  | rightBracket => "RBracket"
  | leftBrace => "LBrace"
  | rightBrace => "RBrace"
  | comma => "Comma"
  | semicolon => "Semicolon"

/-- The kind of a token as JSON. -/
def Token.Kind.toJson : Token.Kind → Json
  | keyword word => .text word.tag
  | punct mark => .text mark.tag
  | identifier name => .tagged "Identifier" (.text name)
  | number value => .tagged "IntLiteral" (.number value.toInt)
  | eof => .text "Eof"

/-- The value that a token carries, as JSON. -/
def Token.Kind.literalToJson : Token.Kind → Json
  | identifier name => .tagged "Ident" (.text name)
  | number value => .tagged "Int" (.number value.toInt)
  | _ => .null

/-- A token as JSON. -/
def Token.toJson (token : Token) : Json :=
  .object [("kind", token.kind.toJson), ("lexeme", .text token.lexeme),
    ("literal", token.kind.literalToJson), ("span", token.span.toJson)]

/-- The tag of an operator. -/
def BinOp.tag : BinOp → String
  | add => "Add"
  | sub => "Sub"

/-- An expression as JSON. -/
def Expr.toJson : Expr → Json
  | number value span => .tagged "Number" (.list [.number value, span.toJson])
  | const name span => .tagged "Const" (.list [.text name, span.toJson])
  | neg operand span =>
    .tagged "Unary"
      (.object [("op", .text "Neg"), ("operand", operand.toJson), ("span", span.toJson)])
  | binary op left right span =>
    .tagged "Binary"
      (.object [("op", .text op.tag), ("lhs", left.toJson), ("rhs", right.toJson),
        ("span", span.toJson)])

/-- A reference as JSON. -/
def Reference.toJson : Reference → Json
  | literal id => .tagged "Literal" (.number id)
  | symbol name => .tagged "Symbol" (.text name)

/-- A named value as JSON. -/
def Assign.toJson (assign : Assign) : Json :=
  .object [("name", .text assign.name), ("value", assign.value.toJson),
    ("span", assign.span.toJson)]

/-- A const declaration as JSON. -/
def ConstDecl.toJson (decl : ConstDecl) : Json :=
  .object [("name", .text decl.name), ("value", decl.value.toJson), ("span", decl.span.toJson)]

/-- A const list as JSON. -/
def constsToJson (decls : List ConstDecl) : Json :=
  .object [("decls", .list (decls.map ConstDecl.toJson))]

/-- What an attribute holds as JSON. -/
def Attribute.Kind.toJson (kind : Attribute.Kind) : Json :=
  match kind with
  | globalIndex value => .tagged kind.name value.toJson
  | priority value => .tagged kind.name value.toJson
  | instanceType value => .tagged kind.name value.toJson
  | useObjectSlot value => .tagged kind.name value.toJson
  | unknown value => .tagged kind.name value.toJson
  | startFrom state => .tagged kind.name (.text state)
  | controlPacket packet =>
    .tagged kind.name
      (.object [("settings", .list (packet.settings.map Assign.toJson)),
        ("data", .list (packet.data.map Expr.toJson))])
  | nonBlocking => .text kind.name
  | skipFirstBody => .text kind.name

/-- An attribute as JSON. -/
def Attribute.toJson (attr : Attribute) : Json :=
  .object [("kind", attr.kind.toJson), ("span", attr.span.toJson)]

/-- A condition as JSON. -/
def Condition.toJson (condition : Condition) : Json :=
  .object [("id", .number condition.id.toNat), ("negate", .bool condition.negate),
    ("parameter", .optional Expr.toJson condition.parameter), ("span", condition.span.toJson)]

/-- A command as JSON. -/
def Command.toJson (command : Command) : Json :=
  .object [("id", .number command.id.toNat), ("args", .list (command.args.map Expr.toJson)),
    ("span", command.span.toJson)]

/-- A body as JSON. -/
def StateBody.toJson (body : StateBody) : Json :=
  .object [("condition", .optional Condition.toJson body.condition),
    ("commands", .list (body.commands.map Command.toJson)),
    ("jump", .optional .text body.jump), ("span", body.span.toJson)]

/-- A state as JSON. -/
def State.toJson (state : State) : Json :=
  .object [("attributes", .list (state.attributes.map Attribute.toJson)),
    ("name", .text state.name), ("target", .optional Reference.toJson state.target),
    ("bodies", .list (state.bodies.map StateBody.toJson)), ("span", state.span.toJson)]

/-- An assigner as JSON. -/
def Assigner.toJson (assigner : Assigner) : Json :=
  .object [("object", assigner.object.toJson),
    ("fields", .list (assigner.fields.map Assign.toJson)), ("span", assigner.span.toJson)]

/-- A starter as JSON. -/
def Starter.toJson (starter : Starter) : Json :=
  .object [("assigners", .list (starter.assigners.map Assigner.toJson)),
    ("span", starter.span.toJson)]

/-- A behaviour as JSON. -/
def Behaviour.toJson (behaviour : Behaviour) : Json :=
  .object [("attributes", .list (behaviour.attributes.map Attribute.toJson)),
    ("name", .text behaviour.name), ("consts", constsToJson behaviour.consts),
    ("starter", .optional Starter.toJson behaviour.starter),
    ("states", .list (behaviour.states.map State.toJson)), ("span", behaviour.span.toJson)]

/-- A pack as JSON. -/
def CommandPack.toJson (pack : CommandPack) : Json :=
  .object [("script", pack.script.toJson),
    ("commands", .list (pack.commands.map Command.toJson)), ("span", pack.span.toJson)]

/-- A sequence as JSON. -/
def Sequence.toJson (sequence : Sequence) : Json :=
  .object [("attributes", .list (sequence.attributes.map Attribute.toJson)),
    ("name", .text sequence.name), ("consts", constsToJson sequence.consts),
    ("packs", .list (sequence.packs.map CommandPack.toJson)),
    ("commands", .list (sequence.commands.map Command.toJson)), ("span", sequence.span.toJson)]

/-- A library as JSON. -/
def Library.toJson (library : Library) : Json :=
  .object [("attributes", .list (library.attributes.map Attribute.toJson)),
    ("name", .text library.name), ("consts", constsToJson library.consts),
    ("behaviours", .list (library.behaviours.map Behaviour.toJson)),
    ("span", library.span.toJson)]

/-- A script as JSON. -/
def Script.toJson : Script → Json
  | library content => .tagged "Library" content.toJson
  | behaviour content => .tagged "Behaviour" content.toJson
  | sequence content => .tagged "Sequence" content.toJson

end BehaviourScript
