/-
This file reads a whole script:

  script    := attribute* (library | behaviour | sequence)
  library   := 'library' NAME '{' const* (attribute* behaviour)* '}'
  behaviour := 'behaviour' NAME '{' const* starter? (attribute* state)+ '}'
  sequence  := 'sequence' NAME '{' const* pack* command* '}'

A unit, a behaviour and a state start where their first attribute does.
-/

import BehaviourScript.Catalogue
import BehaviourScript.Parser.Expr

namespace BehaviourScript

namespace Parser

/-- An argument of an attribute, before the attribute's name gives it a
meaning. -/
inductive Argument where
  | named (assign : Assign)
  | plain (value : Expr)
  deriving DecidableEq

namespace Argument

/-- The named arguments of a list. -/
def namedOnly (arguments : List Argument) : List Assign :=
  arguments.filterMap fun
    | named assign => some assign
    | plain _ => none

/-- The arguments of a list that have no name. -/
def plainOnly (arguments : List Argument) : List Expr :=
  arguments.filterMap fun
    | named _ => none
    | plain value => some value

end Argument

/-- The attributes that take one expression. -/
def valuedAttribute? : String → Option (Expr → Attribute.Kind)
  | "GlobalIndex" => some .globalIndex
  | "Priority" => some .priority
  | "InstanceType" => some .instanceType
  | "UseObjectSlot" => some .useObjectSlot
  | "Unknown" => some .unknown
  | _ => none

/-- The attributes that take nothing. -/
def plainAttribute? : String → Option Attribute.Kind
  | "NonBlocking" => some .nonBlocking
  | "SkipFirstBody" => some .skipFirstBody
  | _ => none

/-- The attribute that a name and its arguments make. -/
def attributeKind (name : String) (position : Position) (arguments : List Argument) :
    Except ParseError Attribute.Kind :=
  match valuedAttribute? name, plainAttribute? name, name with
  | some build, _, _ =>
    match arguments with
    | [.plain value] => .ok (build value)
    | _ => .error (.badAttributeArgs name .oneExpression position)
  | none, some kind, _ =>
    match arguments with
    | [] => .ok kind
    | _ => .error (.badAttributeArgs name .noArguments position)
  | none, none, "StartFrom" =>
    match arguments with
    | [.plain (.const state _)] => .ok (.startFrom state)
    | _ => .error (.badAttributeArgs name .oneStateName position)
  | none, none, "ControlPacket" =>
    .ok (.controlPacket ⟨Argument.namedOnly arguments, Argument.plainOnly arguments⟩)
  | none, none, _ => .error (.unknownAttribute name position)

/-- Whether a named value comes next, and not an expression. -/
def isAtAssign (cursor : Cursor) : Bool :=
  cursor.isAtIdentifier && cursor.nextKind == .punct .equals

/-- Reads an argument of an attribute. -/
def argument : Parser Argument := do
  if ← look isAtAssign then return .named (← assign) else return .plain (← expr)

/-- Reads an attribute. -/
def attr : Parser Attribute := do
  let start ← expect (.punct .leftBracket)
  let position ← look Cursor.position
  let (name, _) ← identifier "attribute name"
  let arguments ← if ← eat (.punct .leftParen) then listed argument else pure []
  let _ ← expect (.punct .rightBracket)
  let kind ← lift (attributeKind name position arguments)
  return ⟨kind, ← look (·.spanFrom start)⟩

/-- Reads the attributes that stand in front of something. -/
def attributes : Parser (List Attribute) := many (·.isAt (.punct .leftBracket)) attr

/-- Reads a const declaration. -/
def constDecl : Parser ConstDecl := do
  let start ← expect (.keyword .const)
  let (name, _) ← identifier "const name"
  let _ ← expect (.punct .equals)
  let value ← expr
  let _ ← expect (.punct .semicolon)
  return ⟨name, value, ← look (·.spanFrom start)⟩

/-- Reads a const list. -/
def consts : Parser (List ConstDecl) := many (·.isAt (.keyword .const)) constDecl

/-- Reads the name of a command or condition and looks it up. -/
def catalogued (catalogue : Catalogue) (what : String)
    (unknown : String → Position → ParseError) : Parser UInt16 := do
  let position ← look Cursor.position
  let (name, _) ← identifier what
  match catalogue.id? name with
  | some id => return id
  | none => fail fun _ => unknown name position

/-- Reads a command. -/
def command : Parser Command := do
  let start ← look Cursor.span
  let id ← catalogued .commands "command name" .unknownCommand
  let args ← exprList
  let _ ← expect (.punct .semicolon)
  return ⟨id, args, ← look (·.spanFrom start)⟩

/-- Reads commands up to a closing brace. -/
def commandsToBrace : Parser (List Command) := do
  let commands ← many (!·.isAt (.punct .rightBrace)) command
  let _ ← expect (.punct .rightBrace)
  return commands

/-- Reads a condition. -/
def condition : Parser Condition := do
  let start ← look Cursor.span
  let negate ← eat (.keyword .not)
  let id ← catalogued .conditions "condition name" .unknownCondition
  let _ ← expect (.punct .leftParen)
  let parameter ← optional expr
  return ⟨id, negate, parameter, ← look (·.spanFrom start)⟩

/-- Reads what a body waits for. -/
def guard : Parser (Option Condition) := do
  match ← look Cursor.kind with
  | .keyword .if =>
    advance
    some <$> condition
  | .keyword .do =>
    advance
    return none
  | _ => failExpected "`if`, `do` or `\x7d`"

/-- Reads the state that a body goes to, if it says one. -/
def jump : Parser (Option String) := do
  if ← eat (.keyword .goto) then
    let (state, _) ← identifier "state name"
    let _ ← expect (.punct .semicolon)
    return some state
  else
    return none

/-- Reads a body of a state. -/
def stateBody : Parser StateBody := do
  let start ← look Cursor.span
  let condition ← guard
  let _ ← expect (.punct .leftBrace)
  let commands ← many Cursor.isAtIdentifier command
  let target ← jump
  let _ ← expect (.punct .rightBrace)
  return ⟨condition, commands, target, ← look (·.spanFrom start)⟩

/-- Reads a state with its attributes. -/
def state : Parser State := do
  let start ← look Cursor.span
  let attributes ← attributes
  if !(← look (·.isAt (.keyword .state))) then failExpected "`state`"
  advance
  let (name, _) ← identifier "state name"
  let _ ← expect (.punct .leftParen)
  let target ← optional reference
  let _ ← expect (.punct .leftBrace)
  let bodies ← many (!·.isAt (.punct .rightBrace)) stateBody
  let _ ← expect (.punct .rightBrace)
  return ⟨attributes, name, target, bodies, ← look (·.spanFrom start)⟩

/-- Whether another state, or an attribute of one, comes next. -/
def isAtState (cursor : Cursor) : Bool :=
  cursor.isAt (.punct .leftBracket) || cursor.isAt (.keyword .state)

/-- Reads an assigner. -/
def assigner : Parser Assigner := do
  let start ← expect (.keyword .assign)
  let object ← reference
  let fields ←
    if ← eat (.punct .leftParen) then
      let fields ← separated assign
      let _ ← expect (.punct .rightParen)
      pure fields
    else pure []
  let _ ← expect (.punct .semicolon)
  return ⟨object, fields, ← look (·.spanFrom start)⟩

/-- Reads a starter. -/
def starter : Parser Starter := do
  let start ← expect (.keyword .starter)
  let _ ← expect (.punct .leftBrace)
  let assigners ← many (·.isAt (.keyword .assign)) assigner
  let _ ← expect (.punct .rightBrace)
  return ⟨assigners, ← look (·.spanFrom start)⟩

/-- Reads a behaviour whose attributes are read already. -/
def behaviour (attributes : List Attribute) (start : Span) : Parser Behaviour := do
  let _ ← expect (.keyword .behaviour)
  let (name, _) ← identifier "behaviour name"
  let _ ← expect (.punct .leftBrace)
  let consts ← consts
  let starter ←
    if ← look (·.isAt (.keyword .starter)) then some <$> starter else pure none
  let first ← state
  let others ← many isAtState state
  let _ ← expect (.punct .rightBrace)
  return ⟨attributes, name, consts, starter, first :: others, ← look (·.spanFrom start)⟩

/-- Reads a behaviour of a library with its attributes. -/
def libraryBehaviour : Parser Behaviour := do
  let start ← look Cursor.span
  let attributes ← attributes
  if !(← look (·.isAt (.keyword .behaviour))) then failExpected "`behaviour` or `\x7d`"
  behaviour attributes start

/-- Reads a library whose attributes are read already. -/
def library (attributes : List Attribute) (start : Span) : Parser Library := do
  let _ ← expect (.keyword .library)
  let (name, _) ← identifier "library name"
  let _ ← expect (.punct .leftBrace)
  let consts ← consts
  let behaviours ← many (!·.isAt (.punct .rightBrace)) libraryBehaviour
  let _ ← expect (.punct .rightBrace)
  return ⟨attributes, name, consts, behaviours, ← look (·.spanFrom start)⟩

/-- Reads a command pack. -/
def commandPack : Parser CommandPack := do
  let start ← expect (.keyword .pack)
  let _ ← expect (.punct .leftParen)
  let script ← reference
  let _ ← expect (.punct .rightParen)
  let _ ← expect (.punct .leftBrace)
  let commands ← commandsToBrace
  return ⟨script, commands, ← look (·.spanFrom start)⟩

/-- Reads a sequence whose attributes are read already. -/
def sequence (attributes : List Attribute) (start : Span) : Parser Sequence := do
  let _ ← expect (.keyword .sequence)
  let (name, _) ← identifier "sequence name"
  let _ ← expect (.punct .leftBrace)
  let consts ← consts
  let packs ← many (·.isAt (.keyword .pack)) commandPack
  let commands ← commandsToBrace
  return ⟨attributes, name, consts, packs, commands, ← look (·.spanFrom start)⟩

/-- Reads a script, behind which only the end mark may stand. -/
def script : Parser Script := do
  let start ← look Cursor.span
  let attributes ← attributes
  let script ←
    match ← look Cursor.kind with
    | .keyword .library => Script.library <$> library attributes start
    | .keyword .behaviour => Script.behaviour <$> behaviour attributes start
    | .keyword .sequence => Script.sequence <$> sequence attributes start
    | _ => failExpected "`library`, `behaviour` or `sequence`"
  if !(← look Cursor.atEnd) then failExpected "end of input"
  return script

end Parser

/-- The script that a token list is. -/
def parse (tokens : List Token) : Except ParseError Script :=
  match Parser.script (.ofTokens tokens) with
  | .ok script _ => .ok script
  | .error error _ => .error error

end BehaviourScript
