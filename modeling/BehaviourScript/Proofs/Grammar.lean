/-
This file states the grammar of scripts as a relation between rows of token
kinds and trees, without any reading order:

  script    := attribute* (library | behaviour | sequence)
  library   := 'library' NAME '{' const* (attribute* behaviour)* '}'
  behaviour := 'behaviour' NAME '{' const* starter? state+ '}'
  sequence  := 'sequence' NAME '{' const* pack* command* '}'

A relation holds of a row of kinds and a tree if the row spells the tree; trees
have no spans here. The number in front counts the levels of nesting that are
left to expressions: a minus sign, a pair of parentheses and every further
operand of a sum take one.
-/

import BehaviourScript.Parser.Script

namespace BehaviourScript

/-- The mark of an operator. -/
def BinOp.mark : BinOp → Punct
  | add => .plus
  | sub => .minus

namespace Grammar

open Token BehaviourScript.Parser

/-- The rows of kinds that spell a value. -/
abbrev Phrase (α : Type) := List Kind → α → Prop

/-! ### Rows of phrases -/

section Rows

variable {α : Type} (item : Phrase α)

/-- Any number of phrases. -/
inductive many : Phrase (List α)
  | nil : many [] []
  | cons {kinds others : List Kind} {value : α} {values : List α} :
      item kinds value → many others values → many (kinds ++ others) (value :: values)

/-- A comma and a phrase. -/
inductive afterComma : Phrase α
  | intro {kinds : List Kind} {value : α} :
      item kinds value → afterComma (.punct .comma :: kinds) value

/-- One phrase or more, with commas between them. -/
inductive separated : Phrase (List α)
  | intro {kinds others : List Kind} {value : α} {values : List α} :
      item kinds value → many (afterComma item) others values →
      separated (kinds ++ others) (value :: values)

/-- Phrases with commas between them, or none, and the parenthesis that closes
the list. -/
inductive listed : Phrase (List α)
  | none : listed [.punct .rightParen] []
  | some {kinds : List Kind} {values : List α} :
      separated item kinds values → listed (kinds ++ [.punct .rightParen]) values

/-- What stands in parentheses, if they are there. The phrase includes the
closing one. -/
inductive inParens (inner : Phrase (List α)) : Phrase (List α)
  | absent : inParens inner [] []
  | given {kinds : List Kind} {values : List α} :
      inner kinds values → inParens inner (.punct .leftParen :: kinds) values

/-- A phrase, or none, and the parenthesis that closes it. -/
inductive optional : Phrase (Option α)
  | none : optional [.punct .rightParen] none
  | some {kinds : List Kind} {value : α} :
      item kinds value → optional (kinds ++ [.punct .rightParen]) (some value)

end Rows

/-! ### Expressions -/

mutual

inductive operand : Nat → Phrase Expr
  | number {room : Nat} {value : Int64} :
      operand room [.number value] (.number value.toInt .dummy)
  | const {room : Nat} {name : String} : operand room [.identifier name] (.const name .dummy)
  | neg {room : Nat} {kinds : List Kind} {value : Expr} :
      operand room kinds value →
      operand (room + 1) (.punct .minus :: kinds) (.neg value .dummy)
  | parens {room : Nat} {kinds : List Kind} {value : Expr} :
      expr room kinds value →
      operand (room + 1) (.punct .leftParen :: (kinds ++ [.punct .rightParen])) value

/-- The further operands of a sum, each with its operator. What is read before
them is their left operand. -/
inductive chain : Nat → Expr → Phrase Expr
  | done {room : Nat} {left : Expr} : chain room left [] left
  | more {room : Nat} {op : BinOp} {left right value : Expr} {kinds others : List Kind} :
      operand room kinds right →
      chain room (.binary op left right .dummy) others value →
      chain (room + 1) left (.punct op.mark :: (kinds ++ others)) value

inductive expr : Nat → Phrase Expr
  | intro {room : Nat} {kinds others : List Kind} {first value : Expr} :
      operand room kinds first → chain room first others value →
      expr room (kinds ++ others) value

end

inductive reference : Phrase Reference
  | number {value : Int64} : reference [.number value] (.literal value.toInt)
  | negative {value : Int64} :
      reference [.punct .minus, .number value] (.literal (-value).toInt)
  | name {name : String} : reference [.identifier name] (.symbol name)

inductive assign (room : Nat) : Phrase Assign
  | intro {name : String} {kinds : List Kind} {value : Expr} :
      expr room kinds value →
      assign room (.identifier name :: .punct .equals :: kinds) ⟨name, value, .dummy⟩

/-! ### Attributes -/

/-- The attributes by name and arguments. -/
inductive shape : String → List Argument → Attribute.Kind → Prop
  | globalIndex {value : Expr} : shape "GlobalIndex" [.plain value] (.globalIndex value)
  | priority {value : Expr} : shape "Priority" [.plain value] (.priority value)
  | instanceType {value : Expr} : shape "InstanceType" [.plain value] (.instanceType value)
  | useObjectSlot {value : Expr} : shape "UseObjectSlot" [.plain value] (.useObjectSlot value)
  | unknown {value : Expr} : shape "Unknown" [.plain value] (.unknown value)
  | startFrom {state : String} {span : Span} :
      shape "StartFrom" [.plain (.const state span)] (.startFrom state)
  | controlPacket {arguments : List Argument} :
      shape "ControlPacket" arguments
        (.controlPacket ⟨Argument.namedOnly arguments, Argument.plainOnly arguments⟩)
  | nonBlocking : shape "NonBlocking" [] .nonBlocking
  | skipFirstBody : shape "SkipFirstBody" [] .skipFirstBody

inductive argument (room : Nat) : Phrase Argument
  | named {kinds : List Kind} {value : Assign} :
      assign room kinds value → argument room kinds (.named value)
  | plain {kinds : List Kind} {value : Expr} :
      expr room kinds value → argument room kinds (.plain value)

/-- The arguments of an attribute with their parentheses. -/
def arguments (room : Nat) : Phrase (List Argument) := inParens (listed (argument room))

inductive attr (room : Nat) : Phrase Attribute
  | intro {name : String} {kinds : List Kind} {values : List Argument} {kind : Attribute.Kind} :
      arguments room kinds values → shape name values kind →
      attr room (.punct .leftBracket :: .identifier name :: (kinds ++ [.punct .rightBracket]))
        ⟨kind, .dummy⟩

/-! ### Commands and states -/

inductive constDecl (room : Nat) : Phrase ConstDecl
  | intro {name : String} {kinds : List Kind} {value : Expr} :
      expr room kinds value →
      constDecl room
        (.keyword .const :: .identifier name :: .punct .equals ::
          (kinds ++ [.punct .semicolon])) ⟨name, value, .dummy⟩

inductive command (room : Nat) : Phrase Command
  | intro {name : String} {id : UInt16} {kinds : List Kind} {args : List Expr} :
      Catalogue.commands.id? name = some id → listed (expr room) kinds args →
      command room
        (.identifier name :: .punct .leftParen :: (kinds ++ [.punct .semicolon]))
        ⟨id, args, .dummy⟩

/-- The word that turns a condition round. -/
def negation (negate : Bool) : List Kind := if negate then [.keyword .not] else []

inductive condition (room : Nat) : Phrase Condition
  | intro {negate : Bool} {name : String} {id : UInt16} {kinds : List Kind}
      {parameter : Option Expr} :
      Catalogue.conditions.id? name = some id → optional (expr room) kinds parameter →
      condition room
        (negation negate ++ .identifier name :: .punct .leftParen :: kinds)
        ⟨id, negate, parameter, .dummy⟩

inductive guard (room : Nat) : Phrase (Option Condition)
  | test {kinds : List Kind} {value : Condition} :
      condition room kinds value → guard room (.keyword .if :: kinds) (some value)
  | always : guard room [.keyword .do] none

inductive jump : Phrase (Option String)
  | absent : jump [] none
  | goto {state : String} :
      jump [.keyword .goto, .identifier state, .punct .semicolon] (some state)

inductive stateBody (room : Nat) : Phrase StateBody
  | intro {opening row leap : List Kind} {test : Option Condition} {commands : List Command}
      {target : Option String} :
      guard room opening test → many (command room) row commands → jump leap target →
      stateBody room
        (opening ++ .punct .leftBrace :: (row ++ (leap ++ [.punct .rightBrace])))
        ⟨test, commands, target, .dummy⟩

inductive state (room : Nat) : Phrase State
  | intro {name : String} {front inner row : List Kind} {attributes : List Attribute}
      {target : Option Reference} {bodies : List StateBody} :
      many (attr room) front attributes → optional reference inner target →
      many (stateBody room) row bodies →
      state room
        (front ++ .keyword .state :: .identifier name :: .punct .leftParen ::
          (inner ++ .punct .leftBrace :: (row ++ [.punct .rightBrace])))
        ⟨attributes, name, target, bodies, .dummy⟩

/-! ### Whole scripts -/

/-- One field of an assigner or more, and the parenthesis that closes them. -/
inductive fieldList (room : Nat) : Phrase (List Assign)
  | intro {kinds : List Kind} {values : List Assign} :
      separated (assign room) kinds values →
      fieldList room (kinds ++ [.punct .rightParen]) values

/-- The fields of an assigner with their parentheses. -/
def fields (room : Nat) : Phrase (List Assign) := inParens (fieldList room)

inductive assigner (room : Nat) : Phrase Assigner
  | intro {name kinds : List Kind} {object : Reference} {values : List Assign} :
      reference name object → fields room kinds values →
      assigner room (.keyword .assign :: (name ++ (kinds ++ [.punct .semicolon])))
        ⟨object, values, .dummy⟩

inductive starter (room : Nat) : Phrase Starter
  | intro {kinds : List Kind} {assigners : List Assigner} :
      many (assigner room) kinds assigners →
      starter room
        (.keyword .starter :: .punct .leftBrace :: (kinds ++ [.punct .rightBrace]))
        ⟨assigners, .dummy⟩

inductive setup (room : Nat) : Phrase (Option Starter)
  | absent : setup room [] none
  | given {kinds : List Kind} {value : Starter} :
      starter room kinds value → setup room kinds (some value)

/-- A behaviour behind its attributes. It has at least one state. -/
inductive behaviour (room : Nat) (attributes : List Attribute) : Phrase Behaviour
  | intro {name : String} {front middle row : List Kind} {consts : List ConstDecl}
      {initial : Option Starter} {states : List State} :
      many (constDecl room) front consts → setup room middle initial →
      many (state room) row states → states ≠ [] →
      behaviour room attributes
        (.keyword .behaviour :: .identifier name :: .punct .leftBrace ::
          (front ++ (middle ++ (row ++ [.punct .rightBrace]))))
        ⟨attributes, name, consts, initial, states, .dummy⟩

inductive libraryBehaviour (room : Nat) : Phrase Behaviour
  | intro {front kinds : List Kind} {attributes : List Attribute} {value : Behaviour} :
      many (attr room) front attributes → behaviour room attributes kinds value →
      libraryBehaviour room (front ++ kinds) value

/-- A library behind its attributes. -/
inductive library (room : Nat) (attributes : List Attribute) : Phrase Library
  | intro {name : String} {front row : List Kind} {consts : List ConstDecl}
      {behaviours : List Behaviour} :
      many (constDecl room) front consts → many (libraryBehaviour room) row behaviours →
      library room attributes
        (.keyword .library :: .identifier name :: .punct .leftBrace ::
          (front ++ (row ++ [.punct .rightBrace])))
        ⟨attributes, name, consts, behaviours, .dummy⟩

inductive commandPack (room : Nat) : Phrase CommandPack
  | intro {name row : List Kind} {script : Reference} {commands : List Command} :
      reference name script → many (command room) row commands →
      commandPack room
        (.keyword .pack :: .punct .leftParen ::
          (name ++ .punct .rightParen :: .punct .leftBrace :: (row ++ [.punct .rightBrace])))
        ⟨script, commands, .dummy⟩

/-- A sequence behind its attributes. -/
inductive sequence (room : Nat) (attributes : List Attribute) : Phrase Sequence
  | intro {name : String} {front middle row : List Kind} {consts : List ConstDecl}
      {packs : List CommandPack} {commands : List Command} :
      many (constDecl room) front consts → many (commandPack room) middle packs →
      many (command room) row commands →
      sequence room attributes
        (.keyword .sequence :: .identifier name :: .punct .leftBrace ::
          (front ++ (middle ++ (row ++ [.punct .rightBrace]))))
        ⟨attributes, name, consts, packs, commands, .dummy⟩

/-- A library, a behaviour or a sequence behind its attributes. -/
inductive unit (room : Nat) (attributes : List Attribute) : Phrase Script
  | library {kinds : List Kind} {content : Library} :
      library room attributes kinds content → unit room attributes kinds (.library content)
  | behaviour {kinds : List Kind} {content : Behaviour} :
      behaviour room attributes kinds content → unit room attributes kinds (.behaviour content)
  | sequence {kinds : List Kind} {content : Sequence} :
      sequence room attributes kinds content → unit room attributes kinds (.sequence content)

inductive script (room : Nat) : Phrase Script
  | intro {front kinds : List Kind} {attributes : List Attribute} {value : Script} :
      many (attr room) front attributes → unit room attributes kinds value →
      script room (front ++ kinds) value

end Grammar

end BehaviourScript
