/-
This file holds the cursor that reads a script's tokens, and the small readers
that everything else is built from. A reader takes a cursor and gives a value
or an error, and in both cases the cursor it has got to. The cursor never
passes the end mark, and it counts how deep the expression being read nests.
-/

import BehaviourScript.Token

namespace BehaviourScript

/-- The arguments that a known attribute asks for. -/
inductive ArgumentRule where
  | oneExpression | oneStateName | noArguments
  deriving DecidableEq

namespace ArgumentRule

/-- The wording of a broken rule. -/
def text : ArgumentRule → String
  | oneExpression => "takes exactly one expression"
  | oneStateName => "takes exactly one state name"
  | noArguments => "takes no arguments"

end ArgumentRule

/-- How deep an expression may nest. -/
def nestingLimit : Nat := 256

/-- Why tokens are not a script. -/
inductive ParseError where
  | expected (what : String) (found : Token.Kind) (position : Position)
  | unknownAttribute (name : String) (position : Position)
  | unknownCommand (name : String) (position : Position)
  | unknownCondition (name : String) (position : Position)
  | nestingTooDeep (position : Position)
  | badAttributeArgs (name : String) (rule : ArgumentRule) (position : Position)
  deriving DecidableEq

namespace ParseError

/-- The place an error is reported at. -/
def position : ParseError → Position
  | expected _ _ position => position
  | unknownAttribute _ position => position
  | unknownCommand _ position => position
  | unknownCondition _ position => position
  | nestingTooDeep position => position
  | badAttributeArgs _ _ position => position

/-- The wording of an error, without its place. -/
def reason : ParseError → String
  | expected what found _ => "expected " ++ what ++ ", found " ++ found.describe
  | unknownAttribute name _ => "unknown attribute `" ++ name ++ "`"
  | unknownCommand name _ => "unknown command `" ++ name ++ "`"
  | unknownCondition name _ => "unknown condition `" ++ name ++ "`"
  | nestingTooDeep _ =>
    "expression nests deeper than " ++ toString nestingLimit ++ " levels"
  | badAttributeArgs name rule _ => "attribute `" ++ name ++ "` " ++ rule.text

/-- The wording of an error. -/
def message (error : ParseError) : String := error.position.text ++ ": " ++ error.reason

end ParseError

/-- A place in a token list: the tokens passed, latest first, the tokens to come
and how many they are, and the nesting of the expression being read. -/
structure Cursor where
  passed : List Token
  rest : List Token
  depth : Nat
  remaining : Nat := rest.length
  counted : remaining = rest.length := by rfl
  deriving DecidableEq

namespace Cursor

/-- The start of a token list. -/
def ofTokens (tokens : List Token) : Cursor where
  passed := []
  rest := tokens
  depth := 0

/-- The token to read next. -/
def current? (cursor : Cursor) : Option Token := cursor.rest.head?

/-- What the next token is. Nothing left counts as the end mark. -/
def kind (cursor : Cursor) : Token.Kind :=
  match cursor.rest with
  | token :: _ => token.kind
  | [] => .eof

/-- What the token after the next one is. -/
def nextKind (cursor : Cursor) : Token.Kind :=
  match cursor.rest with
  | _ :: token :: _ => token.kind
  | _ => .eof

/-- Whether the next token is of a kind. -/
def isAt (cursor : Cursor) (kind : Token.Kind) : Bool := cursor.kind == kind

/-- Whether the next token is an identifier. -/
def isAtIdentifier (cursor : Cursor) : Bool :=
  match cursor.kind with
  | .identifier _ => true
  | _ => false

/-- Whether all tokens but the end mark are passed. -/
def atEnd (cursor : Cursor) : Bool := cursor.isAt .eof

/-- Passes the next token, unless it is the end mark. -/
def advance (cursor : Cursor) : Cursor :=
  match found : cursor.rest with
  | token :: rest =>
    if token.kind = .eof then cursor
    else {
      passed := token :: cursor.passed
      rest := rest
      depth := cursor.depth
      remaining := cursor.remaining - 1
      counted := by rw [cursor.counted, found, List.length_cons, Nat.add_sub_cancel] }
  | [] => cursor

/-- The span of the next token, or of the last one when none is left. -/
def span (cursor : Cursor) : Span :=
  match cursor.rest, cursor.passed with
  | token :: _, _ => token.span
  | [], token :: _ => token.span
  | [], [] => .dummy

/-- The span of the token passed last. -/
def previousSpan (cursor : Cursor) : Span :=
  match cursor.passed with
  | token :: _ => token.span
  | [] => cursor.span

/-- The span from `start` through the token passed last. -/
def spanFrom (cursor : Cursor) (start : Span) : Span := start.through cursor.previousSpan

/-- Where the next token starts. -/
def position (cursor : Cursor) : Position := cursor.span.start

/-- The error for a token that the grammar does not allow here. -/
def expected (cursor : Cursor) (what : String) : ParseError :=
  .expected what cursor.kind cursor.position

end Cursor

/-- A reader of tokens. -/
abbrev Parser := EStateM ParseError Cursor

namespace Parser

/-- Looks at the cursor. -/
def look {α : Type} (view : Cursor → α) : Parser α := fun cursor => .ok (view cursor) cursor

/-- Gives up with an error that depends on where the cursor is. -/
def fail {α : Type} (error : Cursor → ParseError) : Parser α :=
  fun cursor => .error (error cursor) cursor

/-- Gives up because the grammar asks for something else here. -/
def failExpected {α : Type} (what : String) : Parser α := fail (·.expected what)

/-- Takes over a value or an error that needs no reading. -/
def lift {α : Type} : Except ParseError α → Parser α
  | .ok value => fun cursor => .ok value cursor
  | .error error => fun cursor => .error error cursor

/-- Passes a token. -/
def advance : Parser Unit := fun cursor => .ok () cursor.advance

/-- Passes a token if it is of a kind, and says whether it was. -/
def eat (kind : Token.Kind) : Parser Bool := fun cursor =>
  if cursor.isAt kind then .ok true cursor.advance else .ok false cursor

/-- Passes a token that must be of a kind. -/
def expect (kind : Token.Kind) : Parser Span := fun cursor =>
  if cursor.isAt kind then .ok cursor.span cursor.advance
  else .error (cursor.expected kind.quoted) cursor

/-- Passes an identifier; `what` says which one is asked for. -/
def identifier (what : String) : Parser (String × Span) := fun cursor =>
  match cursor.kind with
  | .identifier name => .ok (name, cursor.span) cursor.advance
  | _ => .error (cursor.expected what) cursor

/-- Goes one level further into an expression. -/
def enter : Parser Unit := fun cursor =>
  if cursor.depth < nestingLimit then .ok () { cursor with depth := cursor.depth + 1 }
  else .error (.nestingTooDeep cursor.position) cursor

/-- Comes out of one level of an expression. -/
def leave : Parser Unit := fun cursor => .ok () { cursor with depth := cursor.depth - 1 }

/-- Goes back to a nesting depth. -/
def resetDepth (depth : Nat) : Parser Unit := fun cursor => .ok () { cursor with depth := depth }

/-- Reads items as long as `more` holds. Every item passes a token, and an item
that did not would be the last. -/
def many {α : Type} (more : Cursor → Bool) (item : Parser α) : Parser (List α) := fun cursor =>
  if more cursor then
    match item cursor with
    | .error error stop => .error error stop
    | .ok value next =>
      if next.remaining < cursor.remaining then
        match many more item next with
        | .error error stop => .error error stop
        | .ok values stop => .ok (value :: values) stop
      else .ok [value] next
  else .ok [] cursor
termination_by cursor => cursor.remaining

/-- Reads one item or more with commas between them. -/
def separated {α : Type} (item : Parser α) : Parser (List α) := do
  let first ← item
  let others ← many (·.isAt (.punct .comma)) (advance *> item)
  return first :: others

/-- Reads items with commas between them up to a closing parenthesis, which
may come at once. -/
def listed {α : Type} (item : Parser α) : Parser (List α) := do
  let items ← if ← look (·.isAt (.punct .rightParen)) then pure [] else separated item
  let _ ← expect (.punct .rightParen)
  return items

/-- Reads up to a closing parenthesis, which may come at once. -/
def optional {α : Type} (item : Parser α) : Parser (Option α) := do
  let value ← if ← look (·.isAt (.punct .rightParen)) then pure none else some <$> item
  let _ ← expect (.punct .rightParen)
  return value

end Parser

end BehaviourScript
