/-
This file joins the errors of the stages that a script goes through.
-/

import BehaviourScript.FormatError
import BehaviourScript.Parser.Cursor
import BehaviourScript.Resolver
import BehaviourScript.SemanticError
import BehaviourScript.Token.Lexer

namespace BehaviourScript

/-- What stopped a compilation or a decompilation. -/
inductive Error where
  | lex (error : LexError)
  | parse (error : ParseError)
  | semantic (error : SemanticError)
  | resolution (error : ResolutionError)
  | format (error : FormatError)
  deriving DecidableEq

namespace Error

/-- The stage that an error stopped. -/
def stage : Error → String
  | lex _ => "lex"
  | parse _ => "parse"
  | semantic _ => "semantic"
  | resolution _ => "resolution"
  | format _ => "format"

/-- The wording of an error. -/
def message : Error → String
  | lex error => error.message
  | parse error => error.message
  | semantic error => error.message
  | resolution error => error.message
  | format error => error.message

end Error

/-- What a stage gives, or the error that stopped it. -/
abbrev Outcome := Except Error

namespace Outcome

/-- The outcome of splitting a text into tokens. -/
def ofLex {α : Type} : Except LexError α → Outcome α := Except.mapError .lex

/-- The outcome of reading tokens. -/
def ofParse {α : Type} : Except ParseError α → Outcome α := Except.mapError .parse

/-- The outcome of a check or an evaluation. -/
def ofSemantic {α : Type} : Except SemanticError α → Outcome α := Except.mapError .semantic

/-- The outcome of asking the host. -/
def ofResolution {α : Type} : Except ResolutionError α → Outcome α :=
  Except.mapError .resolution

/-- The outcome of reading bytes. -/
def ofFormat {α : Type} : Except FormatError α → Outcome α := Except.mapError .format

end Outcome

end BehaviourScript
