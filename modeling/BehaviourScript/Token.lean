/-
This file holds the tokens of the script language: keywords, punctuation,
identifiers and numbers, with the text each is written as and the words error
messages use for it. It also reads whole numbers from their digits. A numeral is
a nonempty run of digits of its base and nothing else: no sign, no separators,
no blanks. Leading zeros are allowed.
-/

import BehaviourScript.Span

namespace BehaviourScript

namespace Numeral

/-- The value of a digit; letters count as the digits from ten to fifteen. -/
def digitValue? (char : Char) : Option Nat :=
  if '0' ≤ char ∧ char ≤ '9' then some (char.toNat - '0'.toNat)
  else if 'a' ≤ char ∧ char ≤ 'f' then some (char.toNat - 'a'.toNat + 10)
  else if 'A' ≤ char ∧ char ≤ 'F' then some (char.toNat - 'A'.toNat + 10)
  else none

/-- Reads on a number whose leading digits have the value `value`. -/
def continue? (base value : Nat) : List Char → Option Nat
  | [] => some value
  | char :: rest =>
    match digitValue? char with
    | some digit => if digit < base then continue? base (value * base + digit) rest else none
    | none => none

/-- Reads a nonempty run of digits of a base. -/
def read? (base : Nat) : List Char → Option Nat
  | [] => none
  | digits => continue? base 0 digits

/-- Reads a number that is below a bound. -/
def readBelow? (base bound : Nat) (digits : List Char) : Option Nat :=
  (read? base digits).filter (· < bound)

/-- Reads decimal digits after an optional sign. -/
def readSigned? : List Char → Option Int
  | '-' :: digits => (read? 10 digits).map fun value => -(value : Int)
  | '+' :: digits => (read? 10 digits).map Int.ofNat
  | digits => (read? 10 digits).map Int.ofNat

end Numeral

/-- The reserved words. -/
inductive Keyword where
  | library | behaviour | sequence | state | const | starter | assign | pack
  | «if» | «do» | not | goto
  deriving DecidableEq, Inhabited

namespace Keyword

/-- Every reserved word. -/
def all : List Keyword :=
  [library, behaviour, sequence, state, const, starter, assign, pack, «if», «do», not, goto]

/-- How a reserved word is written. -/
def text : Keyword → String
  | library => "library"
  | behaviour => "behaviour"
  | sequence => "sequence"
  | state => "state"
  | const => "const"
  | starter => "starter"
  | assign => "assign"
  | pack => "pack"
  | «if» => "if"
  | «do» => "do"
  | not => "not"
  | goto => "goto"

/-- The reserved word that is written as `word`. -/
def ofText? (word : String) : Option Keyword := all.find? (·.text == word)

end Keyword

/-- The operators and delimiters. -/
inductive Punct where
  | plus | minus | equals | leftParen | rightParen | leftBracket | rightBracket
  | leftBrace | rightBrace | comma | semicolon
  deriving DecidableEq, Inhabited

namespace Punct

/-- Every operator and delimiter. -/
def all : List Punct :=
  [plus, minus, equals, leftParen, rightParen, leftBracket, rightBracket, leftBrace, rightBrace,
    comma, semicolon]

/-- The one character of an operator or delimiter. -/
def char : Punct → Char
  | plus => '+'
  | minus => '-'
  | equals => '='
  | leftParen => '('
  | rightParen => ')'
  | leftBracket => '['
  | rightBracket => ']'
  | leftBrace => '\x7b'
  | rightBrace => '\x7d'
  | comma => ','
  | semicolon => ';'

/-- The operator or delimiter that a character is. -/
def ofChar? (char : Char) : Option Punct := all.find? (·.char == char)

end Punct

namespace Token

/-- What a token is, apart from where it stands and how it is spelled. A number
has 64 bits with a sign, though no source text spells a negative one. -/
inductive Kind where
  | keyword (word : Keyword)
  | punct (mark : Punct)
  | identifier (name : String)
  | number (value : Int64)
  | eof
  deriving DecidableEq, Inhabited

namespace Kind

/-- A token's own text. Numbers are in decimal, and the end has a stand-in. -/
def text : Kind → String
  | keyword word => word.text
  | punct mark => mark.char.toString
  | identifier name => name
  | number value => toString value
  | eof => "<eof>"

/-- A token's own text in backquotes, as error messages ask for it. -/
def quoted (kind : Kind) : String := "`" ++ kind.text ++ "`"

/-- The words for a token that error messages report as found. -/
def describe : Kind → String
  | identifier name => "identifier `" ++ name ++ "`"
  | number value => "number `" ++ toString value ++ "`"
  | eof => "end of input"
  | kind => kind.quoted

end Kind

end Token

/-- A token: what it is, how the source spells it and where it stands. -/
structure Token where
  kind : Token.Kind
  lexeme : String
  span : Span
  deriving DecidableEq, Inhabited

/-- Words start with an ASCII letter or an underscore. -/
def isWordStart (char : Char) : Bool := char.isAlpha || char == '_'

/-- Words and numbers run on over ASCII letters, digits and underscores. -/
def isWordChar (char : Char) : Bool := char.isAlphanum || char == '_'

/-- A text is an identifier if it has the shape of a word and is not reserved. -/
def isIdentifier (text : String) : Bool :=
  match text.toList with
  | [] => false
  | first :: rest => isWordStart first && rest.all isWordChar && (Keyword.ofText? text).isNone

end BehaviourScript
