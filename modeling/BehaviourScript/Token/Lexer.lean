/-
This file splits a source text into tokens. A text is read as a row of pieces:
blanks and comments, which are dropped, and words, numbers and punctuation,
which are tokens. Words and numbers are as long as they can be. The first
character that starts no piece ends the reading with an error.
-/

import BehaviourScript.Token

namespace BehaviourScript

/-- Why a text cannot be split into tokens. -/
inductive LexError where
  | unexpectedChar (char : Char) (position : Position)
  | malformedNumber (text : String) (position : Position)
  | unterminatedComment (position : Position)
  deriving DecidableEq

namespace LexError

/-- The place an error is reported at. -/
def position : LexError → Position
  | unexpectedChar _ position => position
  | malformedNumber _ position => position
  | unterminatedComment position => position

/-- The wording of an error. -/
def message : LexError → String
  | unexpectedChar char position =>
    position.text ++ ": unexpected character '" ++ char.toString ++ "'"
  | malformedNumber text position =>
    position.text ++ ": malformed number literal `" ++ text ++ "`"
  | unterminatedComment position => position.text ++ ": unterminated block comment"

end LexError

namespace Token

/-- The blanks between tokens. -/
def isBlank (char : Char) : Bool :=
  char == ' ' || char == '\t' || char == '\r' || char == '\n'

/-- Numbers are below this bound. -/
def numberBound : Nat := 9223372036854775808

/-- The value of a run that starts with a digit: decimal digits, or
hexadecimal digits after `0x`. -/
def numberValue? : List Char → Option Nat
  | '0' :: 'x' :: digits => Numeral.readBelow? 16 numberBound digits
  | '0' :: 'X' :: digits => Numeral.readBelow? 16 numberBound digits
  | digits => Numeral.readBelow? 10 numberBound digits

/-- What a word is: reserved, or an identifier. -/
def wordKind (word : String) : Kind :=
  match Keyword.ofText? word with
  | some keyword => .keyword keyword
  | none => .identifier word

/-- The rest of a block comment up to and with its end, and what follows. -/
def closeComment? : List Char → Option (List Char × List Char)
  | '*' :: '/' :: rest => some (['*', '/'], rest)
  | char :: rest => (closeComment? rest).map fun (comment, after) => (char :: comment, after)
  | [] => none

/-- A piece of source text: its characters, the token it is, if any, and the
text behind it. -/
structure Piece where
  kind : Option Kind
  text : List Char
  rest : List Char

namespace Piece

/-- The piece that a text begins with. -/
def read (position : Position) (first : Char) (rest : List Char) : Except LexError Piece :=
  if isBlank first then .ok ⟨none, [first], rest⟩
  else if isWordStart first then
    let word := first :: rest.takeWhile isWordChar
    .ok ⟨some (wordKind (String.ofList word)), word, rest.dropWhile isWordChar⟩
  else if first.isDigit then
    let digits := first :: rest.takeWhile isWordChar
    match numberValue? digits with
    | some value => .ok ⟨some (.number (.ofNat value)), digits, rest.dropWhile isWordChar⟩
    | none => .error (.malformedNumber (String.ofList digits) position)
  else
    match Punct.ofChar? first, first, rest with
    | some mark, _, _ => .ok ⟨some (.punct mark), [first], rest⟩
    | none, '/', '/' :: _ =>
      .ok ⟨none, first :: rest.takeWhile (· != '\n'), rest.dropWhile (· != '\n')⟩
    | none, '/', '*' :: body =>
      match closeComment? body with
      | some (comment, after) => .ok ⟨none, '/' :: '*' :: comment, after⟩
      | none => .error (.unterminatedComment position)
    | none, _, _ => .error (.unexpectedChar first position)

end Piece

/-- A comment's text and what follows it make up what was read. -/
theorem closeComment?_append {body comment after : List Char}
    (closed : closeComment? body = some (comment, after)) : comment ++ after = body := by
  fun_induction closeComment? body generalizing comment after with
  | case1 rest =>
    cases closed
    rfl
  | case2 char rest _ inductionHypothesis =>
    obtain ⟨⟨inner, behind⟩, innerClosed, same⟩ := Option.map_eq_some_iff.mp closed
    cases same
    rw [List.cons_append, inductionHypothesis innerClosed]
  | case3 => cases closed

/-- No character is lost: a piece and the text behind it are the text read. -/
theorem Piece.text_append_rest {position : Position} {first : Char} {rest : List Char}
    {piece : Piece} (found : Piece.read position first rest = .ok piece) :
    piece.text ++ piece.rest = first :: rest := by
  unfold Piece.read at found
  split at found
  · cases found
    rfl
  split at found
  · cases found
    simp
  split at found
  · dsimp only at found
    split at found
    · cases found
      simp
    · cases found
  split at found
  · cases found
    rfl
  · cases found
    simp
  · split at found
    · rename_i closed
      cases found
      simp [closeComment?_append closed]
    · cases found
  · cases found

/-- A piece is never empty. -/
theorem Piece.text_ne_nil {position : Position} {first : Char} {rest : List Char}
    {piece : Piece} (found : Piece.read position first rest = .ok piece) : piece.text ≠ [] := by
  intro empty
  unfold Piece.read at found
  split at found
  · cases found
    cases empty
  split at found
  · cases found
    cases empty
  split at found
  · dsimp only at found
    split at found
    · cases found
      cases empty
    · cases found
  split at found
  · cases found
    cases empty
  · cases found
    cases empty
  · split at found
    · cases found
      cases empty
    · cases found
  · cases found

/-- The text behind a piece is shorter than the text it was read from. -/
theorem Piece.length_rest_lt {position : Position} {first : Char} {rest : List Char}
    {piece : Piece} (found : Piece.read position first rest = .ok piece) :
    piece.rest.length < (first :: rest).length := by
  have whole := congrArg List.length (Piece.text_append_rest found)
  have nonempty := List.length_pos_iff.mpr (Piece.text_ne_nil found)
  rw [List.length_append] at whole
  omega

/-- The token that ends every token list. -/
def eofAt (position : Position) : Token := ⟨.eof, "", ⟨position, position⟩⟩

/-- The tokens of a text that starts at a position. -/
def listFrom (position : Position) : List Char → Except LexError (List Token)
  | [] => .ok [eofAt position]
  | first :: rest =>
    match _ : Piece.read position first rest with
    | .error fault => .error fault
    | .ok piece =>
      let stop := position.after piece.text
      match listFrom stop piece.rest, piece.kind with
      | .error fault, _ => .error fault
      | .ok tokens, none => .ok tokens
      | .ok tokens, some kind =>
        .ok (⟨kind, String.ofList piece.text, ⟨position, stop⟩⟩ :: tokens)
termination_by text => text.length
decreasing_by exact Piece.length_rest_lt (by assumption)

end Token

/-- The tokens of a source text, the end mark last. -/
def tokenize (source : String) : Except LexError (List Token) :=
  Token.listFrom .first source.toList

end BehaviourScript
