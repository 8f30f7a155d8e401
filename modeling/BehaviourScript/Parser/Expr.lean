/-
This file reads expressions, and the small phrases made of them:

  expression := operand (('+' | '-') operand)*
  operand    := '-' operand | NUMBER | IDENTIFIER | '(' expression ')'

Sums and differences group to the left. Every minus sign, every parenthesis and
every further operand of a sum takes one level of nesting, and an expression
that needs more than the limit is refused. The readers recurse on the levels
that are left.
-/

import BehaviourScript.Parser.Cursor
import BehaviourScript.Script

namespace BehaviourScript.Parser

/-- The binary operator that a token is. -/
def binOp? : Token.Kind → Option BinOp
  | .punct .plus => some .add
  | .punct .minus => some .sub
  | _ => none

/-- Refuses an expression that nests too deep. -/
def tooDeep {α : Type} : Parser α := fail fun cursor => .nestingTooDeep cursor.position

/-- Reads an operand, given the readers for what is one level further in: the
operand behind a minus sign, and the expression in parentheses. -/
def operandOver (negated inner : Parser Expr) : Parser Expr := do
  let start ← look Cursor.span
  match ← look Cursor.kind with
  | .number value =>
    advance
    return .number value.toInt start
  | .identifier name =>
    advance
    return .const name start
  | .punct mark =>
    match mark with
    | .minus =>
      enter
      advance
      let operand ← negated
      leave
      return .neg operand (← look (·.spanFrom start))
    | .leftParen =>
      enter
      advance
      let value ← inner
      let _ ← expect (.punct .rightParen)
      leave
      return value
    | _ => failExpected "expression"
  | _ => failExpected "expression"

/-- Reads a whole expression, given the readers for its first operand and for
what follows. In the end the nesting is what it was at the start. -/
def exprOver (operand : Parser Expr) (chain : Span → Expr → Parser Expr) : Parser Expr := do
  let start ← look Cursor.span
  let depth ← look Cursor.depth
  let first ← operand
  let whole ← chain start first
  resetDepth depth
  return whole

mutual

/-- Reads an operand with a number of nesting levels left. -/
def operandWithin : Nat → Parser Expr
  | 0 => operandOver tooDeep tooDeep
  | room + 1 =>
    operandOver (operandWithin room) (exprOver (operandWithin room) (chainWithin room))

/-- Reads the further operands of a sum that starts at `start`, with a number
of nesting levels left. -/
def chainWithin : Nat → Span → Expr → Parser Expr
  | 0, _, left => do
    match binOp? (← look Cursor.kind) with
    | none => return left
    | some _ => tooDeep
  | room + 1, start, left => do
    match binOp? (← look Cursor.kind) with
    | none => return left
    | some op =>
      enter
      advance
      let right ← operandWithin room
      let span ← look (·.spanFrom start)
      chainWithin room start (.binary op left right span)

end

/-- Reads an expression. -/
def expr : Parser Expr := do
  let room ← look fun cursor => nestingLimit - cursor.depth
  exprOver (operandWithin room) (chainWithin room)

/-- Passes a minus sign if one comes next, and gives the negative of the number
that must stand behind it. The least number has no negative in 64 bits. It comes
round to itself here; a program that is built to check for overflow breaks off
there instead. -/
def negative? : Parser (Option Int64) := fun cursor =>
  if cursor.isAt (.punct .minus) then
    match cursor.advance.kind with
    | .number value => .ok (some (-value)) cursor.advance
    | _ => .error (cursor.advance.expected "number") cursor.advance
  else .ok none cursor

/-- Reads a reference: a number, which may be negative, or a name. -/
def reference : Parser Reference := do
  match ← negative? with
  | some value =>
    advance
    return .literal value.toInt
  | none =>
    match ← look Cursor.kind with
    | .number value =>
      advance
      return .literal value.toInt
    | .identifier name =>
      advance
      return .symbol name
    | _ => failExpected "number or identifier"

/-- Reads a named value. -/
def assign : Parser Assign := do
  let (name, start) ← identifier "field name"
  let _ ← expect (.punct .equals)
  let value ← expr
  return ⟨name, value, ← look (·.spanFrom start)⟩

/-- Reads expressions in parentheses. -/
def exprList : Parser (List Expr) := do
  let _ ← expect (.punct .leftParen)
  listed expr

end BehaviourScript.Parser
