/-
This file reads and writes quoted texts of TOML. There are four ways to quote:
double quotes with escapes or single quotes without, and either once or three
times over. A text in three quotes may span lines and hold up to two quotes of
its own in a row.
-/

import BehaviourScript.Token

namespace BehaviourScript.Toml

/-- Whether a character may stand in a comment or in quotes as it is. -/
def isPlain (char : Char) : Bool := char == '\t' || (32 ≤ char.toNat && char.toNat != 127)

/-! ### Reading -/

/-- The character that a number of hexadecimal digits stand for. -/
def unicode? (count : Nat) (line : List Char) : Option (Char × List Char) :=
  if (line.take count).length = count then
    match Numeral.read? 16 (line.take count) with
    | some code =>
      if code.isValidChar then some (Char.ofNat code, line.drop count) else none
    | none => none
  else none

/-- The character behind a backslash. -/
def escape? : List Char → Option (Char × List Char)
  | 'b' :: rest => some ('\x08', rest)
  | 't' :: rest => some ('\t', rest)
  | 'n' :: rest => some ('\n', rest)
  | 'f' :: rest => some ('\x0c', rest)
  | 'r' :: rest => some ('\r', rest)
  | '"' :: rest => some ('"', rest)
  | '\\' :: rest => some ('\\', rest)
  | 'u' :: rest => unicode? 4 rest
  | 'U' :: rest => unicode? 8 rest
  | _ => none

/-- The rest of a text up to its closing quote, read with a number of steps;
each step takes a character. -/
def basicText? : (steps : Nat) → List Char → Option (List Char × List Char)
  | _, '"' :: rest => some ([], rest)
  | steps + 1, '\\' :: rest => do
    let (char, rest) ← escape? rest
    let (text, rest) ← basicText? steps rest
    return (char :: text, rest)
  | steps + 1, char :: rest =>
    if isPlain char then do
      let (text, rest) ← basicText? steps rest
      return (char :: text, rest)
    else none
  | _, _ => none

/-- A quoted text at the front of a line. Between single quotes nothing is
escaped. -/
def quoted? : List Char → Option (String × List Char)
  | '"' :: rest => (basicText? rest.length rest).map fun (text, rest) => (String.ofList text, rest)
  | '\x27' :: rest =>
    let text := rest.takeWhile (· != '\x27')
    match rest.dropWhile (· != '\x27') with
    | '\x27' :: after => if text.all isPlain then some (String.ofList text, after) else none
    | _ => none
  | _ => none

/-- The rest of a text up to its three closing quotes, read with a number of
steps. Quotes in front of the last three belong to the text. -/
def longText? (quote : Char) : (steps : Nat) → List Char → Option (List Char × List Char)
  | 0, _ => none
  | steps + 1, line => do
    let (char, rest) ← match line with
      | first :: second :: third :: rest =>
        if first = quote ∧ second = quote ∧ third = quote ∧ rest.head? ≠ some quote then
          return ([], rest)
        else if first = '\\' ∧ quote = '"' then escape? (second :: third :: rest)
        else if first = '\n' ∨ isPlain first then some (first, second :: third :: rest)
        else none
      | _ => none
    let (text, rest) ← longText? quote steps rest
    return (char :: text, rest)

/-- A text in three quotes at the front of a line. A newline right behind the
opening ones does not count. -/
def longQuoted? : List Char → Option (String × List Char)
  | first :: second :: third :: rest =>
    if first = second ∧ second = third ∧ (first = '"' ∨ first = '\x27') then
      let inside := if rest.head? = some '\n' then rest.drop 1 else rest
      (longText? first (inside.length + 1) inside).map fun (text, rest) =>
        (String.ofList text, rest)
    else none
  | _ => none

/-! ### Writing -/

/-- The ways to quote a text. -/
inductive QuoteStyle where
  | basic | literal | longBasic | longLiteral
  deriving DecidableEq

/-- The most times in a row that a character stands in a text, given how often
it stands right in front. -/
def longestRun (char : Char) : (run : Nat) → List Char → Nat
  | run, [] => run
  | run, first :: rest =>
    if first = char then longestRun char (run + 1) rest else max run (longestRun char 0 rest)

/-- How a text is quoted: the first way that needs no escapes, and escapes if
there is none. Quotes are single only if double ones would not do. -/
def QuoteStyle.ofText (text : List Char) : QuoteStyle :=
  let spansLines := text.contains '\n'
  let backslash := text.contains '\\'
  let printable := text.all fun char => char == '\n' || isPlain char
  let double := longestRun '"' 0 text
  let single := longestRun '\x27' 0 text
  if printable && !backslash && double == 0 && !spansLines then basic
  else if printable && single == 0 && !spansLines then literal
  else if printable && !backslash && double ≤ 2 then longBasic
  else if printable && single ≤ 2 then longLiteral
  else if spansLines then longBasic
  else basic

/-- A character other than a double quote, inside such quotes. -/
def escaped (long : Bool) (char : Char) : List Char :=
  match char with
  | '\\' => ['\\', '\\']
  | '\x08' => ['\\', 'b']
  | '\t' => ['\\', 't']
  | '\n' => if long then ['\n'] else ['\\', 'n']
  | '\x0c' => ['\\', 'f']
  | '\r' => ['\\', 'r']
  | _ =>
    if isPlain char then [char]
    else ['\\', 'u', '0', '0', (Nat.digitChar (char.toNat / 16)).toUpper,
      (Nat.digitChar (char.toNat % 16)).toUpper]

/-- A text inside double quotes, given how many such quotes stand right in
front. In three quotes it may have two in a row. -/
def escapedText (long : Bool) : (run : Nat) → List Char → List Char
  | _, [] => []
  | run, '"' :: rest =>
    if run < (if long then 2 else 0) then '"' :: escapedText long (run + 1) rest
    else '\\' :: '"' :: escapedText long 0 rest
  | _, char :: rest => escaped long char ++ escapedText long 0 rest

/-- A text in quotes. One that spans lines starts on a line of its own. -/
def quote (text : String) : String :=
  let chars := text.toList
  let lead := if chars.contains '\n' then "\n" else ""
  match QuoteStyle.ofText chars with
  | .basic => "\"" ++ String.ofList (escapedText false 0 chars) ++ "\""
  | .literal => "\x27" ++ text ++ "\x27"
  | .longBasic => "\"\"\"" ++ lead ++ String.ofList (escapedText true 0 chars) ++ "\"\"\""
  | .longLiteral => "\x27\x27\x27" ++ lead ++ text ++ "\x27\x27\x27"

end BehaviourScript.Toml
