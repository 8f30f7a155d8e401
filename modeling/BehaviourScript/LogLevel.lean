/-
This file holds the levels of log messages, the chattiest first.
-/

namespace BehaviourScript

/-- How important a log message is. -/
inductive LogLevel where
  | trace | debug | info | warn | error
  deriving DecidableEq

namespace LogLevel

/-- The place of a level among the levels. -/
def rank : LogLevel → Nat
  | trace => 0
  | debug => 1
  | info => 2
  | warn => 3
  | error => 4

/-- Whether messages of a level are shown where `least` is the least level
shown. -/
def shows (least level : LogLevel) : Bool := least.rank ≤ level.rank

/-- The name of a level in front of a message. -/
def text : LogLevel → String
  | trace => "TRACE"
  | debug => "DEBUG"
  | info => "INFO"
  | warn => "WARN"
  | error => "ERROR"

/-- The level of a name, in small or capital letters. -/
def ofText (name : String) : Except String LogLevel :=
  match name.toLower with
  | "trace" => .ok trace
  | "debug" => .ok debug
  | "info" => .ok info
  | "warn" => .ok warn
  | "warning" => .ok warn
  | "error" => .ok error
  | other => .error ("unknown log level `" ++ other ++ "`")

/-- A character of a message. Those that could steer a terminal are spelled
out. -/
def spelled (char : Char) : String :=
  match char with
  | '\x07' => "\\x07"
  | '\x08' => "\\x08"
  | '\x0c' => "\\x0c"
  | '\x1b' => "\\x1b"
  | '\x7f' => "\\x7f"
  | _ =>
    if 0x80 ≤ char.toNat ∧ char.toNat ≤ 0x9f then
      "\\u\x7b" ++ String.ofList (Nat.toDigits 16 char.toNat) ++ "\x7d"
    else char.toString

/-- The line of a message: the level, to the right of five columns, and the
text. -/
def line (level : LogLevel) (message : String) : String :=
  String.ofList (List.replicate (5 - level.text.length) ' ') ++ level.text ++ " "
    ++ String.join (message.toList.map spelled) ++ "\n"

end LogLevel

end BehaviourScript
