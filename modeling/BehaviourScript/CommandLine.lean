/-
This file reads the arguments that the tool is run with. They are read from the
left to the right, and the first that is wrong, or that asks for help, ends the
reading.
-/

import BehaviourScript.Assoc
import BehaviourScript.Item

namespace BehaviourScript

/-- What the tool can be asked to do. -/
inductive Action where
  | compile (file : String) (output symbols : Option String)
  | decompile (file : String) (kind : ItemKind) (name output symbols : Option String)
  | check (paths : List String) (symbols : Option String)
  | format (file : String) (checkOnly : Bool)
  | dumpTokens (file : String)
  | dumpTree (file : String)
  | version
  deriving DecidableEq

namespace CommandLine

/-- Why reading arguments ends before an action is known. -/
inductive Halt where
  | help | version | misuse
  deriving DecidableEq

/-- What stands behind a switch. -/
inductive Operand where
  | nothing | path | text | kind
  deriving DecidableEq

/-- Whether a text can stand behind a switch. -/
def Operand.accepts (value : String) : Operand → Bool
  | nothing => true
  | path => value != ""
  | text => true
  | kind => (ItemKind.ofText value).toOption.isSome

/-- A switch, by its long name and the letter that it may have. -/
structure Switch where
  long : String
  short : Option Char
  operand : Operand
  deriving DecidableEq

/-- What an action, or the tool itself, can be given. -/
structure Form where
  switches : List Switch
  /-- How many paths may be given; without a limit, any number. -/
  pathLimit : Option Nat
  /-- Whether the version can be asked for. -/
  hasVersion : Bool
  deriving DecidableEq

/-- What was given: the switches with their values, and the paths. -/
structure Given where
  values : List (String × String)
  paths : List String
  deriving DecidableEq

namespace Given

/-- Nothing. -/
def empty : Given := ⟨[], []⟩

/-- Whether a switch was given. -/
def has (given : Given) (long : String) : Bool := Assoc.contains long given.values

/-- The value of a switch. -/
def value? (given : Given) (long : String) : Option String := Assoc.get? long given.values

/-- Takes in a switch. It may be given once. -/
def addSwitch (given : Given) (switch : Switch) (value : String) : Except Halt Given :=
  if given.has switch.long ∨ !switch.operand.accepts value then .error .misuse
  else .ok { given with values := given.values ++ [(switch.long, value)] }

/-- Takes in a path. -/
def addPath (form : Form) (given : Given) (path : String) : Except Halt Given :=
  let full := form.pathLimit.any (· ≤ given.paths.length)
  if full ∨ path = "" then .error .misuse
  else .ok { given with paths := given.paths ++ [path] }

end Given

/-- What was given so far, and the switch that still needs its value. -/
abbrev Progress := Given × Option Switch

/-- Whether an argument is made of switches. -/
def isSwitch : List Char → Bool
  | '-' :: _ :: _ => true
  | _ => false

/-- Reads a switch by its long name. A value may stand behind an equals sign. -/
def longSwitch (form : Form) (given : Given) (text : List Char) : Except Halt Progress :=
  let name := String.ofList (text.takeWhile (· != '='))
  let value? := match text.dropWhile (· != '=') with
    | [] => none
    | _ :: value => some (String.ofList value)
  match form.switches.find? (·.long == name), value? with
  | none, none =>
    if name = "help" then .error .help
    else if name = "version" ∧ form.hasVersion then .error .version
    else .error .misuse
  | none, some _ => .error .misuse
  | some switch, none =>
    if switch.operand = .nothing then return (← given.addSwitch switch "", none)
    else .ok (given, some switch)
  | some switch, some value =>
    if switch.operand = .nothing then .error .misuse
    else return (← given.addSwitch switch value, none)

/-- Reads a row of switches by their letters. The rest behind a letter that
needs a value is the value, also behind an equals sign. -/
def shortSwitches (form : Form) (given : Given) : List Char → Except Halt Progress
  | [] => .ok (given, none)
  | letter :: rest =>
    match form.switches.find? (·.short == some letter) with
    | none =>
      if letter = 'h' then .error .help
      else if letter = 'V' ∧ form.hasVersion then .error .version
      else .error .misuse
    | some switch =>
      if switch.operand = .nothing then do
        let given ← given.addSwitch switch ""
        shortSwitches form given rest
      else
        match rest with
        | [] => .ok (given, some switch)
        | '=' :: value => return (← given.addSwitch switch (String.ofList value), none)
        | value => return (← given.addSwitch switch (String.ofList value), none)

/-- Reads an argument that is made of switches. -/
def readSwitches (form : Form) (given : Given) : List Char → Except Halt Progress
  | '-' :: '-' :: text => longSwitch form given text
  | '-' :: letters => shortSwitches form given letters
  | _ => .error .misuse

/-- Reads the arguments of an action. Behind two dashes all are paths. -/
def readArguments (form : Form) : Progress → List String → Except Halt Given
  | (given, none), [] => .ok given
  | (_, some _), [] => .error .misuse
  | (given, some switch), argument :: rest => do
    if isSwitch argument.toList then .error .misuse
    let given ← given.addSwitch switch argument
    readArguments form (given, none) rest
  | (given, none), argument :: rest =>
    if argument = "--" then rest.foldlM (Given.addPath form) given
    else if isSwitch argument.toList then do
      let progress ← readSwitches form given argument.toList
      readArguments form progress rest
    else do
      let given ← given.addPath form argument
      readArguments form (given, none) rest

/-! ### The actions -/

/-- The switch for a symbol file. -/
def symbolsSwitch : Switch := ⟨"symbols", some 's', .path⟩

/-- The switch for an output file. -/
def outputSwitch : Switch := ⟨"output", some 'o', .path⟩

/-- Reads an action's arguments and makes the action of them. -/
def action (switches : List Switch) (pathLimit : Option Nat) (arguments : List String)
    (make : Given → Option Action) : Except Halt Action := do
  let given ← readArguments ⟨switches, pathLimit, false⟩ (.empty, none) arguments
  match make given with
  | some action => return action
  | none => throw .misuse

/-- The compile action. -/
def compile? (given : Given) : Option Action := do
  return .compile (← given.paths.head?) (given.value? "output") (given.value? "symbols")

/-- The decompile action. The kind must be given. -/
def decompile? (given : Given) : Option Action := do
  let kind ← (ItemKind.ofText (← given.value? "kind")).toOption
  return .decompile (← given.paths.head?) kind (given.value? "name") (given.value? "output")
    (given.value? "symbols")

/-- The check action. There must be a path. -/
def check? (given : Given) : Option Action :=
  if given.paths.isEmpty then none else some (.check given.paths (given.value? "symbols"))

/-- The format action. -/
def format? (given : Given) : Option Action := do
  return .format (← given.paths.head?) (given.has "check")

/-- The dump actions. Just one must be asked for. -/
def dump? (given : Given) : Option Action := do
  let file ← given.paths.head?
  match given.has "tokens", given.has "ast" with
  | true, false => some (.dumpTokens file)
  | false, true => some (.dumpTree file)
  | _, _ => none

/-- The names of the actions. -/
def actionNames : List String :=
  ["compile", "decompile", "check", "fmt", "dump", "version", "help"]

/-- Reads what help is asked for: nothing, or one action. -/
def readHelp : List String → Halt
  | [] => .help
  | [name] => if actionNames.contains name then .help else .misuse
  | _ => .misuse

/-- Reads an action by its name and its arguments. -/
def readAction (name : String) (arguments : List String) : Except Halt Action :=
  match name with
  | "compile" => action [outputSwitch, symbolsSwitch] (some 1) arguments compile?
  | "decompile" =>
    action [⟨"kind", some 'k', .kind⟩, ⟨"name", some 'n', .text⟩, outputSwitch, symbolsSwitch]
      (some 1) arguments decompile?
  | "check" => action [symbolsSwitch] none arguments check?
  | "fmt" => action [⟨"check", some 'c', .nothing⟩] (some 1) arguments format?
  | "dump" =>
    action [⟨"tokens", none, .nothing⟩, ⟨"ast", none, .nothing⟩] (some 1) arguments dump?
  | "version" => action [] (some 0) arguments fun _ => some .version
  | "help" => .error (readHelp arguments)
  | _ => .error .misuse

/-- What can be given in front of an action. -/
def frontForm : Form := ⟨[⟨"verbose", some 'v', .nothing⟩], some 0, true⟩

/-- Reads what stands in front of an action, and the action. -/
def readFront (given : Given) : List String → Except Halt (Bool × Action)
  | [] => .error .misuse
  | argument :: rest =>
    if argument = "--" then .error .misuse
    else if isSwitch argument.toList then do
      let (given, _) ← readSwitches frontForm given argument.toList
      readFront given rest
    else do
      let action ← readAction argument rest
      return (given.has "verbose", action)

/-- Reads the arguments of a run: whether it is verbose, and the action. -/
def read (arguments : List String) : Except Halt (Bool × Action) := readFront .empty arguments

/-- How the tool is used. -/
def usage : String :=
  "Usage: " ++ Product.program ++ " [-v] <COMMAND>\n\nCommands:\n"
    ++ "  compile FILE [-o OUT] [-s SYMBOLS]\n"
    ++ "  decompile FILE -k KIND [-n NAME] [-o OUT] [-s SYMBOLS]\n"
    ++ "  check PATH... [-s SYMBOLS]\n"
    ++ "  fmt FILE [-c]\n"
    ++ "  dump FILE (--tokens | --ast)\n"
    ++ "  version\n"

end CommandLine

end BehaviourScript
