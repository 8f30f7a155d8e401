/-
This file runs the tool on a system: it reads the arguments and the settings,
does what it is asked for, and ends with an exit code.
-/

import BehaviourScript.CommandLine
import BehaviourScript.Config
import BehaviourScript.Dump
import BehaviourScript.Sources

namespace BehaviourScript

/-- Why a run fails. -/
inductive ToolError where
  | config (error : ConfigError)
  | logLevel (message : String)
  | symbols (path : String) (error : ConfigError)
  | unreadable (path : String) (error : FileError)
  | unwritable (path : String) (error : FileError)
  | compile (path : String) (error : Error)
  | nameless (path : String)
  | decompile (path : String) (error : Error)
  | sources (error : SourceError)
  | failedChecks (failed total : Nat)
  | format (path : String) (error : Error)
  | unformatted (path : String)
  | lex (path : String) (error : LexError)
  | parse (path : String) (error : ParseError)

namespace ToolError

/-- A number of files. -/
def files (count : Nat) : String :=
  toString count ++ if count = 1 then " file" else " files"

/-- The wording of an error. -/
def message : ToolError → String
  | config error => "Failed to load configuration: " ++ error.message
  | logLevel text => text
  | symbols path error => "Failed to load symbols from " ++ path ++ ": " ++ error.message
  | unreadable path error => "Failed to read file " ++ path ++ ": " ++ error.message
  | unwritable path error => "Failed to write " ++ path ++ ": " ++ error.message
  | compile path error => "Failed to compile: " ++ path ++ ": " ++ error.message
  | nameless path => "Cannot derive an item name from " ++ path
  | decompile path error => "Failed to decompile: " ++ path ++ ": " ++ error.message
  | sources error => error.message
  | failedChecks failed total => toString failed ++ " of " ++ files total ++ " failed"
  | format path error => "Failed to format: " ++ path ++ ": " ++ error.message
  | unformatted path => path ++ " is not formatted"
  | lex path error => "Failed to lex: " ++ path ++ ": " ++ error.message
  | parse path error => "Failed to parse: " ++ path ++ ": " ++ error.message

end ToolError

/-- A run of the tool: the system, the settings, and the least level of the
log. -/
structure Tool (m : Type → Type) where
  host : Host m
  config : Config
  level : LogLevel

namespace Tool

variable {m : Type → Type} [Monad m]

/-- What a run does, up to its first failure. -/
abbrev Run (m : Type → Type) := ExceptT ToolError m

/-- Goes on with a result, or fails. -/
def demand {ε α : Type} (wrap : ε → ToolError) : Except ε α → Run m α
  | .ok value => pure value
  | .error error => throw (wrap error)

/-- Asks the system for something. -/
def ask {α : Type} (step : m α) : Run m α := ExceptT.lift step

/-- Writes to the log. -/
def log (tool : Tool m) (journal : Journal) : Run m Unit :=
  ask (tool.host.printError (journal.text tool.level))

/-- Prints to the standard output. -/
def print (tool : Tool m) (text : String) : Run m Unit := ask (tool.host.print text)

/-- The line of a failure. -/
def failureLine (message : String) : String := "error: " ++ message ++ "\n"

/-- The symbols at a path, or else at the one among the settings. Without
either there are none. -/
def loadSymbols (tool : Tool m) (path? : Option String) : Run m ResolverSet := do
  match path? <|> tool.config.symbolsPath with
  | some path => demand (.symbols path) (← ask (Config.loadSymbols tool.host path))
  | none => return {}

/-- The text of a file. -/
def readSource (tool : Tool m) (file : String) : Run m String := do
  demand (.unreadable file) (← ask (tool.host.readText file))

/-- Compiles a file into another. -/
def compile (tool : Tool m) (file : String) (output? symbols? : Option String) :
    Run m Unit := do
  let symbols ← tool.loadSymbols symbols?
  let source ← tool.readSource file
  tool.log (Journal.ofCompiling symbols.compileResolvers source)
  let script ← demand (.compile file) (BehaviourScript.compile symbols.compileResolvers source)
  let output := output?.getD (Path.withExtension file "bin")
  demand (.unwritable output) (← ask (tool.host.write output script.bytes))
  tool.log [⟨.info, script.kind.text ++ " `" ++ script.name ++ "` -> " ++ output ++ " ("
    ++ toString script.bytes.length ++ " bytes)"⟩]

/-- Decompiles a file into another, or prints it. -/
def decompile (tool : Tool m) (file : String) (kind : ItemKind)
    (name? output? symbols? : Option String) : Run m Unit := do
  let symbols ← tool.loadSymbols symbols?
  let bytes ← demand (.unreadable file) (← ask (tool.host.read file))
  let name ← match name? <|> Path.fileStem? file with
    | some name => pure name
    | none => throw (.nameless file)
  tool.log (Journal.ofDecoding kind bytes name symbols.decompileResolvers)
  let text ← demand (.decompile file)
    (BehaviourScript.decompile kind bytes name symbols.decompileResolvers
      tool.config.printOptions)
  match output? with
  | some output => demand (.unwritable output) (← ask (tool.host.writeText output text))
  | none => tool.print text

/-- Compiles all source files of paths and tells which fail. -/
def check (tool : Tool m) (paths : List String) (symbols? : Option String) : Run m Unit := do
  let symbols ← tool.loadSymbols symbols?
  let (collected, journal) ← ask (Sources.collect tool.host paths)
  tool.log journal
  let files ← demand .sources collected
  if files.isEmpty then
    ask (tool.host.printError ("No ." ++ Product.sourceExtension
      ++ " source files found in the specified paths\n"))
  else
    let (outcomes, journal) ← ask (Sources.check tool.host symbols.compileResolvers files)
    tool.log journal
    let failures := outcomes.filterMap fun outcome =>
      match outcome.result with
      | .ok _ => none
      | .error error => some (failureLine error.message)
    ask (tool.host.printError (String.join failures))
    if failures.isEmpty then
      tool.print ("✓ All checks passed (" ++ ToolError.files files.length ++ ")\n")
    else throw (.failedChecks failures.length files.length)

/-- Brings a file into its canonical layout, or tells whether it has it. -/
def format (tool : Tool m) (file : String) (checkOnly : Bool) : Run m Unit := do
  let source ← tool.readSource file
  tool.log (Journal.ofParsing source)
  let formatted ← demand (.format file) (formatSource source tool.config.printOptions)
  if checkOnly then
    if formatted = source then tool.print ("✓ " ++ file ++ " is formatted\n")
    else throw (.unformatted file)
  else if formatted ≠ source then
    demand (.unwritable file) (← ask (tool.host.writeText file formatted))
    tool.log [⟨.info, "formatted " ++ file⟩]

/-- Prints the tokens of a file. -/
def dumpTokens (tool : Tool m) (file : String) : Run m Unit := do
  let source ← tool.readSource file
  tool.log (Journal.ofTokenizing source)
  let tokens ← demand (.lex file) (tokenize source)
  tool.print ((Json.list (tokens.map Token.toJson)).pretty ++ "\n")

/-- Prints the tree of a file. -/
def dumpTree (tool : Tool m) (file : String) : Run m Unit := do
  let source ← tool.readSource file
  tool.log (Journal.ofParsing source)
  let tokens ← demand (.lex file) (tokenize source)
  let script ← demand (.parse file) (parse tokens)
  tool.print (script.toJson.pretty ++ "\n")

/-- Does what is asked for. -/
def perform (tool : Tool m) : Action → Run m Unit
  | .compile file output symbols => tool.compile file output symbols
  | .decompile file kind name output symbols => tool.decompile file kind name output symbols
  | .check paths symbols => tool.check paths symbols
  | .format file checkOnly => tool.format file checkOnly
  | .dumpTokens file => tool.dumpTokens file
  | .dumpTree file => tool.dumpTree file
  | .version => tool.print (Product.name ++ " " ++ Product.version ++ "\n")

/-- What a verbose run tells first. -/
def greeting : Journal :=
  [⟨.debug, Product.name ++ " version: " ++ Product.version⟩, ⟨.debug, "Host: linux"⟩]

/-- Reads the settings and does what is asked for. -/
def start (host : Host m) (verbose : Bool) (action : Action) : Run m Unit := do
  let config ← demand .config (← ask (Config.load host "."))
  let level ← if verbose then pure .debug else demand .logLevel (LogLevel.ofText config.logLevel)
  let tool : Tool m := ⟨host, config, level⟩
  if verbose then tool.log greeting
  tool.perform action

/-- Runs the tool with arguments; the answer is its exit code. -/
def run (host : Host m) (arguments : List String) : m Nat := do
  match CommandLine.read arguments with
  | .error .help =>
    host.print CommandLine.usage
    return 0
  | .error .version =>
    host.print (Product.program ++ " " ++ Product.version ++ "\n")
    return 0
  | .error .misuse =>
    host.printError CommandLine.usage
    return 2
  | .ok (verbose, action) =>
    match ← (start host verbose action).run with
    | .ok () => return 0
    | .error error =>
      host.printError (failureLine error.message)
      return 1

end Tool

end BehaviourScript
