/-
This file says what the log tells of a run: the entries of each stage up to the
first that fails. They are a function of the same input as the run itself, so
the stages need no log of their own.
-/

import BehaviourScript.Compiler
import BehaviourScript.LogLevel

namespace BehaviourScript

/-- A message of the log. -/
structure LogEntry where
  level : LogLevel
  message : String
  deriving DecidableEq

/-- Messages of the log, the oldest first. -/
abbrev Journal := List LogEntry

namespace Journal

/-- The lines of the entries that are shown where `least` is the least level
shown. -/
def text (least : LogLevel) (journal : Journal) : String :=
  String.join ((journal.filter fun entry => least.shows entry.level).map fun entry =>
    entry.level.line entry.message)

/-- The entries that follow a stage: none if it failed. -/
def after {ε α : Type} (result : Except ε α) (next : α → Journal) : Journal :=
  match result with
  | .ok value => next value
  | .error _ => []

/-- What is told of reading tokens. -/
def tokenizing (source : String) (next : List Token → Journal) : Journal :=
  after (tokenize source) fun tokens =>
    ⟨.trace, "tokenized " ++ toString tokens.length ++ " tokens"⟩ :: next tokens

/-- What is told of parsing. -/
def parsing (tokens : List Token) (next : Script → Journal) : Journal :=
  after (parse tokens) fun script =>
    ⟨.trace, "parsed `" ++ script.name ++ "` with " ++ toString tokens.length ++ " tokens"⟩
      :: next script

/-- What is told of ordering and evaluating a const list. -/
def ordering (decls : List ConstDecl) (outer : Option Scope) (next : Scope → Journal) : Journal :=
  after (sortConsts decls outer) fun placed =>
    ⟨.trace, "const order: " ++ String.intercalate ", " (placed.map (·.1.name))⟩
      :: after (Scope.extend outer .empty placed) next

/-- What is told of ordering the const lists of a library's behaviours. -/
def orderingAll (root : Scope) (next : Journal) : List Behaviour → Journal
  | [] => next
  | behaviour :: rest =>
    ordering behaviour.consts (some root) fun _ => orderingAll root next rest

/-- What is told of an analysis. -/
def analysing (script : Script) (next : Script × SymbolTable → Journal) : Journal :=
  let finished := after (analyze script) fun result =>
    ⟨.debug, "analysis of `" ++ script.name ++ "` complete"⟩ :: next result
  match script with
  | .library library =>
    ordering library.consts none fun root => orderingAll root finished library.behaviours
  | .behaviour behaviour => ordering behaviour.consts none fun _ => finished
  | .sequence sequence => ordering sequence.consts none fun _ => finished

/-- What is told of emitting a binary. -/
def emitting (resolvers : CompileResolvers) (script : Script) (table : SymbolTable) : Journal :=
  ⟨.debug, "Starting emission..."⟩ :: after (emit resolvers table script) fun bytes =>
    [⟨.debug, "emitted " ++ toString bytes.length ++ " bytes for `" ++ script.name ++ "`"⟩,
      ⟨.debug, "Compilation successful, " ++ toString bytes.length ++ " bytes"⟩]

/-- What is told of reading source text. -/
def ofParsing (source : String) : Journal :=
  tokenizing source fun tokens => parsing tokens fun _ => []

/-- What is told of reading tokens alone. -/
def ofTokenizing (source : String) : Journal := tokenizing source fun _ => []

/-- What is told of a compilation. -/
def ofCompiling (resolvers : CompileResolvers) (source : String) : Journal :=
  ⟨.debug, "Checking source code (" ++ toString source.utf8ByteSize ++ " bytes)"⟩
    :: tokenizing source fun tokens =>
      ⟨.debug, "Tokenized into " ++ toString tokens.length ++ " tokens"⟩
        :: parsing tokens fun script =>
          ⟨.debug, "Parsed " ++ script.kind.text ++ " `" ++ script.name ++ "`"⟩
            :: analysing script fun (ordered, table) => emitting resolvers ordered table

/-- What is told of a behaviour whose records were read. -/
def records (name : String) (graph : Decode.GraphRecords) : LogEntry :=
  ⟨.trace, "`" ++ name ++ "`: " ++ toString graph.states.length ++ " states"⟩

/-- What is told of reading a number of a library's behaviours. -/
def ofEntries (resolvers : DecompileResolvers) : (count : Nat) → Reader → Journal
  | 0, _ => []
  | count + 1, reader =>
    let named : Decoder String := do
      let id ← Decoder.nat .u32
      let _ ← Decoder.nat .u32
      return (← Decoder.lift (Decode.entryName resolvers id)).1
    after (named reader) fun (name, start) =>
      after (Decode.graphRecords resolvers start) fun (graph, _) =>
        records name graph :: after (Decode.entry resolvers reader) fun (_, rest) =>
          ofEntries resolvers count rest

/-- What is told of reading the records of a script. -/
def ofRecords (resolvers : DecompileResolvers) (kind : ItemKind) (bytes : Bytes) (name : String) :
    Journal :=
  match kind with
  | .library =>
    let counts : Decoder Nat := do
      let count ← Decoder.nat .u16
      let _ ← Decoder.nat .u16
      return count
    after (counts (.ofBytes bytes)) fun (count, rest) => ofEntries resolvers count rest
  | .behaviour =>
    after (Decode.graphRecords resolvers (.ofBytes bytes)) fun (graph, _) => [records name graph]
  | .sequence => []

/-- What is told of decoding a binary. -/
def ofDecoding (kind : ItemKind) (bytes : Bytes) (name : String)
    (resolvers : DecompileResolvers) : Journal :=
  if isIdentifier name then
    ofRecords resolvers kind bytes name ++ after (decode kind bytes name resolvers) fun _ =>
      [⟨.debug, "decoded " ++ kind.text ++ " `" ++ name ++ "` from " ++ toString bytes.length
        ++ " bytes"⟩]
  else []

end Journal

end BehaviourScript
