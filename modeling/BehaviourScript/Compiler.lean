/-
This file joins the stages: from source text to a binary, from a binary to
source text, and from source text to the same text in its canonical layout.
-/

import BehaviourScript.Analysis
import BehaviourScript.Binary.Decode
import BehaviourScript.Parser.Script
import BehaviourScript.Script.Printer

namespace BehaviourScript

open Outcome

/-- Reads a script from its source text. -/
def parseSource (source : String) : Outcome Script := do
  let tokens ← ofLex (tokenize source)
  ofParse (parse tokens)

/-- Reads and analyses a script. -/
def checkSource (source : String) : Outcome (Script × SymbolTable) := do
  let script ← parseSource source
  ofSemantic (analyze script)

/-- What a compilation gives. -/
structure CompiledScript where
  kind : ItemKind
  name : String
  bytes : Bytes
  deriving DecidableEq

/-- Compiles source text. -/
def compile (resolvers : CompileResolvers) (source : String) : Outcome CompiledScript := do
  let (script, table) ← checkSource source
  let bytes ← emit resolvers table script
  return ⟨script.kind, script.name, bytes⟩

/-- Compiles source text to its binary. -/
def compileSource (resolvers : CompileResolvers) (source : String) : Outcome Bytes := do
  return (← compile resolvers source).bytes

/-- Decompiles a binary to source text. -/
def decompile (kind : ItemKind) (bytes : Bytes) (name : String) (resolvers : DecompileResolvers)
    (options : PrintOptions) : Outcome String := do
  return (← decode kind bytes name resolvers).print options

/-- Decompiles an item under the name that the host has for it. -/
def decompileItem (item : ScriptItem) (resolvers : DecompileResolvers) : Outcome String := do
  let name ← item.name resolvers
  decompile item.kind item.data name resolvers {}

/-- Prints source text in its canonical layout. Comments are dropped, and no
expression is evaluated. -/
def formatSource (source : String) (options : PrintOptions) : Outcome String := do
  return (← parseSource source).print options

end BehaviourScript
