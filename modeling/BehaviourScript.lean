import BehaviourScript.Span
import BehaviourScript.Token
import BehaviourScript.Token.Lexer
import BehaviourScript.Catalogue
import BehaviourScript.Script
import BehaviourScript.Script.Printer
import BehaviourScript.Parser.Cursor
import BehaviourScript.Parser.Expr
import BehaviourScript.Parser.Script
import BehaviourScript.Assoc
import BehaviourScript.Bytes
import BehaviourScript.Bytes.Buffer
import BehaviourScript.Layout
import BehaviourScript.Quantity
import BehaviourScript.Scope
import BehaviourScript.Scope.Order
import BehaviourScript.FormatError
import BehaviourScript.SemanticError
import BehaviourScript.Analysis.Validation
import BehaviourScript.Analysis
import BehaviourScript.SymbolMap
import BehaviourScript.Resolver
import BehaviourScript.Error
import BehaviourScript.Item
import BehaviourScript.Binary.Encode
import BehaviourScript.Binary.Decoder
import BehaviourScript.Binary.Decode
import BehaviourScript.Compiler
import BehaviourScript.Json
import BehaviourScript.Dump
import BehaviourScript.Toml.Number
import BehaviourScript.Toml.Quoted
import BehaviourScript.Toml
import BehaviourScript.LogLevel
import BehaviourScript.Path
import BehaviourScript.Host
import BehaviourScript.Disk
import BehaviourScript.Config
import BehaviourScript.Host.Memory
import BehaviourScript.Journal
import BehaviourScript.Sources
import BehaviourScript.CommandLine
import BehaviourScript.Tool
import BehaviourScript.Main
import BehaviourScript.Proofs.Integers
import BehaviourScript.Proofs.BitFields
import BehaviourScript.Proofs.Names
import BehaviourScript.Proofs.Spelling
import BehaviourScript.Proofs.Lexemes
import BehaviourScript.Proofs.Grammar
import BehaviourScript.Proofs.Reading
import BehaviourScript.Proofs.Parsing.Expr
import BehaviourScript.Proofs.Parsing.Script
import BehaviourScript.Proofs.Printed.Expr
import BehaviourScript.Proofs.Printed.Kinds
import BehaviourScript.Proofs.Derivation.Parsed
import BehaviourScript.Proofs.Printed.Text
import BehaviourScript.Proofs.Printed.Faithful
import BehaviourScript.Proofs.Printed.Places
import BehaviourScript.Proofs.Alike
import BehaviourScript.Proofs.Likeness.Form
import BehaviourScript.Proofs.Likeness.Consts
import BehaviourScript.Proofs.Likeness.Checks
import BehaviourScript.Proofs.Likeness.Emission
import BehaviourScript.Proofs.Likeness.Scripts
import BehaviourScript.Proofs.Unplaced
import BehaviourScript.Proofs.Formatting
import BehaviourScript.Proofs.Height
import BehaviourScript.Proofs.Binary.Reads
import BehaviourScript.Proofs.Binary.Format
import BehaviourScript.Proofs.Binary.Decoding
import BehaviourScript.Proofs.Binary.Scripts
import BehaviourScript.Proofs.Binary.Truncation
import BehaviourScript.Proofs.Checks
import BehaviourScript.Proofs.Canonical.Emitted
import BehaviourScript.Proofs.Canonical.Attributes
import BehaviourScript.Proofs.Canonical.Graphs
import BehaviourScript.Proofs.Canonical.Scripts
import BehaviourScript.Proofs.Limits.Scripts
import BehaviourScript.Proofs.Compilation
import BehaviourScript.Proofs.Unchecked
import BehaviourScript.Proofs.Restored.Attributes
import BehaviourScript.Proofs.SymbolMaps
import BehaviourScript.Proofs.ReferenceNames
import BehaviourScript.Proofs.Resolvers
import BehaviourScript.Proofs.Restored.Graphs
import BehaviourScript.Proofs.Restored.Scripts
import BehaviourScript.Proofs.Decompilation
import BehaviourScript.Proofs.HostNames
import BehaviourScript.Proofs.Consts.Order
import BehaviourScript.Proofs.Consts.Least
import BehaviourScript.Proofs.Consts.Solution
import BehaviourScript.Proofs.Consts.Reordered
import BehaviourScript.Proofs.Consts.Inherited
import BehaviourScript.Proofs.Libraries
import BehaviourScript.Proofs.Evaluation
import BehaviourScript.Proofs.Consts.Equations
import BehaviourScript.Proofs.Undefined
import BehaviourScript.Proofs.Reanalysed
import BehaviourScript.Proofs.Respelled
import BehaviourScript.Proofs.Recompiled
import BehaviourScript.Proofs.Rearranged
import BehaviourScript.Proofs.Renamed
import BehaviourScript.Proofs.NumericNames
import BehaviourScript.Proofs.Relabelled
import BehaviourScript.Proofs.Tiling
import BehaviourScript.Proofs.Runs.Form
import BehaviourScript.Proofs.Runs.Readers
import BehaviourScript.Proofs.Spans.Outline
import BehaviourScript.Proofs.Spans.Readers
import BehaviourScript.Proofs.Overflow
import BehaviourScript.Proofs.Binary.Sessions
import BehaviourScript.Proofs.Binary.Headers
import BehaviourScript.Proofs.CatalogueNames
