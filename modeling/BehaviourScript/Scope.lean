/-
This file holds the consts that are in scope and evaluates expressions over
them. A script has the consts of its own list, and a library also those of each
behaviour. A library behaviour sees its own consts first and then the library's.
Arithmetic is exact and stays within 64 bits: a value outside them is an error,
never wrapped.
-/

import BehaviourScript.Assoc
import BehaviourScript.SemanticError

namespace BehaviourScript

/-- The narrowest store that holds a value, signed or not. -/
inductive Storage where
  | byte | short | word
  deriving DecidableEq

namespace Storage

/-- The store of a value; a value beyond 32 bits has none. -/
def of? (value : Int) : Option Storage :=
  if -128 ≤ value ∧ value < 256 then some byte
  else if -32768 ≤ value ∧ value < 65536 then some short
  else if -2147483648 ≤ value ∧ value < 4294967296 then some word
  else none

end Storage

/-- A const in scope: its value once it has one, the store that was found for the
value, the place of its declaration in the source's list, and the span of the
declaration. -/
structure Const where
  value : Option Int
  storage? : Option Storage
  declIndex : Nat
  span : Span
  deriving DecidableEq

/-- A const whose value is found. -/
def Const.of (value : Int) (declIndex : Nat) (span : Span) : Const :=
  ⟨some value, Storage.of? value, declIndex, span⟩

@[simp] theorem Const.value_of (value : Int) (declIndex : Nat) (span : Span) :
    (Const.of value declIndex span).value = some value := rfl

/-- The consts of one list, by name, in dependency order. -/
structure Scope where
  consts : List (String × Const)
  deriving DecidableEq

namespace Scope

/-- A scope without consts. -/
def empty : Scope := ⟨[]⟩

/-- Adds a const. One of the same name gives way and leaves its place. -/
def insert (scope : Scope) (name : String) (const : Const) : Scope :=
  ⟨Assoc.set name const scope.consts⟩

/-- The const of a name. -/
def get? (scope : Scope) (name : String) : Option Const := Assoc.get? name scope.consts

/-- Whether a name has a const. -/
def contains (scope : Scope) (name : String) : Bool := Assoc.contains name scope.consts

/-- How many consts there are. -/
def size (scope : Scope) : Nat := scope.consts.length

/-- Whether there are no consts. -/
def isEmpty (scope : Scope) : Bool := scope.consts.isEmpty

end Scope

/-- Where expressions look their consts up: a scope, and the one around it. -/
structure Env where
  inner : Scope
  outer : Option Scope
  deriving DecidableEq

namespace Env

/-- The const that a name means. The inner one hides the outer one. -/
def get? (env : Env) (name : String) : Option Const :=
  match env.inner.get? name with
  | some const => some const
  | none => env.outer.bind (·.get? name)

/-- The value that a name means. -/
def value? (env : Env) (name : String) : Option Int := (env.get? name).bind (·.value)

end Env

/-- Whether a value fits in 64 bits. -/
def isWord64 (value : Int) : Bool :=
  -9223372036854775808 ≤ value && value < 9223372036854775808

/-- Takes a value that fits in 64 bits; any other is an overflow of the node
at `span`. -/
def confine (span : Span) (value : Int) : Except SemanticError Int :=
  if isWord64 value then .ok value else .error (.arithmeticOverflow span.start)

namespace BinOp

/-- What an operator computes. -/
def apply : BinOp → Int → Int → Int
  | add, left, right => left + right
  | sub, left, right => left - right

end BinOp

namespace Env

/-- The value of an expression. -/
def eval (env : Env) : Expr → Except SemanticError Int
  | .number value span => confine span value
  | .const name span =>
    match env.value? name with
    | some value => confine span value
    | none => .error (.undefinedConst name span.start)
  | .neg operand span => do
    let value ← env.eval operand
    confine span (-value)
  | .binary op left right span => do
    let first ← env.eval left
    let second ← env.eval right
    confine span (op.apply first second)

end Env

/-- The scopes of a script. Those of a library's behaviours go by the
behaviour's name. -/
structure SymbolTable where
  root : Scope
  children : List (String × Scope)
  deriving DecidableEq

namespace SymbolTable

/-- A table of one scope. -/
def ofScope (root : Scope) : SymbolTable := ⟨root, []⟩

/-- Adds the scope of a behaviour. The last of several of one name counts. -/
def addChild (table : SymbolTable) (behaviour : String) (scope : Scope) : SymbolTable :=
  { table with children := Assoc.set behaviour scope table.children }

/-- The scope of a behaviour. -/
def child? (table : SymbolTable) (behaviour : String) : Option Scope :=
  Assoc.get? behaviour table.children

/-- What expressions see at the top of a script. -/
def rootEnv (table : SymbolTable) : Env := ⟨table.root, none⟩

/-- What expressions see in a behaviour of a library; the top of the script if
the behaviour has no scope of its own. -/
def behaviourEnv (table : SymbolTable) (behaviour : String) : Env :=
  match table.child? behaviour with
  | some scope => ⟨scope, some table.root⟩
  | none => table.rootEnv

end SymbolTable

end BehaviourScript
