/-
This file analyses a script: it puts every const list into dependency order,
evaluates it, and checks the rest. The answer is the script with its lists in
order and the table of its consts.
-/

import BehaviourScript.Analysis.Validation
import BehaviourScript.Scope.Order

namespace BehaviourScript

/-- Orders and evaluates a const list. -/
def buildScope (decls : List ConstDecl) (outer : Option Scope) :
    Except SemanticError (List ConstDecl × Scope) := do
  let placed ← sortConsts decls outer
  let scope ← Scope.extend outer .empty placed
  return (placed.map Prod.fst, scope)

/-- Orders and evaluates the const lists of a library's behaviours. -/
def buildChildren (table : SymbolTable) :
    List Behaviour → Except SemanticError (List Behaviour × SymbolTable)
  | [] => .ok ([], table)
  | behaviour :: rest => do
    let (consts, scope) ← buildScope behaviour.consts (some table.root)
    let (others, final) ← buildChildren (table.addChild behaviour.name scope) rest
    return ({ behaviour with consts := consts } :: others, final)

/-- Orders and evaluates every const list of a script. -/
def buildTable : Script → Except SemanticError (Script × SymbolTable)
  | .library library => do
    let (consts, scope) ← buildScope library.consts none
    let (behaviours, table) ← buildChildren (.ofScope scope) library.behaviours
    return (.library { library with consts := consts, behaviours := behaviours }, table)
  | .behaviour behaviour => do
    let (consts, scope) ← buildScope behaviour.consts none
    return (.behaviour { behaviour with consts := consts }, .ofScope scope)
  | .sequence sequence => do
    let (consts, scope) ← buildScope sequence.consts none
    return (.sequence { sequence with consts := consts }, .ofScope scope)

/-- Analyses a script. -/
def analyze (script : Script) : Except SemanticError (Script × SymbolTable) := do
  let (ordered, table) ← buildTable script
  table.check ordered
  return (ordered, table)

end BehaviourScript
