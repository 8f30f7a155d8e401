/-
This file compares scopes by what they say of names. A name has a value, is
declared without one, or is not declared; places and the order of declarations
do not count.
-/

import BehaviourScript.Scope
import Mathlib.Data.Option.Basic

namespace BehaviourScript

/-- What a scope says of a name: nothing, or the const's value. -/
def Scope.values (scope : Scope) (name : String) : Option (Option Int) :=
  (scope.get? name).map Const.value

/-- Two scopes give the same names the same values. -/
def Scope.Same (first second : Scope) : Prop := ∀ name, first.values name = second.values name

/-- The same of scopes that may be missing. -/
def SameOuter (first second : Option Scope) : Prop :=
  ∀ name, first.bind (·.values name) = second.bind (·.values name)

/-- Two environments give the same names the same values. -/
def Env.Same (first second : Env) : Prop := ∀ name, first.value? name = second.value? name

/-- Two tables give the same names the same values, at the top and in each behaviour. -/
structure SymbolTable.Same (first second : SymbolTable) : Prop where
  root : first.root.Same second.root
  children : ∀ name, Option.Rel Scope.Same (first.child? name) (second.child? name)

theorem Env.value?_eq (env : Env) (name : String) :
    env.value? name =
      ((env.inner.values name).or (env.outer.bind (·.values name))).bind id := by
  unfold value? get? Scope.values
  cases env.inner.get? name with
  | some const => rfl
  | none =>
    cases env.outer with
    | none => rfl
    | some scope =>
      show (scope.get? name).bind Const.value = ((scope.get? name).map Const.value).bind id
      cases scope.get? name <;> rfl

theorem Env.same {first second : Env} (inner : first.inner.Same second.inner)
    (outer : SameOuter first.outer second.outer) : first.Same second := by
  intro name
  rw [value?_eq, value?_eq, inner name, outer name]

theorem Scope.values_insert_self (scope : Scope) (name : String) (const : Const) :
    (scope.insert name const).values name = some const.value :=
  congrArg (Option.map Const.value) (Assoc.get?_set_self name const scope.consts)

theorem Scope.values_insert_other (scope : Scope) {name other : String} (different : other ≠ name)
    (const : Const) : (scope.insert name const).values other = scope.values other :=
  congrArg (Option.map Const.value) (Assoc.get?_set_other different const scope.consts)

theorem contains_eq_values (scope : Scope) (name : String) :
    scope.contains name = (scope.values name).isSome :=
  Option.isSome_map.symm

theorem any_contains_eq (outer : Option Scope) (name : String) :
    outer.any (·.contains name) = (outer.bind (·.values name)).isSome := by
  cases outer with
  | none => rfl
  | some scope => exact contains_eq_values scope name

theorem SameOuter.any_contains {first second : Option Scope} (same : SameOuter first second)
    (name : String) :
    first.any (·.contains name) = second.any (·.contains name) := by
  rw [any_contains_eq, any_contains_eq, same name]

end BehaviourScript
