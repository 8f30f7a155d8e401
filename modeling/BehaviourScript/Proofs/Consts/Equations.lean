/-
This file reads the const lists of a script as equations. In the table of an
analysed script every const has the exact value of its expression, where the
names in it mean what they mean once all consts are there. The values are
computed one by one, while later consts are missing and would be looked up in
the library instead. That never happens: whatever a declaration names in its own
list has been computed before it. So the computation stops only if a number
grows out of bounds.
-/

import BehaviourScript.Proofs.Evaluation
import BehaviourScript.Proofs.Libraries

namespace BehaviourScript

open Outcome

/-! ### Declarations in order -/

/-- A declaration in the middle of an ordered row names nothing from there on. -/
theorem InOrder.free_of_split {before after : List ConstDecl} {decl : ConstDecl}
    (ordered : InOrder (before ++ decl :: after)) :
    ∀ other ∈ decl :: after, ¬decl.Names other.name := by
  induction before with
  | nil =>
    cases ordered with
    | cons free _ => exact free
  | cons first rest inductionHypothesis =>
    cases ordered with
    | cons _ behind => exact inductionHypothesis behind

/-- What a declaration names in its own list has been placed before it. -/
theorem mem_before_of_names {decls : List ConstDecl} {outer : Option Scope}
    {before after : List Placed} {entry : Placed}
    (sorted : sortConsts decls outer = .ok (before ++ entry :: after)) {name : String}
    (declared : name ∈ decls.map ConstDecl.name) (names : entry.1.Names name) :
    ∃ other ∈ before, other.1.name = name := by
  obtain ⟨same, ordered⟩ := sortConsts_keeps sorted
  rw [List.map_append, List.map_cons] at same ordered
  obtain ⟨decl, inDecls, rfl⟩ := List.mem_map.mp declared
  rcases List.mem_append.mp (same.mem_iff.mpr inDecls) with earlier | later
  · obtain ⟨other, inBefore, rfl⟩ := List.mem_map.mp earlier
    exact ⟨other, inBefore, rfl⟩
  · exact absurd names (ordered.free_of_split decl later)

namespace Scope

variable {outer : Option Scope} {scope final : Scope} {placed : List Placed}

/-! ### The values computed so far -/

/-- Every declaration that has been evaluated has a value. -/
theorem extend_values (extended : extend outer scope placed = .ok final) :
    ∀ entry ∈ placed, ∃ value, final.values entry.1.name = some (some value) := by
  induction placed generalizing scope with
  | nil => exact List.forall_mem_nil _
  | cons entry rest inductionHypothesis =>
    obtain ⟨value, _, others⟩ := extend_cons_eq_ok.mp extended
    have behind := inductionHypothesis others
    refine List.forall_mem_cons.mpr ⟨?_, behind⟩
    by_cases again : entry.1.name ∈ rest.map fun other => other.1.name
    · obtain ⟨other, inRest, same⟩ := List.mem_map.mp again
      exact same ▸ behind other inRest
    · exact ⟨value, by rw [extend_frame others again, values_insert_self, Const.value_of]⟩

/-- No const of a scope is without a value. -/
def Evaluated (scope : Scope) : Prop := ∀ name, scope.values name ≠ some none

theorem Evaluated.insert (evaluated : scope.Evaluated) (name : String) (value : Int)
    (declIndex : Nat) (span : Span) :
    (scope.insert name (.of value declIndex span)).Evaluated := by
  intro other
  by_cases same : other = name
  · rw [same, values_insert_self]
    exact fun none => by cases none
  · rw [values_insert_other _ same]
    exact evaluated other

/-- What every const with a value keeps true of a scope, an evaluation keeps true. -/
theorem extend_keeps {good : Scope → Prop}
    (step : ∀ {scope : Scope}, good scope → ∀ name value declIndex span,
      good (scope.insert name (.of value declIndex span)))
    (before : good scope) (extended : extend outer scope placed = .ok final) : good final := by
  induction placed generalizing scope with
  | nil =>
    cases extended
    exact before
  | cons entry rest inductionHypothesis =>
    obtain ⟨value, _, others⟩ := extend_cons_eq_ok.mp extended
    exact inductionHypothesis (step before entry.1.name value entry.2 entry.1.span) others

theorem extend_evaluated (evaluated : scope.Evaluated)
    (extended : extend outer scope placed = .ok final) : final.Evaluated :=
  extend_keeps Evaluated.insert evaluated extended

theorem evaluated_empty : Scope.empty.Evaluated := fun _ none => by cases none

/-- Every const of a scope has the store of its value. -/
def Typed (scope : Scope) : Prop :=
  ∀ name const, scope.get? name = some const → const.storage? = const.value.bind Storage.of?

theorem Typed.insert (typed : scope.Typed) (name : String) (value : Int) (declIndex : Nat)
    (span : Span) : (scope.insert name (.of value declIndex span)).Typed := by
  intro other const found
  unfold get? Scope.insert at found
  by_cases same : other = name
  · rw [same, Assoc.get?_set_self] at found
    cases found
    rfl
  · rw [Assoc.get?_set_other same] at found
    exact typed other const found

/-- The consts of a built scope have the stores of their values. -/
theorem buildScope_typed {decls ordered : List ConstDecl} {scope : Scope}
    (built : buildScope decls outer = .ok (ordered, scope)) : scope.Typed := by
  obtain ⟨_, _, extended, _⟩ := buildScope_eq_ok.mp built
  exact extend_keeps Typed.insert (fun _ _ none => by cases none) extended

/-- An evaluation that fails has come to a declaration whose expression has no value. -/
theorem extend_eq_error {error : SemanticError}
    (failed : extend outer scope placed = .error error) :
    ∃ before entry after reached, placed = before ++ entry :: after ∧
      extend outer scope before = .ok reached ∧
      Env.eval ⟨reached, outer⟩ entry.1.value = .error error := by
  induction placed generalizing scope with
  | nil => cases failed
  | cons entry rest inductionHypothesis =>
    rcases bind_eq_error.mp failed with stuck | ⟨value, evaluated, others⟩
    · exact ⟨[], entry, rest, scope, rfl, rfl, stuck⟩
    · obtain ⟨before, next, after, reached, rfl, run, stuck⟩ := inductionHypothesis others
      exact ⟨entry :: before, next, after, reached, rfl,
        extend_cons_eq_ok.mpr ⟨value, evaluated, run⟩, stuck⟩

end Scope

/-- A name with a value in one of two scopes has one in both together, if neither holds a const
without a value. -/
theorem Env.value?_ne_none {inner : Scope} {outer : Option Scope} {name : String}
    (innerEvaluated : inner.Evaluated) (outerEvaluated : ∀ scope ∈ outer, scope.Evaluated)
    (found : inner.contains name = true ∨ outer.any (·.contains name) = true) :
    Env.value? ⟨inner, outer⟩ name ≠ none := by
  rw [contains_eq_values, any_contains_eq] at found
  rw [value?_eq]
  dsimp only
  cases here : inner.values name with
  | some value =>
    cases value with
    | some value => exact Option.some_ne_none value
    | none => exact absurd here (innerEvaluated name)
  | none =>
    rw [here] at found
    cases outer with
    | none => exact absurd found (by simp)
    | some scope =>
      cases there : scope.values name with
      | none => exact absurd found (by simp [there])
      | some value =>
        cases value with
        | some value => simp [there]
        | none => exact absurd there (outerEvaluated scope rfl name)

section Sorted

variable {decls : List ConstDecl} {outer : Option Scope} {before after : List Placed}
  {entry : Placed} (sorted : sortConsts decls outer = .ok (before ++ entry :: after))
  {reached : Scope} (run : Scope.extend outer .empty before = .ok reached)

include sorted run

/-- When a declaration is evaluated, what it names in its own list has a value already. -/
theorem reached_contains {name : String} (declared : name ∈ decls.map ConstDecl.name)
    (names : entry.1.Names name) : reached.contains name = true := by
  obtain ⟨other, inBefore, rfl⟩ := mem_before_of_names sorted declared names
  obtain ⟨value, found⟩ := Scope.extend_values run other inBefore
  rw [contains_eq_values, found]
  rfl

/-- When a declaration is evaluated, everything it names has a value. -/
theorem reached_value?_ne_none (evaluated : ∀ scope ∈ outer, scope.Evaluated) {name : String}
    (names : entry.1.Names name) : Env.value? ⟨reached, outer⟩ name ≠ none := by
  have sortable := exists_sortConsts_iff.mp ⟨_, sorted⟩
  have member : entry.1 ∈ decls := (sortConsts_keeps sorted).1.mem_iff.mp
    (List.mem_map_of_mem (List.mem_append_right _ List.mem_cons_self))
  refine Env.value?_ne_none (Scope.extend_evaluated Scope.evaluated_empty run) evaluated ?_
  refine (ConstOrder.isDeclared_iff.mp (sortable.declared entry.1 member name names)).imp_left ?_
  exact fun declared => reached_contains sorted run declared names

end Sorted

/-- The evaluation of a sorted list fails only with an overflow. -/
theorem extend_overflows {decls : List ConstDecl} {outer : Option Scope} {placed : List Placed}
    (sorted : sortConsts decls outer = .ok placed)
    (evaluated : ∀ scope ∈ outer, scope.Evaluated) {error : SemanticError}
    (failed : Scope.extend outer .empty placed = .error error) :
    ∃ position, error = .arithmeticOverflow position := by
  obtain ⟨before, entry, after, reached, rfl, run, stuck⟩ := Scope.extend_eq_error failed
  refine (Env.eval_eq_error stuck).resolve_right ?_
  rintro ⟨reference, used, missing, _⟩
  exact reached_value?_ne_none sorted run evaluated (List.mem_map_of_mem used) missing

theorem buildScope_evaluated {decls ordered : List ConstDecl} {outer : Option Scope}
    {scope : Scope} (built : buildScope decls outer = .ok (ordered, scope)) : scope.Evaluated := by
  obtain ⟨_, _, extended, _⟩ := buildScope_eq_ok.mp built
  exact Scope.extend_evaluated Scope.evaluated_empty extended

/-! ### The scopes of a script -/

/-- Every const of a list has the exact value that its expression has in the finished scope, and
the names of the list mean these consts. -/
structure Scope.Satisfies (outer : Option Scope) (scope : Scope) (decls : List ConstDecl) :
    Prop where
  equation : ∀ decl ∈ decls, ∃ value, scope.values decl.name = some (some value) ∧
    decl.value.unbounded? (Env.value? ⟨scope, outer⟩) = some value
  own : ∀ decl ∈ decls, scope.values decl.name = some (Env.value? ⟨scope, outer⟩ decl.name)

/-- The scopes of a script satisfy its const lists. A behaviour of a library has a scope of its
own, with the library's around it. -/
def SymbolTable.Satisfies (table : SymbolTable) : Script → Prop
  | .library content =>
    Scope.Satisfies none table.root content.consts ∧ ∀ behaviour ∈ content.behaviours,
      ∃ scope, table.behaviourEnv behaviour.name = ⟨scope, some table.root⟩ ∧
        Scope.Satisfies (some table.root) scope behaviour.consts
  | .behaviour content => Scope.Satisfies none table.root content.consts
  | .sequence content => Scope.Satisfies none table.root content.consts

theorem buildScope_satisfies {decls ordered : List ConstDecl} {outer : Option Scope}
    {scope : Scope} (built : buildScope decls outer = .ok (ordered, scope)) :
    Scope.Satisfies outer scope decls := by
  obtain ⟨_, _, solves⟩ := buildScope_solves built
  refine ⟨fun decl member => ?_, fun decl member => ?_⟩
  · obtain ⟨value, found, evaluated⟩ := solves.settles decl member
    exact ⟨value, found, Env.unbounded?_of_eval evaluated⟩
  · obtain ⟨value, found, _⟩ := solves.settles decl member
    rw [found, Env.value?_of_values found]

theorem analyze_satisfies {script ordered : Script} {table : SymbolTable}
    (analysed : analyze script = .ok (ordered, table)) : table.Satisfies script := by
  cases script with
  | library content =>
    obtain ⟨_, behaviours, _, outer, settled, _⟩ := analyze_library analysed
    refine ⟨buildScope_satisfies outer, fun behaviour member => ?_⟩
    obtain ⟨_, _, _, scope, built, _, sees⟩ := exists_mem_of_forall₂ settled behaviour member
    exact ⟨scope, sees, buildScope_satisfies built⟩
  | behaviour content =>
    cases buildTable_eq_ok.mp (analyze_eq_ok.mp analysed).1 with
    | behaviour built => exact buildScope_satisfies built
  | sequence content =>
    cases buildTable_eq_ok.mp (analyze_eq_ok.mp analysed).1 with
    | sequence built => exact buildScope_satisfies built

/-- The scopes of an analysed script satisfy its const lists. While a sorted list is evaluated, a
declaration finds what it names in its own list in the scope reached so far, so it never takes a
value from the scope around; and the evaluation fails only with an overflow, if no const of the
scope around is without a value, as is so in every scope that is built. -/
theorem scopes_satisfy_equations :
    (∀ script ordered table, analyze script = .ok (ordered, table) → table.Satisfies script) ∧
    (∀ decls outer placed, sortConsts decls outer = .ok placed →
      (∀ before entry after reached, placed = before ++ entry :: after →
        Scope.extend outer .empty before = .ok reached →
        ∀ name ∈ decls.map ConstDecl.name, entry.1.Names name → reached.contains name = true) ∧
      ((∀ scope ∈ outer, scope.Evaluated) → ∀ error,
        Scope.extend outer .empty placed = .error error →
          ∃ position, error = .arithmeticOverflow position)) ∧
    ∀ decls outer ordered scope, buildScope decls outer = .ok (ordered, scope) →
      scope.Evaluated := by
  refine ⟨fun _ _ _ => analyze_satisfies, fun decls outer placed sorted => ⟨?_, ?_⟩,
    fun _ _ _ _ => buildScope_evaluated⟩
  · rintro before entry after reached rfl run name declared names
    exact reached_contains sorted run declared names
  · exact fun evaluated _ failed => extend_overflows sorted evaluated failed

def quarryDeep : ConstDecl := ⟨"Deep", .literal 7, .dummy⟩

def pitDeep : ConstDecl := ⟨"Deep", .literal 2, .dummy⟩

def pitRamp : ConstDecl :=
  ⟨"Ramp", .binary .add (.const "Deep" .dummy) (.literal 1) .dummy, .dummy⟩

/-- A library with a behaviour that declares the library's const again, after using it. -/
def quarry : Script :=
  .library ⟨[], "Quarry", [quarryDeep], [⟨[], "Pit", [pitRamp, pitDeep], none, [], .dummy⟩],
    .dummy⟩

def quarrySorted : Script :=
  .library ⟨[], "Quarry", [quarryDeep], [⟨[], "Pit", [pitDeep, pitRamp], none, [], .dummy⟩],
    .dummy⟩

def quarryScope : Scope := ⟨[("Deep", .of 7 0 .dummy)]⟩

def quarryTable : SymbolTable :=
  ⟨quarryScope, [("Pit", ⟨[("Deep", .of 2 1 .dummy), ("Ramp", .of 3 0 .dummy)]⟩)]⟩

/-- The greatest number plus the const `Deep`. -/
def quarryAbyss : ConstDecl :=
  ⟨"Abyss", .binary .add (.literal 9223372036854775807) (.const "Deep" .dummy) .dummy, .dummy⟩

-- `Ramp` is 2 + 1, not 7 + 1.
theorem scopes_satisfy_equations_quarry :
    analyze quarry = .ok (quarrySorted, quarryTable) ∧ quarryTable.Satisfies quarry ∧
    sortConsts [quarryAbyss] (some quarryScope) = .ok [(quarryAbyss, 0)] ∧
    quarryScope.Evaluated ∧
    ∃ error, Scope.extend (some quarryScope) .empty [(quarryAbyss, 0)] = .error error ∧
      ∃ position, error = .arithmeticOverflow position := by
  obtain ⟨satisfies, evaluates, evaluated⟩ := scopes_satisfy_equations
  have analysed : analyze quarry = .ok (quarrySorted, quarryTable) := by decide +kernel
  have sorted : sortConsts [quarryAbyss] (some quarryScope) = .ok [(quarryAbyss, 0)] := by
    decide +kernel
  have outer : quarryScope.Evaluated :=
    evaluated [quarryDeep] none [quarryDeep] quarryScope (by decide +kernel)
  have failed : Scope.extend (some quarryScope) .empty [(quarryAbyss, 0)] =
      .error (.arithmeticOverflow Span.dummy.start) := by decide +kernel
  have around : ∀ scope ∈ some quarryScope, scope.Evaluated := by
    rintro _ ⟨⟩
    exact outer
  exact ⟨analysed, satisfies _ _ _ analysed, sorted, outer, _, failed,
    (evaluates _ _ _ sorted).2 around _ failed⟩

end BehaviourScript
