/-
This file says what the evaluation of a const list comes to. The declarations of
a list are equations for the values of its names, and the scope that is built
from the list solves them all at once, although each value was computed when
only some of the others were there. In a list that is in order the solution is
unique and is always found, so a list can be built exactly if it can be sorted
and its equations have a solution.
-/

import BehaviourScript.Proofs.Consts.Order

namespace BehaviourScript

open Outcome

/-! ### Values that an expression sees -/

/-- Only the names in an expression matter for its value. -/
theorem Env.eval_congr {first second : Env} {expr : Expr}
    (same : ∀ name ∈ expr.references.map Prod.fst, first.value? name = second.value? name) :
    first.eval expr = second.eval expr := by
  induction expr with
  | number value span => rfl
  | const name span =>
    unfold Env.eval
    rw [same name List.mem_cons_self]
  | neg operand span inductionHypothesis =>
    show (first.eval operand >>= _) = (second.eval operand >>= _)
    rw [inductionHypothesis same]
  | binary op left right span leftHypothesis rightHypothesis =>
    have parts : (Expr.binary op left right span).references.map Prod.fst =
        left.references.map Prod.fst ++ right.references.map Prod.fst := List.map_append
    rw [parts, List.forall_mem_append] at same
    show (first.eval left >>= _) = (second.eval left >>= _)
    rw [leftHypothesis same.1, rightHypothesis same.2]

theorem Env.Same.eval_eq {first second : Env} (same : first.Same second) (expr : Expr) :
    first.eval expr = second.eval expr :=
  eval_congr fun name _ => same name

namespace Scope

/-- Two environments of one outer scope agree on a name if their inner scopes do. -/
theorem value?_eq_of_values {first second : Scope} {name : String}
    (same : first.values name = second.values name) (outer : Option Scope) :
    Env.value? ⟨first, outer⟩ name = Env.value? ⟨second, outer⟩ name := by
  rw [Env.value?_eq, Env.value?_eq, same]

/-! ### Solutions -/

/-- A scope gives a declaration the value that its expression has in this very scope. -/
def Settles (outer : Option Scope) (scope : Scope) (decl : ConstDecl) : Prop :=
  ∃ value, scope.values decl.name = some (some value) ∧
    Env.eval ⟨scope, outer⟩ decl.value = .ok value

/-- A scope solves the equations of a const list and has no other names. -/
structure Solves (outer : Option Scope) (scope : Scope) (decls : List ConstDecl) : Prop where
  settles : ∀ decl ∈ decls, Settles outer scope decl
  only : ∀ name, name ∉ decls.map ConstDecl.name → scope.values name = none

theorem Solves.perm {first second : List ConstDecl} {outer other : Option Scope} {scope : Scope}
    (solves : Solves outer scope first) (reordered : first.Perm second)
    (same : SameOuter outer other) : Solves other scope second where
  settles decl member := by
    obtain ⟨value, found, evaluated⟩ := solves.settles decl (reordered.mem_iff.mpr member)
    have equal : Env.Same ⟨scope, outer⟩ ⟨scope, other⟩ := Env.same (fun _ => rfl) same
    exact ⟨value, found, equal.eval_eq decl.value ▸ evaluated⟩
  only name absent := solves.only name fun member => absent ((reordered.map _).mem_iff.mp member)

/-! ### Evaluating a row of declarations -/

variable {outer : Option Scope}

theorem extend_cons_eq_ok {scope final : Scope} {entry : Placed} {rest : List Placed} :
    extend outer scope (entry :: rest) = .ok final ↔
      ∃ value, Env.eval ⟨scope, outer⟩ entry.1.value = .ok value ∧
        extend outer (scope.insert entry.1.name (.of value entry.2 entry.1.span)) rest =
          .ok final :=
  bind_eq_ok

/-- A name that a row does not declare keeps what it had. -/
theorem extend_frame {placed : List Placed} {scope final : Scope}
    (extended : extend outer scope placed = .ok final) {name : String}
    (absent : name ∉ placed.map fun entry => entry.1.name) :
    final.values name = scope.values name := by
  induction placed generalizing scope with
  | nil =>
    cases extended
    rfl
  | cons entry rest inductionHypothesis =>
    obtain ⟨value, _, others⟩ := extend_cons_eq_ok.mp extended
    rw [List.map_cons, List.mem_cons, not_or] at absent
    rw [inductionHypothesis others absent.2, values_insert_other _ absent.1]

/-- What the first declaration of an ordered row names is known before the row, so its value stays
the same when the row is evaluated. -/
theorem eval_eq_of_frame {placed : List Placed} {scope final : Scope} {entry : Placed}
    (free : ∀ other ∈ (entry :: placed).map Prod.fst, ¬entry.1.Names other.name)
    (frame : ∀ name, name ∉ (entry :: placed).map (fun other => other.1.name) →
      final.values name = scope.values name) :
    Env.eval ⟨final, outer⟩ entry.1.value = Env.eval ⟨scope, outer⟩ entry.1.value := by
  refine Env.eval_congr fun name named => value?_eq_of_values (frame name fun member => ?_) outer
  obtain ⟨other, inPlaced, rfl⟩ := List.mem_map.mp member
  exact free other.1 (List.mem_map_of_mem inPlaced) named

/-- A row in order is evaluated to a solution of all its equations. -/
theorem extend_settles {placed : List Placed} {scope final : Scope}
    (ordered : InOrder (placed.map Prod.fst))
    (distinct : (placed.map fun entry => entry.1.name).Nodup)
    (extended : extend outer scope placed = .ok final) :
    ∀ entry ∈ placed, Settles outer final entry.1 := by
  induction placed generalizing scope with
  | nil => exact nofun
  | cons entry rest inductionHypothesis =>
    obtain ⟨value, evaluated, others⟩ := extend_cons_eq_ok.mp extended
    rw [List.map_cons, List.nodup_cons] at distinct
    cases ordered with
    | cons free behind =>
      refine List.forall_mem_cons.mpr
        ⟨⟨value, ?_, ?_⟩, inductionHypothesis behind distinct.2 others⟩
      · rw [extend_frame others distinct.1, values_insert_self, Const.value_of]
      · rw [eval_eq_of_frame free fun _ => extend_frame extended, evaluated]

/-- A row in order finds every solution of its equations that agrees with what is there before. -/
theorem exists_extend {placed : List Placed} {scope solution : Scope}
    (ordered : InOrder (placed.map Prod.fst))
    (settles : ∀ entry ∈ placed, Settles outer solution entry.1)
    (agrees : ∀ name, name ∉ placed.map (fun entry => entry.1.name) →
      solution.values name = scope.values name) :
    ∃ final, extend outer scope placed = .ok final ∧ final.Same solution := by
  induction placed generalizing scope with
  | nil => exact ⟨scope, rfl, fun name => (agrees name List.not_mem_nil).symm⟩
  | cons entry rest inductionHypothesis =>
    rw [List.forall_mem_cons] at settles
    obtain ⟨value, found, evaluated⟩ := settles.1
    cases ordered with
    | cons free behind =>
      rw [eval_eq_of_frame free agrees] at evaluated
      have next (name : String) (absent : name ∉ rest.map fun other => other.1.name) :
          solution.values name =
            (scope.insert entry.1.name (.of value entry.2 entry.1.span)).values name := by
        by_cases same : name = entry.1.name
        · rw [same, values_insert_self, found, Const.value_of]
        · rw [values_insert_other _ same]
          refine agrees name ?_
          rw [List.map_cons, List.mem_cons, not_or]
          exact ⟨same, absent⟩
      obtain ⟨final, extended, equal⟩ := inductionHypothesis behind settles.2 next
      exact ⟨final, extend_cons_eq_ok.mpr ⟨value, evaluated, extended⟩, equal⟩

end Scope

/-! ### Building a scope -/

theorem buildScope_eq_ok {decls ordered : List ConstDecl} {outer : Option Scope} {scope : Scope} :
    buildScope decls outer = .ok (ordered, scope) ↔
      ∃ placed, sortConsts decls outer = .ok placed ∧
        Scope.extend outer .empty placed = .ok scope ∧ placed.map Prod.fst = ordered := by
  unfold buildScope
  simp only [bind_eq_ok, pure_eq_ok, Prod.mk.injEq]
  constructor
  · rintro ⟨placed, sorted, _, extended, same, rfl⟩
    exact ⟨placed, sorted, extended, same⟩
  · rintro ⟨placed, sorted, extended, same⟩
    exact ⟨placed, sorted, scope, extended, same, rfl⟩

/-- The scope of a const list solves the equations of the list. -/
theorem buildScope_solves {decls ordered : List ConstDecl} {outer : Option Scope} {scope : Scope}
    (built : buildScope decls outer = .ok (ordered, scope)) :
    ordered.Perm decls ∧ Sortable decls outer ∧ Scope.Solves outer scope decls := by
  obtain ⟨placed, sorted, extended, rfl⟩ := buildScope_eq_ok.mp built
  have sortable := exists_sortConsts_iff.mp ⟨placed, sorted⟩
  obtain ⟨same, inOrder⟩ := sortConsts_keeps sorted
  have names : (placed.map fun entry => entry.1.name).Perm (decls.map ConstDecl.name) := by
    have mapped := same.map ConstDecl.name
    rwa [List.map_map] at mapped
  have distinct := names.nodup_iff.mpr sortable.distinct
  refine ⟨same, sortable, fun decl member => ?_, fun name absent => ?_⟩
  · obtain ⟨entry, inPlaced, rfl⟩ := List.mem_map.mp (same.mem_iff.mpr member)
    exact Scope.extend_settles inOrder distinct extended entry inPlaced
  · exact Scope.extend_frame extended fun member => absent (names.mem_iff.mp member)

/-- A const list that can be sorted and solved is built to its solution. -/
theorem exists_buildScope {decls : List ConstDecl} {outer : Option Scope} {solution : Scope}
    (sortable : Sortable decls outer) (solves : Scope.Solves outer solution decls) :
    ∃ ordered scope, buildScope decls outer = .ok (ordered, scope) ∧ scope.Same solution := by
  obtain ⟨placed, sorted⟩ := exists_sortConsts_iff.mpr sortable
  obtain ⟨same, inOrder⟩ := sortConsts_keeps sorted
  have settles (entry : Placed) (member : entry ∈ placed) :
      Scope.Settles outer solution entry.1 :=
    solves.settles entry.1 (same.mem_iff.mp (List.mem_map_of_mem member))
  have agrees (name : String) (absent : name ∉ placed.map fun entry => entry.1.name) :
      solution.values name = Scope.empty.values name := by
    refine solves.only name fun declared => absent ?_
    have mapped := (same.map ConstDecl.name).mem_iff.mpr declared
    rwa [List.map_map] at mapped
  obtain ⟨scope, extended, equal⟩ := Scope.exists_extend inOrder settles agrees
  exact ⟨_, scope, buildScope_eq_ok.mpr ⟨placed, sorted, extended, rfl⟩, equal⟩

end BehaviourScript
