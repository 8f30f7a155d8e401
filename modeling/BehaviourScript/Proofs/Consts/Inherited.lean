/-
This file puts the two scopes that a behaviour of a library sees into one. The
consts of the library that the behaviour does not declare itself are added to
its own as plain numbers, with the values they have in the library. The longer
list can be built without a scope around it, and every name means in it what it
means in the behaviour: also where a library const was computed from one that
the behaviour hides.
-/

import BehaviourScript.Proofs.Consts.Solution
import BehaviourScript.Proofs.Evaluation

namespace BehaviourScript

open Outcome

/-- A declaration of the number that its name stands for in an environment. -/
def ConstDecl.fixed (env : Env) (decl : ConstDecl) : ConstDecl :=
  { decl with value := .literal ((env.value? decl.name).getD 0) }

/-- The consts of the outer list that the inner list does not declare, as the numbers they are in
the outer scope. -/
def inherited (outer : Scope) (decls own : List ConstDecl) : List ConstDecl :=
  (decls.filter fun decl => decl.name ∉ own.map ConstDecl.name).map (·.fixed ⟨outer, none⟩)

/-! ### One scope in front of another -/

theorem Assoc.get?_append {κ α : Type} [DecidableEq κ] (key : κ) (front back : List (κ × α)) :
    get? key (front ++ back) = (get? key front).or (get? key back) := by
  induction front with
  | nil => rfl
  | cons entry rest inductionHypothesis =>
    rw [List.cons_append, get?, get?]
    by_cases same : entry.1 = key
    · rw [if_pos same, if_pos same]
      rfl
    · rw [if_neg same, if_neg same, inductionHypothesis]

/-- The names of two scopes, where the first one hides those of the second. -/
def Scope.shadowing (inner outer : Scope) : Scope := ⟨inner.consts ++ outer.consts⟩

theorem Scope.values_shadowing (inner outer : Scope) (name : String) :
    (inner.shadowing outer).values name = (inner.values name).or (outer.values name) := by
  unfold values get? shadowing
  rw [Assoc.get?_append, Option.map_or]

theorem Env.same_shadowing (inner outer : Scope) :
    Env.Same ⟨inner.shadowing outer, none⟩ ⟨inner, some outer⟩ := by
  intro name
  rw [value?_eq, value?_eq, Scope.values_shadowing]
  exact congrArg (Option.bind · id) (Option.or_none)

theorem Env.value?_of_values {inner : Scope} {name : String} {value : Int}
    (found : inner.values name = some (some value)) (outer : Option Scope) :
    Env.value? ⟨inner, outer⟩ name = some value := by
  rw [value?_eq, found]
  rfl

/-! ### The joined list -/

theorem Env.isWord64_of_eval {env : Env} {expr : Expr} {value : Int}
    (evaluated : env.eval expr = .ok value) : isWord64 value = true := by
  have confined {span : Span} {given : Int} (fits : confine span given = .ok value) :
      isWord64 value = true := by
    obtain ⟨word, rfl⟩ := confine_eq_ok.mp fits
    exact word
  cases expr with
  | number given span => exact confined evaluated
  | const name span =>
    unfold eval at evaluated
    split at evaluated
    · exact confined evaluated
    · exact nomatch evaluated
  | neg operand span =>
    obtain ⟨_, _, fits⟩ := bind_eq_ok.mp evaluated
    exact confined fits
  | binary op left right span =>
    obtain ⟨_, _, others⟩ := bind_eq_ok.mp evaluated
    obtain ⟨_, _, fits⟩ := bind_eq_ok.mp others
    exact confined fits

theorem Env.eval_literal (env : Env) {value : Int} (word : isWord64 value = true) :
    env.eval (.literal value) = .ok value :=
  if_pos word

section Joined

variable {decls own : List ConstDecl} {outer inner : Scope}

theorem names_inherited :
    (inherited outer decls own).map ConstDecl.name =
      (decls.map ConstDecl.name).filter (· ∉ own.map ConstDecl.name) := by
  unfold inherited
  rw [List.map_map, List.filter_map]
  rfl

theorem mem_names_inherited {name : String} :
    name ∈ (inherited outer decls own).map ConstDecl.name ↔
      name ∈ decls.map ConstDecl.name ∧ name ∉ own.map ConstDecl.name := by
  rw [names_inherited, List.mem_filter, decide_eq_true_eq]

/-- An inherited const is a number and names nothing. -/
theorem not_names_of_inherited {decl : ConstDecl} (member : decl ∈ inherited outer decls own)
    (name : String) : ¬decl.Names name := by
  obtain ⟨source, _, rfl⟩ := List.mem_map.mp member
  exact List.not_mem_nil

theorem sortable_joined (outerSortable : Sortable decls none)
    (solved : Scope.Solves none outer decls) (ownSortable : Sortable own (some outer)) :
    Sortable (inherited outer decls own ++ own) none where
  distinct := by
    rw [List.map_append, List.nodup_append, names_inherited]
    refine ⟨outerSortable.distinct.filter _, ownSortable.distinct, ?_⟩
    rintro name inFront _ inOwn rfl
    exact of_decide_eq_true (List.mem_filter.mp inFront).2 inOwn
  declared decl member name names := by
    rcases List.mem_append.mp member with front | inOwn
    · exact absurd names (not_names_of_inherited front name)
    rw [ConstOrder.isDeclared_iff, List.map_append, List.mem_append, mem_names_inherited]
    rcases ConstOrder.isDeclared_iff.mp (ownSortable.declared decl inOwn name names) with
      declared | found
    · exact .inl (.inr declared)
    · by_cases declared : name ∈ own.map ConstDecl.name
      · exact .inl (.inr declared)
      refine .inl (.inl ⟨?_, declared⟩)
      by_contra absent
      have unknown := contains_eq_values outer name
      rw [solved.only name absent] at unknown
      exact nomatch found.symm.trans unknown
  acyclic := by
    -- the inherited consts, which name nothing, go below all others
    obtain ⟨rank, ranked⟩ := ownSortable.acyclic
    refine ⟨fun name => if name ∈ own.map ConstDecl.name then rank name + 1 else 0, ?_⟩
    intro decl member other alsoMember names
    rcases List.mem_append.mp member with front | inOwn
    · exact absurd names (not_names_of_inherited front _)
    simp only [if_pos (List.mem_map_of_mem inOwn : decl.name ∈ own.map ConstDecl.name)]
    rcases List.mem_append.mp alsoMember with front | alsoOwn
    · rw [if_neg (mem_names_inherited.mp (List.mem_map_of_mem front)).2]
      exact Nat.succ_pos _
    · rw [if_pos (List.mem_map_of_mem alsoOwn)]
      exact Nat.succ_lt_succ (ranked decl inOwn other alsoOwn names)

theorem solves_joined (outerSolved : Scope.Solves none outer decls)
    (ownSolved : Scope.Solves (some outer) inner own) :
    Scope.Solves none (inner.shadowing outer) (inherited outer decls own ++ own) where
  settles decl member := by
    rcases List.mem_append.mp member with front | inOwn
    · obtain ⟨source, kept, rfl⟩ := List.mem_map.mp front
      obtain ⟨inDecls, hidden⟩ := List.mem_filter.mp kept
      obtain ⟨value, found, evaluated⟩ := outerSolved.settles source inDecls
      refine ⟨value, ?_, ?_⟩
      · rw [Scope.values_shadowing]
        show (inner.values source.name).or (outer.values source.name) = _
        rw [ownSolved.only _ (of_decide_eq_true hidden), found]
        rfl
      · unfold ConstDecl.fixed
        rw [Env.value?_of_values found none]
        exact Env.eval_literal _ (Env.isWord64_of_eval evaluated)
    · obtain ⟨value, found, evaluated⟩ := ownSolved.settles decl inOwn
      refine ⟨value, ?_, ?_⟩
      · rw [Scope.values_shadowing, found]
        rfl
      · rw [(Env.same_shadowing inner outer).eval_eq, evaluated]
  only name absent := by
    rw [List.map_append, List.mem_append, not_or, mem_names_inherited, not_and_not_right] at absent
    rw [Scope.values_shadowing, ownSolved.only name absent.2,
      outerSolved.only name fun declared => absent.2 (absent.1 declared)]
    rfl

/-- A behaviour's own list with the consts that it inherits is built without a scope around it, to
a scope in which every name means what it means in the behaviour. -/
theorem exists_buildScope_joined {outerOrdered ordered : List ConstDecl}
    (outerBuilt : buildScope decls none = .ok (outerOrdered, outer))
    (built : buildScope own (some outer) = .ok (ordered, inner)) :
    ∃ joined scope, buildScope (inherited outer decls own ++ own) none = .ok (joined, scope) ∧
      Env.Same ⟨scope, none⟩ ⟨inner, some outer⟩ := by
  obtain ⟨_, outerSortable, outerSolved⟩ := buildScope_solves outerBuilt
  obtain ⟨_, ownSortable, ownSolved⟩ := buildScope_solves built
  obtain ⟨joined, scope, run, same⟩ := exists_buildScope
    (sortable_joined outerSortable outerSolved ownSortable) (solves_joined outerSolved ownSolved)
  refine ⟨joined, scope, run, fun name => ?_⟩
  rw [← Env.same_shadowing inner outer name]
  exact Scope.value?_eq_of_values (same name) none

end Joined

end BehaviourScript
