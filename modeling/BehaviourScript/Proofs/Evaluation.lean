/-
This file compares the evaluation of expressions with exact arithmetic. What an
evaluation gives is the exact value over all integers. Where it gives nothing,
either a number is out of bounds or a name has no value, and then the error
tells the name and its place.
-/

import BehaviourScript.Proofs.Outcomes

namespace BehaviourScript

open Outcome

/-- The value of an expression over all integers, if every name in it has one. -/
def Expr.unbounded? (values : String → Option Int) : Expr → Option Int
  | number value _ => some value
  | const name _ => values name
  | neg operand _ => (operand.unbounded? values).map fun value => -value
  | binary op left right _ => do
    let first ← left.unbounded? values
    let second ← right.unbounded? values
    return op.apply first second

theorem confine_eq_ok {span : Span} {given value : Int} :
    confine span given = .ok value ↔ isWord64 given = true ∧ given = value := by
  unfold confine
  split
  · next fits => exact ⟨fun same => ⟨fits, Except.ok.inj same⟩, fun both => congrArg _ both.2⟩
  · next wide => exact iff_of_false (fun same => by cases same) fun both => wide both.1

theorem confine_eq_error {span : Span} {given : Int} {error : SemanticError}
    (failed : confine span given = .error error) : error = .arithmeticOverflow span.start := by
  unfold confine at failed
  split at failed
  · cases failed
  · exact (Except.error.inj failed).symm

namespace Env

variable {env : Env}

/-- What is computed is exact. -/
theorem unbounded?_of_eval {expr : Expr} {value : Int} (evaluated : env.eval expr = .ok value) :
    expr.unbounded? env.value? = some value := by
  induction expr generalizing value with
  | number given span => exact congrArg some (confine_eq_ok.mp evaluated).2
  | const name span =>
    rw [Expr.unbounded?]
    unfold eval at evaluated
    split at evaluated
    · next found => rw [found, (confine_eq_ok.mp evaluated).2]
    · cases evaluated
  | neg operand span inductionHypothesis =>
    obtain ⟨given, first, fits⟩ := bind_eq_ok.mp evaluated
    rw [Expr.unbounded?, inductionHypothesis first, ← (confine_eq_ok.mp fits).2]
    rfl
  | binary op left right span leftHypothesis rightHypothesis =>
    obtain ⟨first, leftRun, others⟩ := bind_eq_ok.mp evaluated
    obtain ⟨second, rightRun, fits⟩ := bind_eq_ok.mp others
    rw [Expr.unbounded?, leftHypothesis leftRun, rightHypothesis rightRun,
      ← (confine_eq_ok.mp fits).2]
    rfl

/-- A name without a value, as the error tells it. -/
def Misses (env : Env) (expr : Expr) (error : SemanticError) : Prop :=
  ∃ reference ∈ expr.references, env.value? reference.1 = none ∧
    error = .undefinedConst reference.1 reference.2.start

/-- An evaluation fails with an overflow, or because it misses the value of a name. -/
theorem eval_eq_error {expr : Expr} {error : SemanticError}
    (failed : env.eval expr = .error error) :
    (∃ position, error = .arithmeticOverflow position) ∨ env.Misses expr error := by
  induction expr with
  | number given span => exact .inl ⟨_, confine_eq_error failed⟩
  | const name span =>
    unfold eval at failed
    split at failed
    · exact .inl ⟨_, confine_eq_error failed⟩
    · next missing =>
      exact .inr ⟨(name, span), List.mem_singleton_self _, missing, (Except.error.inj failed).symm⟩
  | neg operand span inductionHypothesis =>
    rcases bind_eq_error.mp failed with inner | ⟨_, _, wide⟩
    · exact inductionHypothesis inner
    · exact .inl ⟨_, confine_eq_error wide⟩
  | binary op left right span leftHypothesis rightHypothesis =>
    rcases bind_eq_error.mp failed with inner | ⟨_, _, others⟩
    · refine (leftHypothesis inner).imp_right ?_
      rintro ⟨reference, member, missing⟩
      exact ⟨reference, List.mem_append_left _ member, missing⟩
    rcases bind_eq_error.mp others with inner | ⟨_, _, wide⟩
    · refine (rightHypothesis inner).imp_right ?_
      rintro ⟨reference, member, missing⟩
      exact ⟨reference, List.mem_append_right _ member, missing⟩
    · exact .inl ⟨_, confine_eq_error wide⟩

end Env

end BehaviourScript
