/-
This file finds the node that stops an evaluation. The nodes of an expression
are taken from left to right, each after its operands, and each has an exact
value over all integers, if the names in it have one. An evaluation succeeds if
all these values fit in 64 bits. If not, it stops at the first node whose value
does not fit, also where the whole would fit again, or at a name without a
value, if that comes first.
-/

import BehaviourScript.Proofs.Evaluation

namespace BehaviourScript

open Outcome

theorem isWord64_iff {value : Int} :
    isWord64 value = true ↔ -9223372036854775808 ≤ value ∧ value ≤ 9223372036854775807 := by
  rw [isWord64, Bool.and_eq_true, decide_eq_true_eq, decide_eq_true_eq]
  omega

namespace Expr

/-- The nodes of an expression from left to right, each after its operands. -/
def nodes : Expr → List Expr
  | number value span => [number value span]
  | const name span => [const name span]
  | neg operand span => operand.nodes ++ [neg operand span]
  | binary op left right span => left.nodes ++ right.nodes ++ [binary op left right span]

theorem const_mem_nodes {expr : Expr} {name : String} {span : Span} :
    const name span ∈ expr.nodes ↔ (name, span) ∈ expr.references := by
  induction expr with
  | number value place => simp [nodes, references]
  | const other place => simp [nodes, references]
  | neg operand place inductionHypothesis => simp [nodes, references, inductionHypothesis]
  | binary op left right place leftHypothesis rightHypothesis =>
    simp [nodes, references, leftHypothesis, rightHypothesis]

end Expr

namespace Env

/-- A node has an exact value, and that fits in 64 bits. -/
def Fits (env : Env) (node : Expr) : Prop :=
  ∃ value, node.unbounded? env.value? = some value ∧
    -9223372036854775808 ≤ value ∧ value ≤ 9223372036854775807

/-- A node has an exact value, and that does not fit in 64 bits. -/
def Overflows (env : Env) (node : Expr) : Prop :=
  ∃ value, node.unbounded? env.value? = some value ∧
    (value < -9223372036854775808 ∨ 9223372036854775807 < value)

/-- Of a row of nodes, all that come before one fit. -/
def Reaches (env : Env) (nodes : List Expr) (node : Expr) : Prop :=
  ∃ before after, nodes = before ++ node :: after ∧ ∀ earlier ∈ before, env.Fits earlier

/-- A node at which there is no going on, with the error that tells so. -/
inductive Stops (env : Env) : Expr → SemanticError → Prop
  | overflow {node : Expr} :
      env.Overflows node → Stops env node (.arithmeticOverflow node.span.start)
  | undefined {name : String} {span : Span} :
      env.value? name = none → Stops env (.const name span) (.undefinedConst name span.start)

variable {env : Env} {expr node : Expr} {nodes : List Expr} {error : SemanticError}

/-! ### Rows of nodes -/

theorem Reaches.mem (reached : env.Reaches nodes node) : node ∈ nodes := by
  obtain ⟨before, after, rfl, _⟩ := reached
  exact List.mem_append_right _ List.mem_cons_self

theorem Reaches.append (reached : env.Reaches nodes node) (more : List Expr) :
    env.Reaches (nodes ++ more) node := by
  obtain ⟨before, after, rfl, fit⟩ := reached
  exact ⟨before, after ++ more, by rw [List.append_assoc, List.cons_append], fit⟩

theorem Reaches.after {front : List Expr} (fit : ∀ earlier ∈ front, env.Fits earlier)
    (reached : env.Reaches nodes node) : env.Reaches (front ++ nodes) node := by
  obtain ⟨before, after, rfl, others⟩ := reached
  exact ⟨front ++ before, after, (List.append_assoc ..).symm,
    List.forall_mem_append.mpr ⟨fit, others⟩⟩

theorem reaches_concat (fit : ∀ earlier ∈ nodes, env.Fits earlier) (node : Expr) :
    env.Reaches (nodes ++ [node]) node :=
  ⟨nodes, [], rfl, fit⟩

/-- A node that does not fit is not passed. -/
theorem Reaches.before_or_at {before after : List Expr} {last : Expr}
    (reached : env.Reaches (before ++ last :: after) node) (stuck : ¬env.Fits last) :
    env.Reaches before node ∨ node = last ∧ ∀ earlier ∈ before, env.Fits earlier := by
  obtain ⟨front, behind, same, fit⟩ := reached
  rcases List.append_eq_append_iff.mp same with ⟨between, rfl, tail⟩ | ⟨between, rfl, tail⟩
  · cases between with
    | nil =>
      cases tail
      exact .inr ⟨rfl, fun earlier member => fit earlier (List.mem_append_left _ member)⟩
    | cons first rest =>
      cases tail
      exact absurd (fit last (List.mem_append_right _ List.mem_cons_self)) stuck
  · cases between with
    | nil =>
      cases tail
      exact .inr ⟨rfl, by rwa [List.append_nil]⟩
    | cons first rest =>
      cases tail
      exact .inl ⟨front, rest, rfl, fit⟩

theorem Stops.not_fits (stops : env.Stops node error) : ¬env.Fits node := by
  rintro ⟨value, known, low, high⟩
  cases stops with
  | overflow overflows =>
    obtain ⟨other, same, beyond⟩ := overflows
    cases known.symm.trans same
    omega
  | undefined missing => cases missing.symm.trans known

/-! ### Where an evaluation ends -/

theorem fits_of_confine {span : Span} {given value : Int}
    (known : node.unbounded? env.value? = some given) (fits : confine span given = .ok value) :
    env.Fits node :=
  ⟨given, known, isWord64_iff.mp (confine_eq_ok.mp fits).1⟩

theorem stops_of_confine {given : Int} (known : node.unbounded? env.value? = some given)
    (failed : confine node.span given = .error error) : env.Stops node error := by
  have told := confine_eq_error failed
  unfold confine at failed
  split at failed
  · cases failed
  · next wide =>
    rw [isWord64_iff] at wide
    subst told
    exact .overflow ⟨given, known, by omega⟩

/-- If an evaluation succeeds, all nodes fit. -/
theorem fits_of_eval {value : Int} (evaluated : env.eval expr = .ok value) :
    ∀ node ∈ expr.nodes, env.Fits node := by
  induction expr generalizing value with
  | number given span =>
    exact List.forall_mem_singleton.mpr (fits_of_confine rfl evaluated)
  | const name span =>
    refine List.forall_mem_singleton.mpr ?_
    unfold eval at evaluated
    split at evaluated
    · next found => exact fits_of_confine found evaluated
    · cases evaluated
  | neg operand span inductionHypothesis =>
    obtain ⟨given, first, fits⟩ := bind_eq_ok.mp evaluated
    have known : (Expr.neg operand span).unbounded? env.value? = some (-given) := by
      rw [unbounded?_of_eval evaluated, (confine_eq_ok.mp fits).2]
    exact List.forall_mem_append.mpr ⟨inductionHypothesis first,
      List.forall_mem_singleton.mpr (fits_of_confine known fits)⟩
  | binary op left right span leftHypothesis rightHypothesis =>
    obtain ⟨first, leftRun, others⟩ := bind_eq_ok.mp evaluated
    obtain ⟨second, rightRun, fits⟩ := bind_eq_ok.mp others
    have operands := List.forall_mem_append.mpr ⟨leftHypothesis leftRun, rightHypothesis rightRun⟩
    have known : (Expr.binary op left right span).unbounded? env.value? =
        some (op.apply first second) := by
      rw [unbounded?_of_eval evaluated, (confine_eq_ok.mp fits).2]
    exact List.forall_mem_append.mpr ⟨operands,
      List.forall_mem_singleton.mpr (fits_of_confine known fits)⟩

/-- If an evaluation fails, it has come to a node at which it stops. -/
theorem exists_stops_of_eval (failed : env.eval expr = .error error) :
    ∃ node, env.Reaches expr.nodes node ∧ env.Stops node error := by
  induction expr with
  | number given span =>
    exact ⟨_, reaches_concat (List.forall_mem_nil _) _, stops_of_confine rfl failed⟩
  | const name span =>
    refine ⟨_, reaches_concat (List.forall_mem_nil _) _, ?_⟩
    unfold eval at failed
    split at failed
    · next found => exact stops_of_confine found failed
    · next missing =>
      cases failed
      exact .undefined missing
  | neg operand span inductionHypothesis =>
    rcases bind_eq_error.mp failed with inner | ⟨given, first, wide⟩
    · obtain ⟨node, reached, stops⟩ := inductionHypothesis inner
      exact ⟨node, reached.append _, stops⟩
    · refine ⟨_, reaches_concat (fits_of_eval first) _, stops_of_confine ?_ wide⟩
      rw [Expr.unbounded?, unbounded?_of_eval first]
      rfl
  | binary op left right span leftHypothesis rightHypothesis =>
    rcases bind_eq_error.mp failed with inner | ⟨first, leftRun, others⟩
    · obtain ⟨node, reached, stops⟩ := leftHypothesis inner
      exact ⟨node, (reached.append _).append _, stops⟩
    rcases bind_eq_error.mp others with inner | ⟨second, rightRun, wide⟩
    · obtain ⟨node, reached, stops⟩ := rightHypothesis inner
      exact ⟨node, (reached.after (fits_of_eval leftRun)).append _, stops⟩
    · have operands := List.forall_mem_append.mpr ⟨fits_of_eval leftRun, fits_of_eval rightRun⟩
      refine ⟨_, reaches_concat operands _, stops_of_confine ?_ wide⟩
      rw [Expr.unbounded?, unbounded?_of_eval leftRun, unbounded?_of_eval rightRun]
      rfl

theorem eval_eq_ok_iff {value : Int} :
    env.eval expr = .ok value ↔
      (∀ node ∈ expr.nodes, env.Fits node) ∧ expr.unbounded? env.value? = some value := by
  constructor
  · exact fun evaluated => ⟨fits_of_eval evaluated, unbounded?_of_eval evaluated⟩
  · rintro ⟨fit, known⟩
    cases evaluated : env.eval expr with
    | ok other =>
      have same := (unbounded?_of_eval evaluated).symm.trans known
      rw [Option.some.inj same]
    | error error =>
      obtain ⟨node, reached, stops⟩ := exists_stops_of_eval evaluated
      exact absurd (fit node reached.mem) stops.not_fits

/-- Whether a node is a name without a value. -/
def lacks (env : Env) : Expr → Bool
  | .const name _ => (env.value? name).isNone
  | _ => false

/-- If some name has no value, there is a first such name. -/
theorem exists_first_undefined {reference : String × Span} (used : reference ∈ expr.references)
    (missing : env.value? reference.1 = none) :
    ∃ before name span after, expr.nodes = before ++ .const name span :: after ∧
      env.value? name = none ∧
      ∀ other place, .const other place ∈ before → env.value? other ≠ none := by
  have found : (expr.nodes.find? env.lacks).isSome = true := by
    rw [List.find?_isSome]
    exact ⟨_, Expr.const_mem_nodes.mpr used, Option.isNone_iff_eq_none.mpr missing⟩
  obtain ⟨node, first⟩ := Option.isSome_iff_exists.mp found
  obtain ⟨lacking, before, after, split, others⟩ := List.find?_eq_some_iff_append.mp first
  cases node with
  | const name span =>
    refine ⟨before, name, span, after, split, Option.isNone_iff_eq_none.mp lacking, ?_⟩
    intro other place member absent
    have valued := others _ member
    rw [lacks, absent] at valued
    cases valued
  | number value span => cases lacking
  | neg operand span => cases lacking
  | binary op left right span => cases lacking

/-- An evaluation gives a value exactly if the exact values of all nodes fit in 64 bits, and then
it gives the exact value of the whole. If all names have values and some node does not fit, it
fails with an overflow of the first such node. If a name has no value, it fails at the first such
name, unless a node before that overflows. -/
theorem eval_exact (env : Env) (expr : Expr) :
    (∀ value, env.eval expr = .ok value ↔
      (∀ node ∈ expr.nodes, env.Fits node) ∧ expr.unbounded? env.value? = some value) ∧
    ((∀ reference ∈ expr.references, env.value? reference.1 ≠ none) →
      ¬(∀ node ∈ expr.nodes, env.Fits node) →
      ∃ node, env.Reaches expr.nodes node ∧ env.Overflows node ∧
        env.eval expr = .error (.arithmeticOverflow node.span.start)) ∧
    ((∃ reference ∈ expr.references, env.value? reference.1 = none) →
      ∃ before name span after, expr.nodes = before ++ .const name span :: after ∧
        env.value? name = none ∧
        (∀ other place, .const other place ∈ before → env.value? other ≠ none) ∧
        ((∀ earlier ∈ before, env.Fits earlier) ∧
            env.eval expr = .error (.undefinedConst name span.start) ∨
          ∃ node, env.Reaches before node ∧ env.Overflows node ∧
            env.eval expr = .error (.arithmeticOverflow node.span.start))) := by
  refine ⟨fun _ => eval_eq_ok_iff, fun valued wide => ?_, ?_⟩
  · cases evaluated : env.eval expr with
    | ok value => exact absurd (fits_of_eval evaluated) wide
    | error error =>
      obtain ⟨node, reached, stops⟩ := exists_stops_of_eval evaluated
      cases stops with
      | overflow overflows => exact ⟨node, reached, overflows, rfl⟩
      | undefined missing =>
        exact absurd missing (valued _ (Expr.const_mem_nodes.mp reached.mem))
  · rintro ⟨reference, used, missing⟩
    obtain ⟨before, name, span, after, split, lacking, first⟩ :=
      exists_first_undefined used missing
    have stuck : ¬env.Fits (.const name span) := (Stops.undefined lacking).not_fits
    refine ⟨before, name, span, after, split, lacking, first, ?_⟩
    cases evaluated : env.eval expr with
    | ok value =>
      have fit := fits_of_eval evaluated (.const name span)
      rw [split] at fit
      exact absurd (fit (List.mem_append_right _ List.mem_cons_self)) stuck
    | error error =>
      -- The name is not passed, so the evaluation has stopped there or at a node before it.
      obtain ⟨node, reached, stops⟩ := exists_stops_of_eval evaluated
      rw [split] at reached
      rcases reached.before_or_at stuck with earlier | ⟨rfl, fit⟩
      · cases stops with
        | overflow overflows => exact .inr ⟨node, earlier, overflows, rfl⟩
        | undefined absent => exact absurd absent (first _ _ earlier.mem)
      · cases stops with
        | overflow overflows =>
          obtain ⟨value, known, _⟩ := overflows
          cases lacking.symm.trans known
        | undefined _ => exact .inl ⟨fit, rfl⟩

/-- The greatest number plus one. -/
def ledge : Expr :=
  .binary .add (.literal 9223372036854775807) (.const "Step" .dummy) ⟨⟨1, 8, 7⟩, ⟨1, 34, 33⟩⟩

/-- The greatest number plus one, minus one. -/
def ledgeAndBack : Expr := .binary .sub ledge (.const "Step" .dummy) ⟨⟨1, 7, 6⟩, ⟨1, 42, 41⟩⟩

/-- The greatest number plus one, minus a name without a value. -/
def ledgeAndGap : Expr := .binary .sub ledge (.const "Gap" .dummy) ⟨⟨1, 7, 6⟩, ⟨1, 41, 40⟩⟩

def oneStep : Env := ⟨⟨[("Step", .of 1 0 .dummy)]⟩, none⟩

-- The way back does not undo the overflow, and the gap behind it does not hide it.
theorem eval_exact_ledge :
    ledgeAndBack.unbounded? oneStep.value? = some 9223372036854775807 ∧
    (∀ reference ∈ ledgeAndBack.references, oneStep.value? reference.1 ≠ none) ∧
    ¬(∀ node ∈ ledgeAndBack.nodes, oneStep.Fits node) ∧
    (∃ node, oneStep.Reaches ledgeAndBack.nodes node ∧ oneStep.Overflows node ∧
      oneStep.eval ledgeAndBack = .error (.arithmeticOverflow node.span.start)) ∧
    (∃ reference ∈ ledgeAndGap.references, oneStep.value? reference.1 = none) ∧
    oneStep.eval ledgeAndGap = .error (.arithmeticOverflow ⟨1, 8, 7⟩) ∧
    ∃ before name span after, ledgeAndGap.nodes = before ++ .const name span :: after ∧
      oneStep.value? name = none ∧
      (∀ other place, .const other place ∈ before → oneStep.value? other ≠ none) ∧
      ((∀ earlier ∈ before, oneStep.Fits earlier) ∧
          oneStep.eval ledgeAndGap = .error (.undefinedConst name span.start) ∨
        ∃ node, oneStep.Reaches before node ∧ oneStep.Overflows node ∧
          oneStep.eval ledgeAndGap = .error (.arithmeticOverflow node.span.start)) := by
  obtain ⟨succeeds, overflows, _⟩ := eval_exact oneStep ledgeAndBack
  have known : ledgeAndBack.unbounded? oneStep.value? = some 9223372036854775807 := by decide
  have valued : ∀ reference ∈ ledgeAndBack.references, oneStep.value? reference.1 ≠ none := by
    decide
  have wide : ¬(∀ node ∈ ledgeAndBack.nodes, oneStep.Fits node) := by
    intro fit
    have evaluated := (succeeds _).mpr ⟨fit, known⟩
    revert evaluated
    decide
  have gap : ∃ reference ∈ ledgeAndGap.references, oneStep.value? reference.1 = none := by decide
  exact ⟨known, valued, wide, overflows valued wide, gap, by decide,
    (eval_exact oneStep ledgeAndGap).2.2 gap⟩

end Env

end BehaviourScript
