/-
This file holds the notion that carries the limits through the encoder: a
computation decides a condition if it succeeds exactly under the condition and
otherwise fails for a limit of the binary. Along with the condition goes what is
known of the result, such as the number of bytes. There is one lemma for each
way in which the encoder puts computations together.
-/

import BehaviourScript.Proofs.Checks
import BehaviourScript.Proofs.Emission
import BehaviourScript.Proofs.Limits.Form

namespace BehaviourScript

open Outcome

/-- A computation succeeds with a known result if a condition holds, and fails for a limit if it
does not. -/
inductive Decides {α : Type} (condition : Prop) (Known : α → Prop) : Outcome α → Prop
  | passes {value : α} : condition → Known value → Decides condition Known (.ok value)
  | fails {error : Error} : ¬condition → error.IsLimit → Decides condition Known (.error error)

namespace Decides

variable {α β : Type} {condition other : Prop} {Known : α → Prop} {After : β → Prop}
  {outcome : Outcome α}

/-! ### What is decided -/

/-- What is decided by a condition succeeds exactly if the condition holds. -/
theorem exists_ok_iff (decides : Decides condition Known outcome) :
    (∃ value, outcome = .ok value) ↔ condition := by
  cases decides with
  | passes holds _ => exact iff_of_true ⟨_, rfl⟩ holds
  | fails fails _ => exact iff_of_false nofun fails

theorem known (decides : Decides condition Known outcome) {value : α}
    (done : outcome = .ok value) : Known value := by
  cases decides with
  | passes _ known =>
    cases done
    exact known
  | fails => exact nomatch done

/-- What is decided fails for a limit only. -/
theorem isLimit (decides : Decides condition Known outcome) {error : Error}
    (failed : outcome = .error error) : error.IsLimit := by
  cases decides with
  | passes => exact nomatch failed
  | fails _ limit =>
    cases failed
    exact limit

theorem congr (decides : Decides condition Known outcome) (same : condition ↔ other) :
    Decides other Known outcome := by
  cases decides with
  | passes holds known => exact .passes (same.mp holds) known
  | fails fails limit => exact .fails (fun holds => fails (same.mpr holds)) limit

theorem mono {Less : α → Prop} (decides : Decides condition Known outcome)
    (weaker : ∀ value, outcome = .ok value → Known value → Less value) :
    Decides condition Less outcome := by
  cases decides with
  | passes holds known => exact .passes holds (weaker _ rfl known)
  | fails fails limit => exact .fails fails limit

/-- What is known is at least that this is the result. -/
theorem self (decides : Decides condition Known outcome) :
    Decides condition (fun value => outcome = .ok value) outcome :=
  decides.mono fun _ run _ => run

/-! ### One after the other -/

theorem pure {value : α} (known : Known value) : Decides True Known (pure value) :=
  .passes trivial known

/-- What the second step decides may depend on the result of the first. Together they decide a
condition that includes the first one and, once the result is known, is the second one. -/
theorem bindWith {final : Prop} {Next : α → Prop} {next : α → Outcome β}
    (first : Decides condition Known outcome)
    (second : ∀ value, Known value → Decides (Next value) After (next value))
    (includes : final → condition) (is : ∀ value, Known value → (Next value ↔ final)) :
    Decides final After (outcome >>= next) := by
  cases first with
  | @passes value _ known =>
    show Decides _ _ (next value)
    exact (second value known).congr (is value known)
  | fails fails limit => exact .fails (fun holds => fails (includes holds)) limit

/-- Two steps in turn are decided by both conditions. -/
theorem bind {next : α → Outcome β} (first : Decides condition Known outcome)
    (second : ∀ value, Known value → Decides other After (next value)) :
    Decides (condition ∧ other) After (outcome >>= next) := by
  cases first with
  | @passes value holds known =>
    show Decides _ _ (next value)
    exact (second value known).congr (and_iff_right holds).symm
  | fails fails limit => exact .fails (fun both => fails both.1) limit

/-- The last step cannot fail. -/
theorem map {image : α → β} (first : Decides condition Known outcome)
    (known : ∀ value, Known value → After (image value)) :
    Decides condition After (outcome >>= fun value => Pure.pure (image value)) :=
  (first.bind fun value held => pure (known value held)).congr (and_iff_left trivial)

/-! ### Rows -/

/-- A row of steps is decided by the conditions of all items. -/
theorem mapM {Item : α → Prop} {Result : α → β → Prop} {step : α → Outcome β} {items : List α}
    (each : ∀ item ∈ items, Decides (Item item) (Result item) (step item)) :
    Decides (∀ item ∈ items, Item item) (List.Forall₂ Result items) (items.mapM step) := by
  induction items with
  | nil => exact .passes nofun .nil
  | cons item rest inductionHypothesis =>
    rw [List.forall_mem_cons] at each
    rw [List.mapM_cons]
    have whole := each.1.bind fun value first =>
      (inductionHypothesis each.2).map fun values others => List.Forall₂.cons first others
    exact whole.congr List.forall_mem_cons.symm

/-- A fold is decided by the conditions of all items, whatever the state between them. -/
theorem foldlM {σ : Type} {Item : α → Prop} {step : σ → α → Outcome σ} {items : List α} (first : σ)
    (each : ∀ item ∈ items, ∀ state, Decides (Item item) (fun _ => True) (step state item)) :
    Decides (∀ item ∈ items, Item item) (fun last => items.foldlM step first = .ok last)
      (items.foldlM step first) := by
  suffices whole : Decides (∀ item ∈ items, Item item) (fun _ => True)
      (items.foldlM step first) from whole.self
  induction items generalizing first with
  | nil => exact .passes nofun trivial
  | cons item rest inductionHypothesis =>
    rw [List.forall_mem_cons] at each
    rw [List.foldlM_cons]
    have whole := (each.1 first).bind fun state _ => inductionHypothesis state each.2
    exact whole.congr List.forall_mem_cons.symm

theorem optional {Item : α → Prop} {length : α → Nat} {write : α → Outcome Bytes}
    {part : Option α}
    (each : ∀ value ∈ part, Decides (Item value) (·.length = length value) (write value)) :
    Decides (∀ value ∈ part, Item value) (·.length = (part.map length).getD 0)
      (Encode.optional write part) := by
  cases part with
  | none => exact .passes nofun rfl
  | some value =>
    refine (each value rfl).congr ?_
    simp only [Option.mem_some_iff, forall_eq']

end Decides

/-! ### Numbers and names -/

section Numbers

variable (quantity : Quantity) (low high : Int)

/-- A value is taken if it is in range. -/
theorem Quantity.fit_decides (least : quantity.min = low) (greatest : quantity.max = high)
    (value : Int) : Decides (low ≤ value ∧ value ≤ high) (· = value) (quantity.fit value) := by
  have range : quantity.holds value = true ↔ low ≤ value ∧ value ≤ high := by
    rw [holds, Bool.and_eq_true, decide_eq_true_eq, decide_eq_true_eq, least, greatest]
  unfold fit
  split
  · next fits => exact .passes (range.mp fits) rfl
  · next outside => exact .fails (fun inside => outside (range.mpr inside)) trivial

/-- A count fits if it is not greater than its field. -/
theorem Quantity.count_decides (limit : Nat) (least : quantity.min = 0)
    (greatest : quantity.max = limit) (count : Nat) :
    Decides (count ≤ limit) (· = (count : Int)) (quantity.fit count) :=
  (quantity.fit_decides 0 limit least greatest count).congr
    ⟨fun inside => Int.ofNat_le.mp inside.2,
      fun few => ⟨Int.natCast_nonneg _, Int.ofNat_le.mpr few⟩⟩

theorem Env.eval_decides {env : Env} {expr : Expr} (hasValue : env.HasValue expr) :
    Decides True (fun value => env.eval expr = .ok value) (ofSemantic (env.eval expr)) := by
  obtain ⟨value, evaluated⟩ := hasValue
  rw [evaluated]
  exact .passes trivial rfl

/-- A value that fits lies in its range. -/
theorem Env.between_iff {env : Env} {expr : Expr} {value low high : Int}
    (evaluated : env.eval expr = .ok value) :
    env.Between low high expr ↔ low ≤ value ∧ value ≤ high := by
  constructor
  · rintro ⟨other, same, inside⟩
    cases evaluated.symm.trans same
    exact inside
  · exact fun inside => ⟨value, evaluated, inside⟩

/-- An expression that has a value is taken if the value is in range. -/
theorem Quantity.measure_decides (least : quantity.min = low) (greatest : quantity.max = high)
    {env : Env} {expr : Expr} (hasValue : env.HasValue expr) :
    Decides (env.Between low high expr) (fun value => env.eval expr = .ok value)
      (quantity.measure env expr) := by
  obtain ⟨value, evaluated⟩ := hasValue
  unfold measure
  rw [evaluated]
  refine ((quantity.fit_decides low high least greatest value).mono ?_).congr
    (env.between_iff evaluated).symm
  rintro _ _ rfl
  rfl

theorem CompileResolvers.id_decides (resolvers : CompileResolvers) (capability : Capability)
    (name : String) :
    Decides (∃ id, resolvers.id capability name = .ok id)
      (fun id => resolvers.id capability name = .ok id)
      (ofResolution (resolvers.id capability name)) := by
  unfold id
  cases (resolvers.get? capability).bind (· name) with
  | some found => exact .passes ⟨found, rfl⟩ rfl
  | none => exact .fails nofun trivial

theorem CompileResolvers.reference_decides (resolvers : CompileResolvers) (capability : Capability)
    (reference : Reference) :
    Decides (∃ id, resolvers.reference capability reference = .ok id)
      (fun id => resolvers.reference capability reference = .ok id)
      (ofResolution (resolvers.reference capability reference)) := by
  cases reference with
  | literal id => exact .passes ⟨id, rfl⟩ rfl
  | symbol name => exact resolvers.id_decides capability name

/-- A reference is looked up, and its ID must be in range. -/
theorem Quantity.reference_decides (least : quantity.min = low) (greatest : quantity.max = high)
    (resolvers : CompileResolvers) (capability : Capability) (reference : Reference) :
    Decides (resolvers.Between capability low high reference) (fun _ => True)
      (ofResolution (resolvers.reference capability reference) >>= quantity.fit) := by
  refine (resolvers.reference_decides capability reference).bindWith
    (fun id _ => (quantity.fit_decides low high least greatest id).mono fun _ _ _ => trivial) ?_ ?_
  · exact fun ⟨id, found, _⟩ => ⟨id, found⟩
  · intro id found
    constructor
    · exact fun inside => ⟨id, found, inside⟩
    · rintro ⟨other, same, inside⟩
      cases found.symm.trans same
      exact inside

end Numbers

end BehaviourScript
