/-
This file says when computations that may fail succeed: one after the other,
with another kind of error, and along a row of items.
-/

import BehaviourScript.Compiler
import Mathlib.Data.List.Forall2

namespace BehaviourScript

namespace Outcome

variable {ε α β : Type}

theorem bind_eq_ok {first : Except ε α} {next : α → Except ε β} {value : β} :
    (first >>= next) = .ok value ↔ ∃ between, first = .ok between ∧ next between = .ok value := by
  cases first with
  | ok between => exact ⟨fun run => ⟨between, rfl, run⟩, fun ⟨_, same, run⟩ => by cases same; exact run⟩
  | error error => exact ⟨nofun, fun ⟨_, same, _⟩ => nomatch same⟩

theorem bind_eq_error {first : Except ε α} {next : α → Except ε β} {error : ε} :
    (first >>= next) = .error error ↔
      first = .error error ∨ ∃ between, first = .ok between ∧ next between = .error error := by
  cases first with
  | ok between =>
    refine ⟨fun run => .inr ⟨between, rfl, run⟩, ?_⟩
    rintro (same | ⟨_, same, run⟩)
    · cases same
    · cases same
      exact run
  | error fault =>
    refine ⟨fun same => .inl (congrArg Except.error (Except.error.inj same)), ?_⟩
    rintro (same | ⟨_, same, _⟩)
    · exact congrArg Except.error (Except.error.inj same)
    · cases same

theorem pure_eq_ok {first value : α} : (pure first : Except ε α) = .ok value ↔ first = value :=
  ⟨Except.ok.inj, congrArg _⟩

theorem mapError_eq_ok {δ : Type} {change : ε → δ} {first : Except ε α} {value : α} :
    first.mapError change = .ok value ↔ first = .ok value := by
  cases first with
  | ok given => exact ⟨fun same => congrArg Except.ok (Except.ok.inj same),
      fun same => congrArg Except.ok (Except.ok.inj same)⟩
  | error error => exact ⟨nofun, nofun⟩

theorem ofLex_eq_ok {first : Except LexError α} {value : α} :
    ofLex first = .ok value ↔ first = .ok value := mapError_eq_ok

theorem ofParse_eq_ok {first : Except ParseError α} {value : α} :
    ofParse first = .ok value ↔ first = .ok value := mapError_eq_ok

theorem ofSemantic_eq_ok {first : Except SemanticError α} {value : α} :
    ofSemantic first = .ok value ↔ first = .ok value := mapError_eq_ok

theorem ofResolution_eq_ok {first : Except ResolutionError α} {value : α} :
    ofResolution first = .ok value ↔ first = .ok value := mapError_eq_ok

/-! ### Rows -/

theorem mapM_eq_ok {step : α → Except ε β} {items : List α} {values : List β} :
    items.mapM step = .ok values ↔
      List.Forall₂ (fun item value => step item = .ok value) items values := by
  induction items generalizing values with
  | nil =>
    rw [List.mapM_nil, pure_eq_ok, List.forall₂_nil_left_iff]
    exact eq_comm
  | cons item rest inductionHypothesis =>
    rw [List.mapM_cons, List.forall₂_cons_left_iff]
    simp only [bind_eq_ok, pure_eq_ok, inductionHypothesis]
    constructor
    · rintro ⟨value, first, others, behind, rfl⟩
      exact ⟨value, others, first, behind, rfl⟩
    · rintro ⟨value, others, first, behind, rfl⟩
      exact ⟨value, first, others, behind, rfl⟩

theorem exists_mapM_eq_ok {step : α → Except ε β} {items : List α}
    (each : ∀ item ∈ items, ∃ value, step item = .ok value) :
    ∃ values, items.mapM step = .ok values := by
  induction items with
  | nil => exact ⟨[], rfl⟩
  | cons item rest inductionHypothesis =>
    rw [List.forall_mem_cons] at each
    obtain ⟨value, first⟩ := each.1
    obtain ⟨others, behind⟩ := inductionHypothesis each.2
    exact ⟨value :: others, mapM_eq_ok.mpr (.cons first (mapM_eq_ok.mp behind))⟩

theorem exists_foldlM_eq_ok {σ : Type} {step : σ → α → Except ε σ} {items : List α} (first : σ)
    (each : ∀ item ∈ items, ∀ state, ∃ next, step state item = .ok next) :
    ∃ last, items.foldlM step first = .ok last := by
  induction items generalizing first with
  | nil => exact ⟨first, rfl⟩
  | cons item rest inductionHypothesis =>
    rw [List.forall_mem_cons] at each
    obtain ⟨next, stepped⟩ := each.1 first
    obtain ⟨last, others⟩ := inductionHypothesis next each.2
    exact ⟨last, by rw [List.foldlM_cons, bind_eq_ok]; exact ⟨next, stepped, others⟩⟩

theorem exists_step_of_foldlM {σ : Type} {step : σ → α → Except ε σ} {items : List α} {first last : σ}
    (run : items.foldlM step first = .ok last) :
    ∀ item ∈ items, ∃ state next, step state item = .ok next := by
  induction items generalizing first with
  | nil => exact nofun
  | cons item rest inductionHypothesis =>
    rw [List.foldlM_cons, bind_eq_ok] at run
    obtain ⟨next, stepped, others⟩ := run
    exact List.forall_mem_cons.mpr ⟨⟨first, next, stepped⟩, inductionHypothesis others⟩

theorem forM_eq_ok {step : α → Except ε PUnit} {items : List α} :
    items.forM step = .ok () ↔ ∀ item ∈ items, step item = .ok () := by
  induction items with
  | nil => exact ⟨fun _ => nofun, fun _ => rfl⟩
  | cons item rest inductionHypothesis =>
    rw [List.forall_mem_cons, ← inductionHypothesis]
    exact bind_eq_ok.trans ⟨fun ⟨_, first, others⟩ => ⟨first, others⟩,
      fun ⟨first, others⟩ => ⟨(), first, others⟩⟩

theorem forMOption_eq_ok {step : α → Except ε PUnit} {item : Option α} :
    item.forM step = .ok () ↔ ∀ value ∈ item, step value = .ok () := by
  cases item with
  | none => exact ⟨fun _ => nofun, fun _ => rfl⟩
  | some value => exact ⟨fun first _ found => by cases found; exact first, fun each => each value rfl⟩

end Outcome

end BehaviourScript
