/-
This file compares two computations that may fail. They are alike if both give
an answer and the answers are related, or if both fail, with whatever errors:
which one is reported depends on places, names and orders, and the computations
that are compared here may differ in these.
-/

import BehaviourScript.Error
import Mathlib.Data.List.Forall2

namespace BehaviourScript

/-- Both fail, or the answers are related. -/
inductive Alike {ε δ α β : Type} (Same : α → β → Prop) : Except ε α → Except δ β → Prop
  | ok {first : α} {second : β} (same : Same first second) : Alike Same (.ok first) (.ok second)
  | error {first : ε} {second : δ} : Alike Same (.error first) (.error second)

namespace Alike

section Laws

variable {ε δ ι α β γ η : Type} {Same : α → β → Prop}

theorem refl (first : Except ε α) : Alike Eq first first := by
  cases first with
  | ok value => exact .ok rfl
  | error error => exact .error

theorem ofEq {first second : Except ε α} (equal : first = second) : Alike Eq first second :=
  equal ▸ refl first

theorem symm {first : Except ε α} {second : Except δ α} (alike : Alike Eq first second) :
    Alike Eq second first := by
  cases alike with
  | ok same => exact .ok same.symm
  | error => exact .error

/-- What the first gives, the second gives up to the relation. -/
theorem exists_ok {first : Except ε α} {second : Except δ β} (alike : Alike Same first second)
    {value : α} (given : first = .ok value) : ∃ other, second = .ok other ∧ Same value other := by
  cases alike with
  | ok same =>
    cases given
    exact ⟨_, rfl, same⟩
  | error => exact nomatch given

theorem exists_ok_iff {first : Except ε α} {second : Except δ β} (alike : Alike Same first second) :
    (∃ value, first = .ok value) ↔ ∃ other, second = .ok other := by
  cases alike with
  | ok same => exact iff_of_true ⟨_, rfl⟩ ⟨_, rfl⟩
  | error => exact iff_of_false nofun nofun

theorem eq_ok {first : Except ε α} {second : Except δ α} (alike : Alike Eq first second)
    {value : α} (given : first = .ok value) : second = .ok value := by
  obtain ⟨other, found, rfl⟩ := alike.exists_ok given
  exact found

/-- Two computations are alike if what each of them gives, the other gives up to the relation. -/
theorem of_exists {first : Except ε α} {second : Except δ β}
    (there : ∀ value, first = .ok value → ∃ other, second = .ok other ∧ Same value other)
    (back : ∀ other, second = .ok other → ∃ value, first = .ok value) :
    Alike Same first second := by
  cases first with
  | ok value =>
    obtain ⟨other, rfl, same⟩ := there value rfl
    exact .ok same
  | error error =>
    cases second with
    | ok other =>
      obtain ⟨value, given⟩ := back other rfl
      exact nomatch given
    | error error => exact .error

theorem of_ok_iff {first : Except ε Unit} {second : Except δ Unit}
    (both : first = .ok () ↔ second = .ok ()) : Alike Eq first second :=
  .of_exists (fun _ passes => ⟨(), both.mp passes, rfl⟩) fun _ passes => ⟨(), both.mpr passes⟩

theorem mono {After : α → β → Prop} {first : Except ε α} {second : Except δ β}
    (alike : Alike Same first second)
    (weaker : ∀ value other, Same value other → After value other) :
    Alike After first second := by
  cases alike with
  | ok same => exact .ok (weaker _ _ same)
  | error => exact .error

/-- The next steps may use that the first ones gave their answers. -/
theorem bindRun {After : γ → η → Prop} {first : Except ε α} {second : Except δ β}
    {next : α → Except ε γ} {other : β → Except δ η} (alike : Alike Same first second)
    (after : ∀ value image, first = .ok value → second = .ok image → Same value image →
      Alike After (next value) (other image)) :
    Alike After (first >>= next) (second >>= other) := by
  cases alike with
  | ok same => exact after _ _ rfl rfl same
  | error => exact .error

theorem bind {After : γ → η → Prop} {first : Except ε α} {second : Except δ β}
    {next : α → Except ε γ} {other : β → Except δ η} (alike : Alike Same first second)
    (after : ∀ value image, Same value image → Alike After (next value) (other image)) :
    Alike After (first >>= next) (second >>= other) :=
  alike.bindRun fun value image _ _ same => after value image same

theorem bindEq {After : γ → η → Prop} {first : Except ε α} {second : Except δ α}
    {next : α → Except ε γ} {other : α → Except δ η} (alike : Alike Eq first second)
    (after : ∀ value, Alike After (next value) (other value)) :
    Alike After (first >>= next) (second >>= other) :=
  alike.bind fun value _ same => same ▸ after value

theorem map {first : Except ε α} {second : Except δ α} (change : α → γ)
    (alike : Alike Eq first second) : Alike Eq (change <$> first) (change <$> second) := by
  cases alike with
  | ok same => exact .ok (congrArg change same)
  | error => exact .error

theorem mapError {first : Except ε α} {second : Except δ β} (change : ε → ι) (other : δ → ι)
    (alike : Alike Same first second) :
    Alike Same (first.mapError change) (second.mapError other) := by
  cases alike with
  | ok same => exact .ok same
  | error => exact .error

theorem ofSemantic {first : Except SemanticError α} {second : Except SemanticError β}
    (alike : Alike Same first second) :
    Alike Same (Outcome.ofSemantic first) (Outcome.ofSemantic second) :=
  alike.mapError _ _

end Laws

theorem forall₂_mapM {ε δ α β γ : Type} {Same : α → β → Prop} {items : List α} {others : List β}
    (rows : List.Forall₂ Same items others) {first : α → Except ε γ} {second : β → Except δ γ}
    (each : ∀ item other, Same item other → Alike Eq (first item) (second other)) :
    Alike Eq (items.mapM first) (others.mapM second) := by
  induction rows with
  | nil => exact .ok rfl
  | cons same _ inductionHypothesis =>
    rw [List.mapM_cons, List.mapM_cons]
    exact (each _ _ same).bindEq fun _ => inductionHypothesis.bindEq fun _ => .ok rfl

end Alike

end BehaviourScript
