/-
This file carries likeness through the checks of the analysis. A check asks that
names are distinct, that names are among others and that expressions have
values, and like scripts agree on all of these; so the one passes exactly if the
other does, although the first fault found may be another.
-/

import BehaviourScript.Proofs.Checks
import BehaviourScript.Proofs.Likeness.Consts

namespace BehaviourScript

open Outcome

variable {Consts States : String → String → Prop}

/-! ### Attributes -/

namespace Attribute.Kind.Like

variable {first second : Kind}

theorem name_eq (like : first.Like Consts States second) : first.name = second.name := by
  cases like <;> rfl

theorem allows_eq (like : first.Like Consts States second) (placement : Placement) :
    placement.allows first = placement.allows second := by
  cases like <;> rfl

end Attribute.Kind.Like

/-- Whether some item of a row passes a test does not depend on its order. -/
theorem Shuffled.any_eq {α β : Type} {Same : α → β → Prop} {items : List α} {others : List β}
    (shuffled : Shuffled Same items others) {keep : α → Bool} {other : β → Bool}
    (each : ∀ item image, Same item image → keep item = other image) :
    items.any keep = others.any other := by
  have flags := (shuffled.map_perm each).any_eq (f := id)
  rwa [List.any_map, List.any_map] at flags

section Envs

variable {first second : Env} (env : first.Like Consts second)

include env

/-- Expressions that are alike have a value both or not at all. -/
theorem Expr.Like.hasValue_iff {left right : Expr} (like : left.Like Consts right) :
    first.HasValue left ↔ second.HasValue right := by
  have values := like.eval env
  exact ⟨fun ⟨value, done⟩ => ⟨value, values.eq_ok done⟩,
    fun ⟨value, done⟩ => ⟨value, values.symm.eq_ok done⟩⟩

theorem Expr.Like.check_iff {left right : Expr} (like : left.Like Consts right) :
    first.checkExpr left = .ok () ↔ second.checkExpr right = .ok () := by
  rw [Env.checkExpr_eq_ok, Env.checkExpr_eq_ok, like.hasValue_iff env]

theorem ControlPacket.Like.check_iff {packet image : ControlPacket}
    (like : packet.Like Consts image) :
    first.checkControlPacket packet = .ok () ↔ second.checkControlPacket image = .ok () := by
  rw [Env.checkControlPacket_eq_ok, Env.checkControlPacket_eq_ok]
  refine and_congr (and_congr ?_ ?_) ?_
  · exact (like.settings.map_perm fun _ _ => Assign.Like.name).nodup_iff
  · refine like.settings.forall_mem_iff fun setting other same => ?_
    rw [same.name, same.value.hasValue_iff env]
  · exact forall_mem_iff_of_forall₂ like.data fun _ _ same => same.hasValue_iff env

/-- Attributes that are alike pass their checks alike. -/
theorem Attribute.Kind.Like.check_iff {kind image : Attribute.Kind}
    (like : kind.Like Consts States image) :
    first.checkAttributeKind kind = .ok () ↔ second.checkAttributeKind image = .ok () := by
  cases like with
  | controlPacket like => exact like.check_iff env
  | startFrom | nonBlocking | skipFirstBody => exact Iff.rfl
  | globalIndex like | priority like | instanceType like | useObjectSlot like | unknown like =>
    exact like.check_iff env

/-- Attributes in another order pass the checks alike. -/
theorem attributes_check_iff (placement : Placement) {attributes others : List Attribute}
    (like : Shuffled (Attribute.Like Consts States) attributes others) :
    first.checkAttributes placement attributes = .ok () ↔
      second.checkAttributes placement others = .ok () := by
  rw [Env.checkAttributes_eq_ok, Env.checkAttributes_eq_ok]
  refine and_congr ?_ ?_
  · exact (like.map_perm fun _ _ => Attribute.Kind.Like.name_eq).nodup_iff
  · refine like.forall_mem_iff fun attr other same => ?_
    rw [Attribute.Kind.Like.allows_eq same, Attribute.Kind.Like.check_iff env same]

/-! ### Commands and states -/

theorem commands_check_iff {commands others : List Command}
    (like : List.Forall₂ (Command.Like Consts) commands others) :
    (∀ command ∈ commands, ∀ arg ∈ command.args, first.HasValue arg) ↔
      ∀ command ∈ others, ∀ arg ∈ command.args, second.HasValue arg :=
  forall_mem_iff_of_forall₂ like fun _ _ same =>
    forall_mem_iff_of_forall₂ same.args fun _ _ arg => arg.hasValue_iff env

theorem Assigner.Like.check_iff {assigner image : Assigner} (like : assigner.Like Consts image) :
    first.checkAssigner assigner = .ok () ↔ second.checkAssigner image = .ok () := by
  rw [Env.checkAssigner_eq_ok, Env.checkAssigner_eq_ok]
  refine and_congr ?_ ?_
  · exact (like.fields.map_perm fun _ _ => Assign.Like.name).nodup_iff
  · refine like.fields.forall_mem_iff fun field other same => ?_
    rw [same.name, same.value.hasValue_iff env]

section States

variable (unique : Relator.BiUnique States) {names others : List String}
  (states : List.Forall₂ States names others)

include unique states

/-- Bodies that are alike pass the checks alike. -/
theorem StateBody.Like.check_iff {body image : StateBody} (like : body.Like Consts States image) :
    first.checkBody names body = .ok () ↔ second.checkBody others image = .ok () := by
  rw [Env.checkBody_eq_ok, Env.checkBody_eq_ok]
  refine and_congr ?_ (and_congr (commands_check_iff env like.commands) ?_)
  · exact forall_mem_iff_of_rel like.condition fun _ _ test =>
      forall_mem_iff_of_rel test.parameter fun _ _ same => same.hasValue_iff env
  · exact forall_mem_iff_of_rel like.jump fun _ _ target => List.rel_mem unique target states

/-- States that are alike pass the checks alike. -/
theorem State.Like.check_iff {state image : State} (like : state.Like Consts States image) :
    first.checkState names state = .ok () ↔ second.checkState others image = .ok () := by
  have slot : state.usesObjectSlot = image.usesObjectSlot := by
    refine like.attributes.any_eq fun attr other same => ?_
    obtain ⟨kind, _⟩ := attr
    obtain ⟨otherKind, _⟩ := other
    change kind.Like Consts States otherKind at same
    cases same <;> rfl
  rw [Env.checkState_eq_ok, Env.checkState_eq_ok, slot, like.target]
  refine and_congr (attributes_check_iff env .state like.attributes) (and_congr_right fun _ => ?_)
  exact forall_mem_iff_of_forall₂ like.bodies fun _ _ same => same.check_iff env unique states

end States

/-! ### Behaviours and sequences -/

/-- Behaviours that are alike pass the checks alike, if no two states share a name in one of them
only. -/
theorem Behaviour.LikeBy.check_iff (unique : Relator.BiUnique States) {behaviour image : Behaviour}
    (like : behaviour.LikeBy Consts States image) (placement : Placement) :
    first.checkBehaviour placement behaviour = .ok () ↔
      second.checkBehaviour placement image = .ok () := by
  have names : List.Forall₂ States (behaviour.states.map State.name)
      (image.states.map State.name) := by
    rw [List.forall₂_map_left_iff, List.forall₂_map_right_iff]
    exact like.states.imp fun _ _ => State.Like.name
  rw [Env.checkBehaviour_eq_ok, Env.checkBehaviour_eq_ok]
  refine and_congr (attributes_check_iff env placement like.attributes) ?_
  refine and_congr (List.rel_nodup unique names) (and_congr ?_ (and_congr ?_ ?_))
  · refine like.attributes.forall_mem_iff fun attr other same => ?_
    obtain ⟨kind, _⟩ := attr
    obtain ⟨otherKind, _⟩ := other
    change kind.Like Consts States otherKind at same
    cases same with
    | startFrom states =>
      simp only [Attribute.Kind.startFrom.injEq, forall_eq']
      exact List.rel_mem unique states names
    | _ => exact iff_of_true nofun nofun
  · exact forall_mem_iff_of_rel like.starter fun _ _ setup =>
      forall_mem_iff_of_forall₂ setup fun _ _ same => same.check_iff env
  · exact forall_mem_iff_of_forall₂ like.states fun _ _ same => same.check_iff env unique names

theorem Behaviour.Like.check_iff {behaviour image : Behaviour} (like : behaviour.Like Consts image)
    (placement : Placement) :
    first.checkBehaviour placement behaviour = .ok () ↔
      second.checkBehaviour placement image = .ok () := by
  obtain ⟨States, unique, like⟩ := like
  exact like.check_iff env unique placement

theorem Sequence.Like.check_iff {sequence image : Sequence} (like : sequence.Like Consts image) :
    first.checkSequence sequence = .ok () ↔ second.checkSequence image = .ok () := by
  rw [Env.checkSequence_eq_ok, Env.checkSequence_eq_ok]
  refine and_congr (attributes_check_iff env .sequence like.attributes) (and_congr ?_ ?_)
  · exact forall_mem_iff_of_forall₂ like.packs fun _ _ same => commands_check_iff env same.commands
  · exact commands_check_iff env like.commands

end Envs

/-! ### Scripts -/

theorem Behaviour.Like.name_eq {behaviour image : Behaviour} (like : behaviour.Like Consts image) :
    behaviour.name = image.name := by
  obtain ⟨States, _, like⟩ := like
  exact like.name

namespace Library.Like

variable {library image : Library} (like : library.Like Consts image)

include like

/-- Libraries that are alike have behaviours of the same names. -/
theorem names_eq : library.behaviours.map Behaviour.name = image.behaviours.map Behaviour.name :=
  map_eq_of_forall₂ like.behaviours fun _ _ => Behaviour.Like.name_eq

variable {first second : SymbolTable} (tables : first.Like Consts second)

include tables

theorem behaviours_check_iff :
    (∀ behaviour ∈ library.behaviours,
      (first.behaviourEnv behaviour.name).checkBehaviour .libraryBehaviour behaviour = .ok ()) ↔
    ∀ behaviour ∈ image.behaviours,
      (second.behaviourEnv behaviour.name).checkBehaviour .libraryBehaviour behaviour = .ok () := by
  refine forall_mem_iff_of_forall₂ like.behaviours fun behaviour other same => ?_
  rw [same.name_eq]
  exact same.check_iff (tables.behaviourEnv other.name) .libraryBehaviour

theorem check_iff : first.checkLibrary library = .ok () ↔ second.checkLibrary image = .ok () := by
  rw [SymbolTable.checkLibrary_eq_ok, SymbolTable.checkLibrary_eq_ok, like.names_eq]
  refine and_congr (attributes_check_iff tables.rootEnv .library like.attributes) ?_
  exact and_congr_right' (like.behaviours_check_iff tables)

end Library.Like

/-- Scripts that are alike pass the checks alike. -/
theorem Script.Like.check_iff {script image : Script} (like : script.Like Consts image)
    {first second : SymbolTable} (tables : first.Like Consts second) :
    first.check script = .ok () ↔ second.check image = .ok () := by
  cases like with
  | library like => exact like.check_iff tables
  | behaviour like => exact like.check_iff tables.rootEnv .behaviour
  | sequence like => exact like.check_iff tables.rootEnv

end BehaviourScript
