/-
This file shows that the binary of a script does not depend on the places its
nodes were read from: of two scripts that differ in nothing else, either both
compile to the same bytes or neither compiles.
-/

import BehaviourScript.Proofs.Likeness.Scripts
import BehaviourScript.Proofs.Tree

namespace BehaviourScript

/-! ### Rows with the same image -/

section Rows

variable {α β : Type} {Same : α → α → Prop} {change : α → β}
  (each : ∀ ⦃item other⦄, change item = change other → Same item other)

include each

/-- Rows that look the same without their places are alike item by item. -/
theorem forall₂_of_map_eq {items others : List α} (same : items.map change = others.map change) :
    List.Forall₂ Same items others := by
  rw [← List.forall₂_eq_eq_eq, List.forall₂_map_left_iff, List.forall₂_map_right_iff] at same
  exact same.imp each

theorem rel_of_map_eq {item other : Option α} (same : item.map change = other.map change) :
    Option.Rel Same item other := by
  cases item with
  | none =>
    cases other with
    | none => exact .none
    | some value => cases same
  | some value =>
    cases other with
    | none => cases same
    | some image => exact .some (each (Option.some.inj same))

end Rows

/-! ### Nodes that differ in places only -/

/-- Expressions that differ in places only are alike. -/
theorem Expr.like_of_erase ⦃first second : Expr⦄ (same : first.erase = second.erase) :
    first.Like Eq second := by
  induction first generalizing second with
  | number value span =>
    cases second with
    | number other place =>
      cases Expr.number.inj same |>.1
      exact .number
    | _ => cases same
  | const name span =>
    cases second with
    | const other place => exact .const (Expr.const.inj same).1
    | _ => cases same
  | neg operand span inductionHypothesis =>
    cases second with
    | neg other place => exact .neg (inductionHypothesis (Expr.neg.inj same).1)
    | _ => cases same
  | binary op left right span leftHypothesis rightHypothesis =>
    cases second with
    | binary other leftImage rightImage place =>
      obtain ⟨rfl, leftSame, rightSame, _⟩ := Expr.binary.inj same
      exact .binary (leftHypothesis leftSame) (rightHypothesis rightSame)
    | _ => cases same

theorem Assign.like_of_erase ⦃first second : Assign⦄
    (same : first.mapExpr Expr.erase = second.mapExpr Expr.erase) : first.Like Eq second := by
  obtain ⟨name, value, _⟩ := Assign.mk.inj same
  exact {
    name := name
    value := Expr.like_of_erase value }

theorem ConstDecl.like_of_erase ⦃first second : ConstDecl⦄
    (same : first.mapExpr Expr.erase = second.mapExpr Expr.erase) : first.Like Eq second := by
  obtain ⟨name, value, _⟩ := ConstDecl.mk.inj same
  exact {
    name := name
    value := Expr.like_of_erase value }

theorem ControlPacket.like_of_erase ⦃first second : ControlPacket⦄
    (same : first.mapExpr Expr.erase = second.mapExpr Expr.erase) : first.Like Eq second := by
  obtain ⟨settings, data⟩ := ControlPacket.mk.inj same
  exact {
    settings := .ofForall₂ (forall₂_of_map_eq Assign.like_of_erase settings)
    data := forall₂_of_map_eq Expr.like_of_erase data }

/-- Attributes that differ in places only are alike. -/
theorem Attribute.Kind.like_of_erase ⦃first second : Kind⦄
    (same : first.mapExpr Expr.erase = second.mapExpr Expr.erase) : first.Like Eq Eq second := by
  cases first <;> cases second <;> injection same
  case globalIndex.globalIndex held => exact .globalIndex (Expr.like_of_erase held)
  case priority.priority held => exact .priority (Expr.like_of_erase held)
  case instanceType.instanceType held => exact .instanceType (Expr.like_of_erase held)
  case startFrom.startFrom held => exact .startFrom held
  case useObjectSlot.useObjectSlot held => exact .useObjectSlot (Expr.like_of_erase held)
  case controlPacket.controlPacket held => exact .controlPacket (ControlPacket.like_of_erase held)
  case nonBlocking.nonBlocking => exact .nonBlocking
  case skipFirstBody.skipFirstBody => exact .skipFirstBody
  case unknown.unknown held => exact .unknown (Expr.like_of_erase held)

theorem Attribute.like_of_erase ⦃first second : Attribute⦄
    (same : first.mapExpr Expr.erase = second.mapExpr Expr.erase) : first.Like Eq Eq second :=
  Kind.like_of_erase (congrArg Attribute.kind same)

theorem Condition.like_of_erase ⦃first second : Condition⦄
    (same : first.mapExpr Expr.erase = second.mapExpr Expr.erase) : first.Like Eq second := by
  obtain ⟨id, negate, parameter, _⟩ := Condition.mk.inj same
  exact {
    id := id
    negate := negate
    parameter := rel_of_map_eq Expr.like_of_erase parameter }

theorem Command.like_of_erase ⦃first second : Command⦄
    (same : first.mapExpr Expr.erase = second.mapExpr Expr.erase) : first.Like Eq second := by
  obtain ⟨id, args, _⟩ := Command.mk.inj same
  exact {
    id := id
    args := forall₂_of_map_eq Expr.like_of_erase args }

/-- Bodies that differ in places only are alike. -/
theorem StateBody.like_of_erase ⦃first second : StateBody⦄
    (same : first.mapExpr Expr.erase = second.mapExpr Expr.erase) : first.Like Eq Eq second := by
  obtain ⟨condition, commands, jump, _⟩ := StateBody.mk.inj same
  exact {
    condition := rel_of_map_eq Condition.like_of_erase condition
    commands := forall₂_of_map_eq Command.like_of_erase commands
    jump := jump ▸ rel_refl _ }

/-- States that differ in places only are alike. -/
theorem State.like_of_erase ⦃first second : State⦄
    (same : first.mapExpr Expr.erase = second.mapExpr Expr.erase) : first.Like Eq Eq second := by
  obtain ⟨attributes, name, target, bodies, _⟩ := State.mk.inj same
  exact {
    attributes := .ofForall₂ (forall₂_of_map_eq Attribute.like_of_erase attributes)
    name := name
    target := target
    bodies := forall₂_of_map_eq StateBody.like_of_erase bodies }

theorem Assigner.like_of_erase ⦃first second : Assigner⦄
    (same : first.mapExpr Expr.erase = second.mapExpr Expr.erase) : first.Like Eq second := by
  obtain ⟨object, fields, _⟩ := Assigner.mk.inj same
  exact {
    object := object
    fields := .ofForall₂ (forall₂_of_map_eq Assign.like_of_erase fields) }

theorem Starter.like_of_erase ⦃first second : Starter⦄
    (same : first.mapExpr Expr.erase = second.mapExpr Expr.erase) : first.Like Eq second :=
  forall₂_of_map_eq Assigner.like_of_erase (Starter.mk.inj same).1

/-- Behaviours that differ in places only are alike. -/
theorem Behaviour.likeBy_of_erase ⦃first second : Behaviour⦄
    (same : first.mapExpr Expr.erase = second.mapExpr Expr.erase) : first.LikeBy Eq Eq second := by
  obtain ⟨attributes, name, consts, starter, states, _⟩ := Behaviour.mk.inj same
  exact {
    attributes := .ofForall₂ (forall₂_of_map_eq Attribute.like_of_erase attributes)
    name := name
    consts := forall₂_of_map_eq ConstDecl.like_of_erase consts
    starter := rel_of_map_eq Starter.like_of_erase starter
    states := forall₂_of_map_eq State.like_of_erase states }

theorem Behaviour.like_of_erase ⦃first second : Behaviour⦄
    (same : first.mapExpr Expr.erase = second.mapExpr Expr.erase) : first.Like Eq second :=
  ⟨Eq, biUnique_eq, likeBy_of_erase same⟩

theorem CommandPack.like_of_erase ⦃first second : CommandPack⦄
    (same : first.mapExpr Expr.erase = second.mapExpr Expr.erase) : first.Like Eq second := by
  obtain ⟨script, commands, _⟩ := CommandPack.mk.inj same
  exact {
    script := script
    commands := forall₂_of_map_eq Command.like_of_erase commands }

theorem Sequence.like_of_erase ⦃first second : Sequence⦄
    (same : first.mapExpr Expr.erase = second.mapExpr Expr.erase) : first.Like Eq second := by
  obtain ⟨attributes, name, consts, packs, commands, _⟩ := Sequence.mk.inj same
  exact {
    attributes := .ofForall₂ (forall₂_of_map_eq Attribute.like_of_erase attributes)
    name := name
    consts := forall₂_of_map_eq ConstDecl.like_of_erase consts
    packs := forall₂_of_map_eq CommandPack.like_of_erase packs
    commands := forall₂_of_map_eq Command.like_of_erase commands }

theorem Library.like_of_erase ⦃first second : Library⦄
    (same : first.mapExpr Expr.erase = second.mapExpr Expr.erase) : first.Like Eq second := by
  obtain ⟨attributes, name, consts, behaviours, _⟩ := Library.mk.inj same
  exact {
    attributes := .ofForall₂ (forall₂_of_map_eq Attribute.like_of_erase attributes)
    name := name
    consts := forall₂_of_map_eq ConstDecl.like_of_erase consts
    behaviours := forall₂_of_map_eq Behaviour.like_of_erase behaviours }

/-- Scripts that differ in places only are alike. -/
theorem Script.like_of_erase {first second : Script} (same : first.erase = second.erase) :
    first.Like Eq second := by
  cases first <;> cases second <;> injection same
  case library.library held => exact .library (Library.like_of_erase held)
  case behaviour.behaviour held => exact .behaviour (Behaviour.like_of_erase held)
  case sequence.sequence held => exact .sequence (Sequence.like_of_erase held)

/-- Scripts that differ in places only have the same binary. -/
theorem assemble_alike (resolvers : CompileResolvers) {script other : Script}
    (same : script.erase = other.erase) :
    Alike Eq (assemble resolvers script) (assemble resolvers other) :=
  (Script.like_of_erase same).assemble_alike biUnique_eq resolvers

end BehaviourScript
