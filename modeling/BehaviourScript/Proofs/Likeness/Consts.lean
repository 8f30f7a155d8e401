/-
This file carries likeness through const lists. Names enter the sorting of a list
and the building of its scope only by being equal or not, so if names stand for
each other one by one, like lists are sorted alike and built to scopes in which
names that stand for each other have the same values.
-/

import BehaviourScript.Analysis
import BehaviourScript.Proofs.Consts.Order
import BehaviourScript.Proofs.Likeness.Form
import BehaviourScript.Proofs.Alike
import Mathlib.Data.List.Nodup

namespace BehaviourScript

/-! ### Scopes -/

section Scopes

variable (Consts : String → String → Prop)

/-- Names that stand for each other have the same values. -/
def Scope.Like (first second : Scope) : Prop :=
  ∀ ⦃name image⦄, Consts name image → first.values name = second.values image

/-- The same of scopes that may be missing. -/
def OuterLike (first second : Option Scope) : Prop :=
  ∀ ⦃name image⦄, Consts name image →
    first.bind (·.values name) = second.bind (·.values image)

def Env.Like (first second : Env) : Prop :=
  ∀ ⦃name image⦄, Consts name image → first.value? name = second.value? image

/-- The scopes of behaviours go by names that are the same in both tables. -/
structure SymbolTable.Like (first second : SymbolTable) : Prop where
  root : first.root.Like Consts second.root
  children : ∀ name, Option.Rel (Scope.Like Consts) (first.child? name) (second.child? name)

end Scopes

variable {Consts : String → String → Prop}

theorem Env.like {first second : Env} (inner : first.inner.Like Consts second.inner)
    (outer : OuterLike Consts first.outer second.outer) : first.Like Consts second := by
  intro name image names
  rw [value?_eq, value?_eq, inner names, outer names]

/-- Scopes that are alike have names that are alike. -/
theorem OuterLike.any_contains {first second : Option Scope}
    (like : OuterLike Consts first second) {name image : String} (names : Consts name image) :
    first.any (·.contains name) = second.any (·.contains image) := by
  rw [any_contains_eq, any_contains_eq, like names]

namespace SymbolTable.Like

variable {first second : SymbolTable}

theorem ofScope {scope other : Scope} (like : scope.Like Consts other) :
    Like Consts (.ofScope scope) (.ofScope other) where
  root := like
  children _ := .none

/-- Tables that are alike remain so with scopes that are alike. -/
theorem addChild (like : first.Like Consts second) {behaviour image : String}
    (named : behaviour = image) {scope other : Scope} (child : scope.Like Consts other) :
    Like Consts (first.addChild behaviour scope) (second.addChild image other) where
  root := like.root
  children name := by
    subst named
    unfold SymbolTable.child? SymbolTable.addChild
    by_cases found : name = behaviour
    · rw [found, Assoc.get?_set_self, Assoc.get?_set_self]
      exact .some child
    · rw [Assoc.get?_set_other found, Assoc.get?_set_other found]
      exact like.children name

theorem rootEnv (like : first.Like Consts second) : first.rootEnv.Like Consts second.rootEnv :=
  Env.like like.root fun _ _ _ => rfl

/-- A behaviour sees scopes that are alike. -/
theorem behaviourEnv (like : first.Like Consts second) (behaviour : String) :
    (first.behaviourEnv behaviour).Like Consts (second.behaviourEnv behaviour) := by
  have children := like.children behaviour
  unfold SymbolTable.behaviourEnv
  generalize first.child? behaviour = child at children
  generalize second.child? behaviour = other at children
  cases children with
  | some scopes => exact Env.like scopes like.root
  | none => exact like.rootEnv

/-- Where names stand for themselves, tables that are alike are the same. -/
theorem same (like : first.Like Eq second) : first.Same second where
  root _ := like.root rfl
  children name := rel_imp (like.children name) fun _ _ scopes _ => scopes rfl

end SymbolTable.Like

theorem Scope.Same.like {first second : Scope} (same : first.Same second) :
    first.Like Eq second := by
  rintro name _ rfl
  exact same name

theorem Env.Same.like {first second : Env} (same : first.Same second) : first.Like Eq second := by
  rintro name _ rfl
  exact same name

theorem SymbolTable.Same.like {first second : SymbolTable} (same : first.Same second) :
    first.Like Eq second where
  root := same.root.like
  children name := rel_imp (same.children name) fun _ _ => Scope.Same.like

/-! ### Expressions -/

/-- Whether a value is in range does not depend on where it stands. -/
theorem confine_alike (span other : Span) (value : Int) :
    Alike Eq (confine span value) (confine other value) := by
  unfold confine
  split
  · exact .ok rfl
  · exact .error

namespace Expr.Like

variable {left right : Expr}

/-- Expressions that are alike have the same value, or neither has one. -/
theorem eval (like : left.Like Consts right) {first second : Env}
    (env : first.Like Consts second) : Alike Eq (first.eval left) (second.eval right) := by
  induction like with
  | number => exact confine_alike _ _ _
  | @const name image span other names =>
    unfold Env.eval
    rw [env names]
    cases second.value? image with
    | none => exact .error
    | some value => exact confine_alike span other value
  | neg _ inductionHypothesis =>
    exact inductionHypothesis.bindEq fun value => confine_alike _ _ _
  | binary _ _ leftHypothesis rightHypothesis =>
    exact leftHypothesis.bindEq fun _ => rightHypothesis.bindEq fun _ => confine_alike _ _ _

/-- Expressions that are alike name consts that are alike, in the same order. -/
theorem references (like : left.Like Consts right) :
    List.Forall₂ Consts (left.references.map Prod.fst) (right.references.map Prod.fst) := by
  induction like with
  | number => exact .nil
  | const names => exact .cons names .nil
  | neg _ inductionHypothesis => exact inductionHypothesis
  | binary _ _ leftHypothesis rightHypothesis =>
    simp only [Expr.references, List.map_append]
    exact List.rel_append leftHypothesis rightHypothesis

end Expr.Like

/-! ### Const lists -/

section Lists

variable (unique : Relator.BiUnique Consts)

include unique

/-- Scopes that are alike remain so with one const more. -/
theorem Scope.Like.insert {first second : Scope} (like : first.Like Consts second)
    {name image : String} (names : Consts name image) {const other : Const}
    (equal : const.value = other.value) :
    (first.insert name const).Like Consts (second.insert image other) := by
  intro asked found askedNames
  have together : asked = name ↔ found = image := Relator.rel_eq unique askedNames names
  by_cases same : asked = name
  · rw [same, together.mp same, values_insert_self, values_insert_self, equal]
  · rw [values_insert_other _ same, values_insert_other _ (together.not.mp same), like askedNames]

namespace ConstDecl.Like

variable {first second : ConstDecl}

theorem names_iff (like : first.Like Consts second) {name image : String}
    (names : Consts name image) : first.Names name ↔ second.Names image :=
  List.rel_mem unique names like.value.references

end ConstDecl.Like

namespace ConstOrder

variable {decls others : List ConstDecl} (like : List.Forall₂ (ConstDecl.Like Consts) decls others)

include like

omit unique in
theorem names_like :
    List.Forall₂ Consts (decls.map ConstDecl.name) (others.map ConstDecl.name) := by
  rw [List.forall₂_map_left_iff, List.forall₂_map_right_iff]
  exact like.imp fun _ _ => ConstDecl.Like.name

theorem firstRepeated?_like :
    firstRepeated? [] decls = none ↔ firstRepeated? [] others = none := by
  rw [firstRepeated?_eq_none, firstRepeated?_eq_none]
  refine and_congr (List.rel_nodup unique (names_like like)) ?_
  exact iff_of_true (fun _ _ => List.not_mem_nil) fun _ _ => List.not_mem_nil

/-- Names that are alike are declared alike. -/
theorem isDeclared_like {first second : Option Scope} (outer : OuterLike Consts first second)
    {name image : String} (names : Consts name image) :
    isDeclared decls first name = true ↔ isDeclared others second image = true := by
  rw [isDeclared_iff, isDeclared_iff, outer.any_contains names]
  exact or_congr_left (List.rel_mem unique names (names_like like))

theorem firstUndefined?_like {first second : Option Scope} (outer : OuterLike Consts first second) :
    firstUndefined? decls first = none ↔ firstUndefined? others second = none := by
  rw [firstUndefined?_eq_none, firstUndefined?_eq_none]
  refine forall_mem_iff_of_forall₂ like fun decl other same => ?_
  exact forall_mem_iff_of_forall₂ same.value.references fun name image names =>
    isDeclared_like unique like outer names

end ConstOrder

/-- Entries of two lists whose declarations are alike. -/
def PlacedLike (Consts : String → String → Prop) (first second : Placed) : Prop :=
  first.1.Like Consts second.1

namespace ConstOrder

omit unique in
theorem find?_like {α β : Type} {Same : α → β → Prop} {items : List α} {others : List β}
    (rows : List.Forall₂ Same items others) {keep : α → Bool} {other : β → Bool}
    (each : ∀ item image, Same item image → keep item = other image) :
    Option.Rel Same (items.find? keep) (others.find? other) ∧
      List.Forall₂ Same (items.eraseP keep) (others.eraseP other) := by
  induction rows with
  | nil => exact ⟨.none, .nil⟩
  | @cons item image items others same rows inductionHypothesis =>
    have kept := each item image same
    rw [List.find?_cons, List.find?_cons, List.eraseP_cons, List.eraseP_cons, ← kept]
    cases keep item with
    | true => exact ⟨.some same, rows⟩
    | false => exact ⟨inductionHypothesis.1, .cons same inductionHypothesis.2⟩

/-- Declarations that are alike are ready at the same time. -/
theorem isReady_like {waiting others : List Placed}
    (rows : List.Forall₂ (PlacedLike Consts) waiting others) {entry other : Placed}
    (like : PlacedLike Consts entry other) : isReady waiting entry = isReady others other := by
  rw [Bool.eq_iff_iff, isReady_iff, isReady_iff]
  exact forall_mem_iff_of_forall₂ rows fun _ _ same =>
    not_congr (ConstDecl.Like.names_iff unique like same.name)

/-- Like lists are taken in the same order, and the same places are left over. -/
theorem settle_like {waiting others : List Placed}
    (rows : List.Forall₂ (PlacedLike Consts) waiting others) :
    List.Forall₂ (PlacedLike Consts) (settle waiting).1 (settle others).1 ∧
      List.Forall₂ (PlacedLike Consts) (settle waiting).2 (settle others).2 := by
  induction waiting using settle.induct generalizing others with
  | case1 waiting found =>
    have next := (find?_like rows fun _ _ => isReady_like unique rows).1
    rw [found] at next
    cases other : others.find? (isReady others) with
    | none =>
      rw [settle_of_none found, settle_of_none other]
      exact ⟨.nil, rows⟩
    | some image =>
      rw [other] at next
      cases next
  | case2 waiting entry found _ _ _ inductionHypothesis =>
    obtain ⟨next, rest⟩ := find?_like rows fun _ _ => isReady_like unique rows
    rw [found] at next
    cases other : others.find? (isReady others) with
    | none =>
      rw [other] at next
      cases next
    | some image =>
      rw [other] at next
      cases next with
      | some same =>
        rw [settle_of_some found, settle_of_some other]
        exact ⟨.cons same (inductionHypothesis rest).1, (inductionHypothesis rest).2⟩

end ConstOrder

/-- Lists that are alike are put in the same order, or neither is. -/
theorem sortConsts_like {decls others : List ConstDecl}
    (like : List.Forall₂ (ConstDecl.Like Consts) decls others) {first second : Option Scope}
    (outer : OuterLike Consts first second) :
    Alike (List.Forall₂ (PlacedLike Consts)) (sortConsts decls first)
      (sortConsts others second) := by
  have indexed (start : Nat) :
      List.Forall₂ (PlacedLike Consts) (decls.zipIdx start) (others.zipIdx start) := by
    induction like generalizing start with
    | nil => exact .nil
    | cons same _ inductionHypothesis => exact .cons same (inductionHypothesis _)
  obtain ⟨placed, stuck⟩ := ConstOrder.settle_like unique (indexed 0)
  have once := ConstOrder.firstRepeated?_like unique like
  have known := ConstOrder.firstUndefined?_like unique like outer
  refine .of_exists (fun value sorted => ?_) fun other sorted => ?_
  · obtain ⟨first, second, settled⟩ := sortConsts_eq_ok_iff.mp sorted
    rw [settled] at placed stuck
    have done : ConstOrder.settle others.zipIdx = ((ConstOrder.settle others.zipIdx).1, []) :=
      Prod.ext rfl (List.forall₂_nil_left_iff.mp stuck)
    exact ⟨_, sortConsts_eq_ok_iff.mpr ⟨once.mp first, known.mp second, done⟩, placed⟩
  · obtain ⟨first, second, settled⟩ := sortConsts_eq_ok_iff.mp sorted
    rw [settled] at stuck
    have done : ConstOrder.settle decls.zipIdx = ((ConstOrder.settle decls.zipIdx).1, []) :=
      Prod.ext rfl (List.forall₂_nil_right_iff.mp stuck)
    exact ⟨_, sortConsts_eq_ok_iff.mpr ⟨once.mpr first, known.mpr second, done⟩⟩

/-- Declarations that are alike make scopes that are alike. -/
theorem Scope.extend_like {placed others : List Placed}
    (like : List.Forall₂ (PlacedLike Consts) placed others) {first second : Option Scope}
    (outer : OuterLike Consts first second) {scope other : Scope}
    (inner : scope.Like Consts other) :
    Alike (Scope.Like Consts) (Scope.extend first scope placed)
      (Scope.extend second other others) := by
  induction like generalizing scope other with
  | nil => exact .ok inner
  | cons same _ inductionHypothesis =>
    have env : Env.Like Consts ⟨scope, first⟩ ⟨other, second⟩ := Env.like inner outer
    exact (same.value.eval env).bindEq fun value =>
      inductionHypothesis (inner.insert unique same.name rfl)

/-- Lists that are alike make scopes that are alike, or neither makes one. -/
theorem buildScope_like {decls others : List ConstDecl}
    (like : List.Forall₂ (ConstDecl.Like Consts) decls others) {first second : Option Scope}
    (outer : OuterLike Consts first second) :
    Alike (fun built again => List.Forall₂ (ConstDecl.Like Consts) built.1 again.1 ∧
        built.2.Like Consts again.2)
      (buildScope decls first) (buildScope others second) := by
  refine (sortConsts_like unique like outer).bind fun placed again sorted => ?_
  refine (Scope.extend_like unique sorted outer fun _ _ _ => rfl).bind fun _ _ extended => ?_
  refine .ok ⟨?_, extended⟩
  rw [List.forall₂_map_left_iff, List.forall₂_map_right_iff]
  exact sorted

/-! ### The tables of scripts -/

theorem buildChildren_like {behaviours others : List Behaviour}
    (like : List.Forall₂ (Behaviour.Like Consts) behaviours others) {first second : SymbolTable}
    (tables : first.Like Consts second) :
    Alike (fun built again => List.Forall₂ (Behaviour.Like Consts) built.1 again.1 ∧
        built.2.Like Consts again.2)
      (buildChildren first behaviours) (buildChildren second others) := by
  induction like generalizing first second with
  | nil => exact .ok ⟨.nil, tables⟩
  | @cons behaviour other _ _ same _ inductionHypothesis =>
    obtain ⟨States, statesUnique, same⟩ := same
    have outer : OuterLike Consts (some first.root) (some second.root) := tables.root
    refine (buildScope_like unique same.consts outer).bind fun _ _ scopes => ?_
    refine (inductionHypothesis (tables.addChild same.name scopes.2)).bind fun _ _ rest => ?_
    exact .ok ⟨.cons ⟨States, statesUnique, { same with consts := scopes.1 }⟩ rest.1, rest.2⟩

/-- Scripts that are alike have tables that are alike, or neither has one. -/
theorem buildTable_like {script other : Script} (like : script.Like Consts other) :
    Alike (fun built again => built.1.Like Consts again.1 ∧ built.2.Like Consts again.2)
      (buildTable script) (buildTable other) := by
  have outer : OuterLike Consts none none := fun _ _ _ => rfl
  cases like with
  | library like =>
    refine (buildScope_like unique like.consts outer).bind fun _ _ scopes => ?_
    refine (buildChildren_like unique like.behaviours (.ofScope scopes.2)).bind fun _ _ tables => ?_
    exact .ok ⟨.library { like with consts := scopes.1, behaviours := tables.1 }, tables.2⟩
  | behaviour like =>
    obtain ⟨States, statesUnique, like⟩ := like
    refine (buildScope_like unique like.consts outer).bind fun _ _ scopes => ?_
    refine .ok ⟨.behaviour ⟨States, statesUnique, ?_⟩, .ofScope scopes.2⟩
    exact { like with consts := scopes.1 }
  | sequence like =>
    refine (buildScope_like unique like.consts outer).bind fun _ _ scopes => ?_
    exact .ok ⟨.sequence { like with consts := scopes.1 }, .ofScope scopes.2⟩

end Lists

end BehaviourScript
