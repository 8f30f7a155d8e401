/-
This file says what the sorting of a const list comes to. The sorted list holds
the same declarations, none of which names itself or one behind it. A list can
be sorted exactly if no name is declared twice, every name it uses is declared,
and names can be given ranks that sink from a declaration to those it names.
None of these conditions sees the order in which the list is given.
-/

import BehaviourScript.Proofs.Consts.Queue
import BehaviourScript.Proofs.Consts.Scopes
import BehaviourScript.Proofs.Outcomes
import Mathlib.Data.List.Perm.Basic

namespace BehaviourScript

/-- The value of a declaration uses a const of this name. -/
def ConstDecl.Names (decl : ConstDecl) (name : String) : Prop :=
  name ∈ decl.value.references.map Prod.fst

/-- No declaration of a row names itself or one behind it. -/
inductive InOrder : List ConstDecl → Prop
  | nil : InOrder []
  | cons {first : ConstDecl} {rest : List ConstDecl}
      (free : ∀ other ∈ first :: rest, ¬first.Names other.name) (behind : InOrder rest) :
      InOrder (first :: rest)

/-- A rank for each name that sinks from a declaration to the declarations it names. -/
def Ranked (rank : String → Nat) (decls : List ConstDecl) : Prop :=
  ∀ decl ∈ decls, ∀ other ∈ decls, decl.Names other.name → rank other.name < rank decl.name

/-- What a const list must satisfy to be sorted. -/
structure Sortable (decls : List ConstDecl) (outer : Option Scope) : Prop where
  distinct : (decls.map ConstDecl.name).Nodup
  declared : ∀ decl ∈ decls, ∀ name, decl.Names name →
    ConstOrder.isDeclared decls outer name = true
  acyclic : ∃ rank, Ranked rank decls

namespace Ranked

variable {rank : String → Nat} {decls : List ConstDecl}

theorem subset {others : List ConstDecl} (ranked : Ranked rank decls)
    (inside : ∀ decl ∈ others, decl ∈ decls) : Ranked rank others :=
  fun decl member other inOthers => ranked decl (inside decl member) other (inside other inOthers)

/-- A list in which every declaration names one of the list is empty: the rank of its members
could sink for ever. -/
theorem eq_nil (ranked : Ranked rank decls)
    (naming : ∀ decl ∈ decls, ∃ other ∈ decls, decl.Names other.name) : decls = [] := by
  have none (height : Nat) : ∀ decl ∈ decls, rank decl.name ≠ height := by
    induction height using Nat.strongRecOn with
    | _ height inductionHypothesis =>
      intro decl member same
      obtain ⟨other, inDecls, names⟩ := naming decl member
      have lower := ranked decl member other inDecls names
      exact inductionHypothesis (rank other.name) (same ▸ lower) other inDecls rfl
  exact List.eq_nil_iff_forall_not_mem.mpr fun decl member => none _ decl member rfl

end Ranked

/-- In a row that is in order the places of the names are ranks. -/
theorem InOrder.exists_ranked {decls : List ConstDecl} (ordered : InOrder decls)
    (distinct : (decls.map ConstDecl.name).Nodup) : ∃ rank, Ranked rank decls := by
  induction ordered with
  | nil => exact ⟨fun _ => 0, nofun⟩
  | @cons first rest free _ inductionHypothesis =>
    rw [List.map_cons, List.nodup_cons] at distinct
    obtain ⟨rank, ranked⟩ := inductionHypothesis distinct.2
    refine ⟨fun name => if name = first.name then 0 else rank name + 1, ?_⟩
    intro decl member other inDecls names
    rcases List.mem_cons.mp member with rfl | inRest
    · exact absurd names (free other inDecls)
    have different : decl.name ≠ first.name := fun same =>
      distinct.1 (same ▸ List.mem_map_of_mem inRest)
    by_cases same : other.name = first.name
    · simp only [if_pos same, if_neg different]
      exact Nat.succ_pos _
    · have behind : other ∈ rest :=
        (List.mem_cons.mp inDecls).resolve_left fun equal => same (equal ▸ rfl)
      simp only [if_neg same, if_neg different]
      exact Nat.succ_lt_succ (ranked decl inRest other behind names)

namespace ConstOrder

/-! ### Names that are declared -/

theorem firstUndefined?_eq_none {decls : List ConstDecl} {outer : Option Scope} :
    firstUndefined? decls outer = none ↔
      ∀ decl ∈ decls, ∀ name, decl.Names name → isDeclared decls outer name = true := by
  unfold firstUndefined? ConstDecl.Names
  rw [List.find?_eq_none]
  simp only [List.mem_flatMap, List.mem_map, Bool.not_eq_true, Bool.not_eq_false']
  constructor
  · rintro each decl member _ ⟨reference, used, rfl⟩
    exact each reference ⟨decl, member, used⟩
  · rintro each reference ⟨decl, member, used⟩
    exact each decl member _ ⟨reference, used, rfl⟩

theorem isDeclared_iff {decls : List ConstDecl} {outer : Option Scope} {name : String} :
    isDeclared decls outer name = true ↔
      name ∈ decls.map ConstDecl.name ∨ outer.any (·.contains name) = true := by
  unfold isDeclared
  rw [Bool.or_eq_true, List.any_eq_true, List.mem_map]
  simp only [beq_iff_eq]

/-! ### Taking the declarations that are ready -/

theorem isReady_iff {waiting : List Placed} {entry : Placed} :
    isReady waiting entry = true ↔ ∀ other ∈ waiting, ¬entry.1.Names other.1.name := by
  unfold isReady ConstDecl.Names
  simp only [List.all_eq_true, bne_iff_ne, List.mem_map, not_exists, not_and]
  exact ⟨fun each other member reference used same => each reference used other member same.symm,
    fun each reference used other member same => each other member reference used same.symm⟩

/-- What is placed comes out in order. -/
theorem settle_inOrder (waiting : List Placed) : InOrder ((settle waiting).1.map Prod.fst) := by
  induction waiting using settle.induct with
  | case1 waiting found =>
    rw [settle_of_none found]
    exact .nil
  | case2 waiting entry found _ _ _ inductionHypothesis =>
    have free := isReady_iff.mp (List.find?_some found)
    have parts := settle_perm waiting
    rw [settle_of_some found] at parts ⊢
    refine .cons (fun other member => ?_) inductionHypothesis
    rw [← List.map_cons] at member
    obtain ⟨placed, inPlaced, rfl⟩ := List.mem_map.mp member
    exact free placed (parts.mem_iff.mp (List.mem_append_left _ inPlaced))

/-- With ranks there is always one that is ready, so none is left over. -/
theorem settle_stuck_eq_nil {rank : String → Nat} {waiting : List Placed}
    (ranked : Ranked rank (waiting.map Prod.fst)) : (settle waiting).2 = [] := by
  induction waiting using settle.induct with
  | case1 waiting found =>
    have empty : waiting.map Prod.fst = [] := by
      refine ranked.eq_nil fun decl member => ?_
      obtain ⟨entry, inWaiting, rfl⟩ := List.mem_map.mp member
      have busy := List.find?_eq_none.mp found entry inWaiting
      rw [isReady_iff] at busy
      push Not at busy
      obtain ⟨other, given, names⟩ := busy
      exact ⟨other.1, List.mem_map_of_mem given, names⟩
    rw [settle_of_none found]
    exact List.map_eq_nil_iff.mp empty
  | case2 waiting entry found _ _ _ inductionHypothesis =>
    rw [settle_of_some found]
    refine inductionHypothesis (ranked.subset fun decl member => ?_)
    obtain ⟨other, inRest, rfl⟩ := List.mem_map.mp member
    exact List.mem_map_of_mem
      ((perm_cons_eraseP found).mem_iff.mp (List.mem_cons_of_mem _ inRest))

end ConstOrder

/-! ### Sorting -/

theorem sortConsts_eq_ok_iff {decls : List ConstDecl} {outer : Option Scope}
    {placed : List Placed} :
    sortConsts decls outer = .ok placed ↔
      ConstOrder.firstRepeated? [] decls = none ∧ ConstOrder.firstUndefined? decls outer = none ∧
        ConstOrder.settle decls.zipIdx = (placed, []) := by
  rw [sortConsts_eq_settled, ConstOrder.settled]
  cases ConstOrder.firstRepeated? [] decls with
  | some decl => exact iff_of_false nofun fun both => nomatch both.1
  | none =>
    cases ConstOrder.firstUndefined? decls outer with
    | some reference => exact iff_of_false nofun fun both => nomatch both.2.1
    | none =>
      rcases ConstOrder.settle decls.zipIdx with ⟨settled, _ | ⟨entry, stuck⟩⟩
      · simp
      · simp

/-- A sorted list holds the declarations of the source in an order in which none names itself or
one behind it. -/
theorem sortConsts_keeps {decls : List ConstDecl} {outer : Option Scope} {placed : List Placed}
    (sorted : sortConsts decls outer = .ok placed) :
    (placed.map Prod.fst).Perm decls ∧ InOrder (placed.map Prod.fst) := by
  obtain ⟨_, _, settled⟩ := sortConsts_eq_ok_iff.mp sorted
  have parts := (ConstOrder.settle_perm decls.zipIdx).map Prod.fst
  have ordered := ConstOrder.settle_inOrder decls.zipIdx
  rw [settled] at parts ordered
  rw [List.append_nil, List.zipIdx_map_fst] at parts
  exact ⟨parts, ordered⟩

/-- A list is sorted exactly if it can be. -/
theorem exists_sortConsts_iff {decls : List ConstDecl} {outer : Option Scope} :
    (∃ placed, sortConsts decls outer = .ok placed) ↔ Sortable decls outer := by
  constructor
  · rintro ⟨placed, sorted⟩
    obtain ⟨once, declared, _⟩ := sortConsts_eq_ok_iff.mp sorted
    obtain ⟨same, ordered⟩ := sortConsts_keeps sorted
    have distinct := (ConstOrder.firstRepeated?_eq_none.mp once).1
    obtain ⟨rank, ranked⟩ := ordered.exists_ranked ((same.map _).nodup_iff.mpr distinct)
    exact ⟨distinct, ConstOrder.firstUndefined?_eq_none.mp declared, rank,
      ranked.subset fun _ member => same.mem_iff.mpr member⟩
  · rintro ⟨distinct, declared, rank, ranked⟩
    rw [← List.zipIdx_map_fst 0 decls] at ranked
    refine ⟨(ConstOrder.settle decls.zipIdx).1, sortConsts_eq_ok_iff.mpr ⟨?_, ?_, ?_⟩⟩
    · exact ConstOrder.firstRepeated?_eq_none.mpr ⟨distinct, fun _ _ => List.not_mem_nil⟩
    · exact ConstOrder.firstUndefined?_eq_none.mpr declared
    · rw [← ConstOrder.settle_stuck_eq_nil ranked]

namespace Sortable

/-- The order of a list, and what the scope around it holds beside names, does not matter. -/
theorem perm {first second : List ConstDecl} {outer other : Option Scope}
    (sortable : Sortable first outer) (reordered : first.Perm second)
    (same : SameOuter outer other) : Sortable second other where
  distinct := (reordered.map _).nodup_iff.mp sortable.distinct
  declared decl member name names := by
    have declared := sortable.declared decl (reordered.mem_iff.mpr member) name names
    rw [ConstOrder.isDeclared_iff] at declared ⊢
    rwa [← (reordered.map _).mem_iff, ← same.any_contains]
  acyclic := by
    obtain ⟨rank, ranked⟩ := sortable.acyclic
    exact ⟨rank, ranked.subset fun _ => reordered.mem_iff.mpr⟩

end Sortable

end BehaviourScript
