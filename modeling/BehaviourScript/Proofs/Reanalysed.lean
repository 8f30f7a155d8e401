/-
This file proves that the analysis of a script that is analysed already changes
nothing. In a const list that is in order the first declaration is always ready,
so sorting takes the declarations one by one from the front. The values are
computed once more, from the same declarations in the same order. All that a
second table says differently is at which place of its list a const was
declared: it is the place that the const has in the scope.
-/

import BehaviourScript.Proofs.Canonical.Scripts
import BehaviourScript.Proofs.Consts.Reordered

namespace BehaviourScript

open Outcome

/-! ### Sorting a list that is in order -/

namespace ConstOrder

theorem settle_of_inOrder {waiting : List Placed} (ordered : InOrder (waiting.map Prod.fst)) :
    settle waiting = (waiting, []) := by
  induction waiting with
  | nil => exact settle_of_none rfl
  | cons entry rest inductionHypothesis =>
    cases ordered with
    | cons free behind =>
      have ready : isReady (entry :: rest) entry = true :=
        isReady_iff.mpr fun other member => free other.1 (List.mem_map_of_mem member)
      rw [settle_of_some (List.find?_cons_of_pos ready), List.eraseP_cons_of_pos ready,
        inductionHypothesis behind]

end ConstOrder

/-- A list in order that can be sorted stays as it is. -/
theorem InOrder.sortConsts_eq {decls : List ConstDecl} {outer : Option Scope}
    (ordered : InOrder decls) (sortable : Sortable decls outer) :
    sortConsts decls outer = .ok decls.zipIdx := by
  refine sortConsts_eq_ok_iff.mpr ⟨?_, ?_, ConstOrder.settle_of_inOrder ?_⟩
  · exact ConstOrder.firstRepeated?_eq_none.mpr
      ⟨sortable.distinct, fun _ _ => List.not_mem_nil⟩
  · exact ConstOrder.firstUndefined?_eq_none.mpr sortable.declared
  · rwa [List.zipIdx_map_fst]

/-- A sorted list stays as it is, also in a scope that says the same in another way. -/
theorem sortConsts_sorted {decls : List ConstDecl} {outer other : Option Scope}
    {placed : List Placed} (sorted : sortConsts decls outer = .ok placed)
    (same : SameOuter outer other) :
    sortConsts (placed.map Prod.fst) other = .ok (placed.map Prod.fst).zipIdx := by
  obtain ⟨reordered, ordered⟩ := sortConsts_keeps sorted
  have sortable := exists_sortConsts_iff.mp ⟨placed, sorted⟩
  exact ordered.sortConsts_eq (sortable.perm reordered.symm same)

/-! ### Scopes in which consts are declared at their own places -/

/-- A const that is declared at another place. -/
def Const.declaredAt (const : Const) (index : Nat) : Const := { const with declIndex := index }

namespace Scope

/-- A scope in which every const is declared at the place that it has in the scope. -/
def renumbered (scope : Scope) : Scope :=
  ⟨scope.consts.zipIdx.map fun entry => (entry.1.1, entry.1.2.declaredAt entry.2)⟩

theorem values_renumbered (scope : Scope) (name : String) :
    scope.renumbered.values name = scope.values name := by
  have rows (consts : List (String × Const)) (start : Nat) :
      (Assoc.get? name ((consts.zipIdx start).map fun entry =>
        (entry.1.1, entry.1.2.declaredAt entry.2))).map Const.value =
      (Assoc.get? name consts).map Const.value := by
    induction consts generalizing start with
    | nil => rfl
    | cons entry rest inductionHypothesis =>
      rw [List.zipIdx_cons, List.map_cons, Assoc.get?, Assoc.get?]
      by_cases same : entry.1 = name
      · rw [if_pos same, if_pos same]
        rfl
      · rw [if_neg same, if_neg same, inductionHypothesis]
  exact rows scope.consts 0

theorem same_renumbered (scope : Scope) : scope.Same scope.renumbered :=
  fun name => (scope.values_renumbered name).symm

theorem insert_eq_append {scope : Scope} {name : String} (fresh : scope.values name = none)
    (const : Const) : scope.insert name const = ⟨scope.consts ++ [(name, const)]⟩ := by
  have rows (consts : List (String × Const)) (absent : name ∉ consts.map Prod.fst) :
      Assoc.set name const consts = consts ++ [(name, const)] := by
    induction consts with
    | nil => rfl
    | cons entry rest inductionHypothesis =>
      rw [List.map_cons, List.mem_cons, not_or] at absent
      rw [Assoc.set, if_neg (Ne.symm absent.1), inductionHypothesis absent.2, List.cons_append]
  refine congrArg Scope.mk (rows scope.consts (Assoc.get?_eq_none_iff.mp ?_))
  exact Option.map_eq_none_iff.mp fresh

/-- A new const comes last, and is declared there. -/
theorem renumbered_insert {scope : Scope} {name : String} (fresh : scope.values name = none)
    (const : Const) :
    (scope.insert name const).renumbered =
      scope.renumbered.insert name (const.declaredAt scope.size) := by
  rw [insert_eq_append fresh, insert_eq_append ((scope.values_renumbered name).trans fresh)]
  unfold renumbered size
  rw [List.zipIdx_append, List.map_append, Nat.zero_add]
  rfl

theorem size_insert {scope : Scope} {name : String} (fresh : scope.values name = none)
    (const : Const) : (scope.insert name const).size = scope.size + 1 := by
  rw [insert_eq_append fresh]
  exact List.length_append

/-- The names of a scope in order, with their values and the stores that these need. -/
def listing (scope : Scope) : List (String × Option Int × Option Storage) :=
  scope.consts.map fun entry => (entry.1, entry.2.value, entry.2.storage?)

theorem listing_renumbered (scope : Scope) : scope.renumbered.listing = scope.listing := by
  unfold listing renumbered
  rw [List.map_map, ← List.zipIdx_map_fst 0 scope.consts, List.map_map, List.zipIdx_map_fst]
  rfl

/-- Declarations with other places are evaluated to the same scope, up to the places. -/
theorem extend_renumbered {outer other : Option Scope} (same : SameOuter outer other)
    {placed : List Placed} {scope final : Scope}
    (distinct : (placed.map fun entry => entry.1.name).Nodup)
    (fresh : ∀ entry ∈ placed, scope.values entry.1.name = none)
    (extended : extend outer scope placed = .ok final) :
    extend other scope.renumbered ((placed.map Prod.fst).zipIdx scope.size) =
      .ok final.renumbered := by
  induction placed generalizing scope with
  | nil =>
    cases extended
    rfl
  | cons entry rest inductionHypothesis =>
    obtain ⟨value, evaluated, others⟩ := extend_cons_eq_ok.mp extended
    rw [List.map_cons, List.nodup_cons] at distinct
    rw [List.forall_mem_cons] at fresh
    have behind (next : Placed) (member : next ∈ rest) :
        (scope.insert entry.1.name (.of value entry.2 entry.1.span)).values next.1.name =
          none := by
      have different : next.1.name ≠ entry.1.name := fun equal =>
        distinct.1 (equal ▸ List.mem_map_of_mem (f := fun entry : Placed => entry.1.name) member)
      rw [values_insert_other _ different]
      exact fresh.2 next member
    have further := inductionHypothesis distinct.2 behind others
    rw [renumbered_insert fresh.1, size_insert fresh.1] at further
    have equal : Env.Same ⟨scope, outer⟩ ⟨scope.renumbered, other⟩ :=
      Env.same scope.same_renumbered same
    rw [List.map_cons, List.zipIdx_cons]
    exact extend_cons_eq_ok.mpr ⟨value, equal.eval_eq entry.1.value ▸ evaluated, further⟩

end Scope

/-- A list that is built already is built to the same scope, up to places. -/
theorem buildScope_ordered {decls ordered : List ConstDecl} {outer other : Option Scope}
    {scope : Scope} (built : buildScope decls outer = .ok (ordered, scope))
    (same : SameOuter outer other) :
    buildScope ordered other = .ok (ordered, scope.renumbered) := by
  obtain ⟨placed, sorted, extended, rfl⟩ := buildScope_eq_ok.mp built
  have names := (sortConsts_keeps sorted).1.map ConstDecl.name
  rw [List.map_map] at names
  have distinct := names.nodup_iff.mpr (exists_sortConsts_iff.mp ⟨placed, sorted⟩).distinct
  refine buildScope_eq_ok.mpr ⟨_, sortConsts_sorted sorted same, ?_, List.zipIdx_map_fst ..⟩
  exact Scope.extend_renumbered same distinct (fun _ _ => rfl) extended

/-! ### Tables and scripts -/

namespace Assoc

variable {κ α β : Type} [DecidableEq κ] (image : α → β) (key : κ)

theorem set_map (value : α) (entries : List (κ × α)) :
    (set key value entries).map (fun entry => (entry.1, image entry.2)) =
      set key (image value) (entries.map fun entry => (entry.1, image entry.2)) := by
  induction entries with
  | nil => rfl
  | cons entry rest inductionHypothesis =>
    rw [List.map_cons, set, set]
    by_cases same : entry.1 = key
    · rw [if_pos same, if_pos same, List.map_cons]
    · rw [if_neg same, if_neg same, List.map_cons, inductionHypothesis]

theorem get?_map (entries : List (κ × α)) :
    get? key (entries.map fun entry => (entry.1, image entry.2)) =
      (get? key entries).map image := by
  induction entries with
  | nil => rfl
  | cons entry rest inductionHypothesis =>
    rw [List.map_cons, get?, get?]
    by_cases same : entry.1 = key
    · rw [if_pos same, if_pos same]
      rfl
    · rw [if_neg same, if_neg same, inductionHypothesis]

end Assoc

namespace SymbolTable

/-- A table in which every const is declared at the place that it has in its scope. -/
def renumbered (table : SymbolTable) : SymbolTable where
  root := table.root.renumbered
  children := table.children.map fun entry => (entry.1, entry.2.renumbered)

theorem renumbered_addChild (table : SymbolTable) (behaviour : String) (scope : Scope) :
    (table.addChild behaviour scope).renumbered =
      table.renumbered.addChild behaviour scope.renumbered :=
  congrArg (SymbolTable.mk _) (Assoc.set_map Scope.renumbered behaviour scope table.children)

/-- What a table lists at the top, and for each behaviour in order. -/
def listing (table : SymbolTable) :
    List (String × Option Int × Option Storage) ×
      List (String × List (String × Option Int × Option Storage)) :=
  (table.root.listing, table.children.map fun entry => (entry.1, entry.2.listing))

theorem listing_renumbered (table : SymbolTable) : table.renumbered.listing = table.listing := by
  unfold listing renumbered
  rw [List.map_map, Scope.listing_renumbered]
  exact congrArg _ (List.map_congr_left fun entry _ =>
    congrArg (Prod.mk entry.1) entry.2.listing_renumbered)

theorem same_renumbered (table : SymbolTable) : table.Same table.renumbered where
  root := table.root.same_renumbered
  children name := by
    unfold child? renumbered
    rw [Assoc.get?_map]
    exact rel_map fun scope _ => scope.same_renumbered

end SymbolTable

theorem buildChildren_ordered {table final : SymbolTable} {behaviours ordered : List Behaviour}
    (built : buildChildren table behaviours = .ok (ordered, final)) :
    buildChildren table.renumbered ordered = .ok (ordered, final.renumbered) := by
  induction behaviours generalizing table ordered with
  | nil =>
    cases built
    rfl
  | cons behaviour rest inductionHypothesis =>
    simp only [buildChildren, bind_eq_ok] at built
    obtain ⟨⟨consts, scope⟩, first, ⟨others, last⟩, behind, done⟩ := built
    cases done
    have root : SameOuter (some table.root) (some table.renumbered.root) :=
      table.root.same_renumbered
    have further := inductionHypothesis behind
    rw [SymbolTable.renumbered_addChild] at further
    simp only [buildChildren, bind_eq_ok]
    exact ⟨_, buildScope_ordered first root, _, further, rfl⟩

theorem buildTable_ordered {script ordered : Script} {table : SymbolTable}
    (built : buildTable script = .ok (ordered, table)) :
    buildTable ordered = .ok (ordered, table.renumbered) := by
  have outer : SameOuter none none := fun _ => rfl
  rw [buildTable_eq_ok] at built ⊢
  cases built with
  | library first children =>
    exact .library (buildScope_ordered first outer) (buildChildren_ordered children)
  | behaviour first => exact .behaviour (buildScope_ordered first outer)
  | sequence first => exact .sequence (buildScope_ordered first outer)

theorem analyze_ordered {script ordered : Script} {table : SymbolTable}
    (analysed : analyze script = .ok (ordered, table)) :
    analyze ordered = .ok (ordered, table.renumbered) := by
  obtain ⟨built, passes⟩ := analyze_eq_ok.mp analysed
  refine analyze_eq_ok.mpr ⟨buildTable_ordered built, ?_⟩
  exact (table.same_renumbered.like.check_bare_iff rfl).mp passes

/-- A list that has been sorted is sorted to itself, with every declaration at its own place. A
script that has been analysed is analysed to itself, with a table that lists the same names with
the same values and stores in the same order, at the top and for each behaviour. -/
theorem sorting_and_analysis_idempotent :
    (∀ decls outer placed, sortConsts decls outer = .ok placed →
      sortConsts (placed.map Prod.fst) outer = .ok (placed.map Prod.fst).zipIdx) ∧
    ∀ script ordered table, analyze script = .ok (ordered, table) →
      analyze ordered = .ok (ordered, table.renumbered) ∧
        table.renumbered.listing = table.listing := by
  refine ⟨fun _ _ _ sorted => sortConsts_sorted sorted fun _ => rfl, fun _ _ table analysed => ?_⟩
  exact ⟨analyze_ordered analysed, table.listing_renumbered⟩

-- The consts of the library and of its behaviour are declared in the wrong order.
def depotTable : SymbolTable :=
  ⟨⟨[("Base", .of 4 1 .dummy), ("Step", .of 5 0 .dummy)]⟩,
    [("Crane", ⟨[("Base", .of 9 1 .dummy), ("Far", .of 4 0 .dummy)]⟩)]⟩

theorem sorting_and_analysis_idempotent_depot :
    sortConsts [depotStep, depotBase] none = .ok [(depotBase, 1), (depotStep, 0)] ∧
    sortConsts [depotBase, depotStep] none = .ok [(depotBase, 0), (depotStep, 1)] ∧
    analyze (depot [depotStep, depotBase] [craneFar, craneBase]) =
      .ok (depot [depotBase, depotStep] [craneBase, craneFar], depotTable) ∧
    analyze (depot [depotBase, depotStep] [craneBase, craneFar]) =
      .ok (depot [depotBase, depotStep] [craneBase, craneFar], depotTable.renumbered) ∧
    depotTable.renumbered.listing = depotTable.listing := by
  have sorted : sortConsts [depotStep, depotBase] none =
      .ok [(depotBase, 1), (depotStep, 0)] := by decide +kernel
  have analysed : analyze (depot [depotStep, depotBase] [craneFar, craneBase]) =
      .ok (depot [depotBase, depotStep] [craneBase, craneFar], depotTable) := by decide +kernel
  obtain ⟨again, twice⟩ := sorting_and_analysis_idempotent
  exact ⟨sorted, again _ _ _ sorted, analysed, twice _ _ _ analysed⟩

end BehaviourScript
