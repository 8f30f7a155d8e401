/-
This file puts the declarations of a const list into dependency order. A
declaration may name consts that are declared later; in the new order every
declaration stands behind those it names. Of the declarations that could come
next the first in the source does, so a list that is in order stays as it is.
-/

import BehaviourScript.Scope

namespace BehaviourScript

/-- A declaration with its place in the source's list. -/
abbrev Placed := ConstDecl × Nat

namespace ConstOrder

variable {count : Nat}

/-- The places of the declared names. A name may be declared once. -/
def indexNames (index : IndexMap String (Fin count)) :
    List (ConstDecl × Fin count) → Except SemanticError (IndexMap String (Fin count))
  | [] => .ok index
  | (decl, place) :: rest =>
    let (earlier?, index) := index.insert decl.name place
    if earlier?.isSome then .error (.duplicateConst decl.name decl.span.start)
    else indexNames index rest

/-- A reference with the place of the declaration that it stands in. -/
abbrev Use (count : Nat) := (String × Span) × Fin count

/-- Which declarations name a declaration, once for each time they do, and how
many declarations a declaration names. -/
structure Graph (count : Nat) where
  dependents : Vector (List (Fin count)) count
  degrees : Vector Nat count

namespace Graph

/-- Nothing is named. -/
def empty : Graph count := ⟨.replicate count [], .replicate count 0⟩

/-- The declaration at `place` names the one at `target`. -/
def link (graph : Graph count) (place target : Fin count) : Graph count :=
  ⟨graph.dependents.set target (graph.dependents.get target ++ [place]),
    graph.degrees.set place (graph.degrees.get place + 1)⟩

/-- Adds what references name. A name that is not declared in the list has to be
in the scope around it. -/
def read (index : IndexMap String (Fin count)) (outer : Option Scope) (graph : Graph count) :
    List (Use count) → Except SemanticError (Graph count)
  | [] => .ok graph
  | ((name, span), place) :: rest =>
    match index.get? name with
    | some target => read index outer (graph.link place target) rest
    | none =>
      if outer.any (·.contains name) then read index outer graph rest
      else .error (.undefinedConst name span.start)

end Graph

/-- How many declarations that are not placed yet each declaration names, and the
places of those that could come next, in ascending order. -/
structure Queue (count : Nat) where
  degrees : Vector Nat count
  ready : List (Fin count)

/-- Adds a place to places in ascending order. -/
def insertPlace (place : Fin count) : List (Fin count) → List (Fin count)
  | [] => [place]
  | first :: rest =>
    if place < first then place :: first :: rest
    else if place = first then first :: rest
    else first :: insertPlace place rest

namespace Queue

/-- What names no declaration of the list is ready from the start. -/
def start (degrees : Vector Nat count) : Queue count :=
  ⟨degrees, (List.finRange count).filter (degrees.get · == 0)⟩

/-- One declaration that the one at `place` names is placed. With the last of
them it becomes ready. -/
def release (queue : Queue count) (place : Fin count) : Queue count :=
  match queue.degrees.get place with
  | 0 => queue
  | 1 => ⟨queue.degrees.set place 0, insertPlace place queue.ready⟩
  | degree + 2 => ⟨queue.degrees.set place (degree + 1), queue.ready⟩

/-- How many places are ready or can become so. -/
def pending (queue : Queue count) : Nat :=
  queue.degrees.countP (0 < ·) + queue.ready.length

theorem length_insertPlace_le (place : Fin count) (places : List (Fin count)) :
    (insertPlace place places).length ≤ places.length + 1 := by
  fun_induction insertPlace place places <;> grind

/-- Where a degree is replaced, one that waits is counted no longer. -/
theorem countP_set_degree (queue : Queue count) (place : Fin count) (degree : Nat)
    (waits : 0 < queue.degrees.get place) :
    (queue.degrees.set place degree).countP (0 < ·) + 1 =
      queue.degrees.countP (0 < ·) + if 0 < degree then 1 else 0 := by
  have waits : 0 < queue.degrees[place.val] := waits
  have counted : 0 < queue.degrees.countP (0 < ·) :=
    Vector.countP_pos_iff.mpr ⟨_, Vector.getElem_mem place.isLt, decide_eq_true waits⟩
  rw [Vector.countP_set, if_pos (decide_eq_true waits)]
  simp only [decide_eq_true_eq]
  omega

/-- A place that becomes ready is no longer one that waits. -/
theorem pending_release_le (queue : Queue count) (place : Fin count) :
    (queue.release place).pending ≤ queue.pending := by
  have longer := length_insertPlace_le place queue.ready
  unfold release pending
  split
  · exact Nat.le_refl _
  · next last =>
    have fewer := countP_set_degree queue place 0 (by omega)
    rw [if_neg (Nat.lt_irrefl 0)] at fewer
    show (queue.degrees.set place 0).countP (0 < ·) + (insertPlace place queue.ready).length ≤ _
    omega
  · next degree more =>
    have same := countP_set_degree queue place (degree + 1) (by omega)
    rw [if_pos (Nat.succ_pos degree)] at same
    show (queue.degrees.set place (degree + 1)).countP (0 < ·) + queue.ready.length ≤ _
    omega

theorem pending_foldl_release_le (queue : Queue count) (places : List (Fin count)) :
    (places.foldl release queue).pending ≤ queue.pending := by
  induction places generalizing queue with
  | nil => exact Nat.le_refl _
  | cons place rest inductionHypothesis =>
    exact Nat.le_trans (inductionHypothesis _) (pending_release_le queue place)

/-- Places the first declaration that is ready, again and again. The answer is the
order in which they are placed and what the others still wait for. -/
def drain (dependents : Vector (List (Fin count)) count) (queue : Queue count) :
    List (Fin count) × Vector Nat count :=
  match _ : queue.ready with
  | [] => ([], queue.degrees)
  | next :: rest =>
    let (order, degrees) :=
      drain dependents ((dependents.get next).foldl release { queue with ready := rest })
    (next :: order, degrees)
termination_by queue.pending
decreasing_by
  refine Nat.lt_of_le_of_lt (pending_foldl_release_le _ _) ?_
  simp_all [pending]

end Queue

/-- Takes the declarations at places out of their slots. A slot is empty once its
declaration is taken. -/
def takeSlots (slots : Vector (Option ConstDecl) count) : List (Fin count) → List ConstDecl
  | [] => []
  | place :: rest =>
    let others := takeSlots (slots.set place none) rest
    match slots.get place with
    | some decl => decl :: others
    | none => others

/-- The places of the declarations that still wait. -/
def stuck (degrees : Vector Nat count) : List (Fin count) :=
  (List.finRange count).filter (0 < degrees.get ·)

variable (decls : List ConstDecl)

/-- The declarations of a list with their places. -/
def placed : List (ConstDecl × Fin decls.length) :=
  (List.finRange decls.length).map fun place => (decls.get place, place)

/-- The references of a list, each with the place of the declaration that it
stands in. -/
def uses : List (Use decls.length) :=
  (List.finRange decls.length).flatMap fun place =>
    (decls.get place).value.references.map (·, place)

/-- Puts the declarations into an order. If some are not in it, they are the ones
that still wait. -/
def arrange (order : List (Fin decls.length)) (degrees : Vector Nat decls.length) :
    Except SemanticError (List Placed) :=
  if order.length < decls.length then
    .error (.cyclicConst ((stuck degrees).map fun place => (decls.get place).name))
  else
    let slots := ⟨(decls.map some).toArray, by simp⟩
    .ok ((takeSlots slots order).zip (order.map (·.val)))

end ConstOrder

open ConstOrder in
/-- The declarations of a list in dependency order, each with its place in the
source. -/
def sortConsts (decls : List ConstDecl) (outer : Option Scope) :
    Except SemanticError (List Placed) := do
  let index ← indexNames .empty (placed decls)
  let graph ← Graph.read index outer .empty (uses decls)
  let (order, degrees) := Queue.drain graph.dependents (Queue.start graph.degrees)
  arrange decls order degrees

namespace Scope

/-- Evaluates declarations one after the other and adds them to a scope. -/
def extend (outer : Option Scope) : Scope → List Placed → Except SemanticError Scope
  | scope, [] => .ok scope
  | scope, (decl, declIndex) :: rest => do
    let value ← Env.eval ⟨scope, outer⟩ decl.value
    extend outer (scope.insert decl.name (.of value declIndex decl.span)) rest

end Scope

end BehaviourScript
