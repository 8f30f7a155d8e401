/-
This file proves that the order of const declarations does not matter. Whether a
list can be built, and to which values, depends on the declarations it holds and
not on their order; and what is checked and written afterwards sees consts only
through their values.
-/

import BehaviourScript.Proofs.Consts.Solution
import BehaviourScript.Proofs.Unplaced

namespace BehaviourScript

open Outcome

/-! ### Scopes -/

theorem Scope.Same.symm {first second : Scope} (same : first.Same second) : second.Same first :=
  fun name => (same name).symm

/-- A const list and any other order of it are built to scopes with the same values, or neither
is built. -/
theorem buildScope_reordered {first second : List ConstDecl} (reordered : first.Perm second)
    {outer other : Option Scope} (same : SameOuter outer other) :
    Alike (fun built again => built.2.Same again.2) (buildScope first outer)
      (buildScope second other) := by
  have carry {first second : List ConstDecl} (reordered : first.Perm second)
      {outer other : Option Scope} (same : SameOuter outer other)
      (built : List ConstDecl × Scope) (run : buildScope first outer = .ok built) :
      ∃ again, buildScope second other = .ok again ∧ built.2.Same again.2 := by
    obtain ⟨_, sortable, solves⟩ := buildScope_solves run
    obtain ⟨ordered, scope, again, equal⟩ :=
      exists_buildScope (sortable.perm reordered same) (solves.perm reordered same)
    exact ⟨(ordered, scope), again, equal.symm⟩
  refine .of_exists (carry reordered same) fun again run => ?_
  obtain ⟨built, there, _⟩ := carry reordered.symm (fun name => (same name).symm) again run
  exact ⟨built, there⟩

/-! ### Scripts apart from their consts -/

/-- A behaviour without its consts. -/
def Behaviour.bare (behaviour : Behaviour) : Behaviour := { behaviour with consts := [] }

/-- A script without its consts. -/
def Script.bare : Script → Script
  | library content =>
    library { content with consts := [], behaviours := content.behaviours.map Behaviour.bare }
  | behaviour content => behaviour content.bare
  | sequence content => sequence { content with consts := [] }

theorem checkNamed_map {α : Type} {name : α → String} {check : Bool → α → Check} (image : α → α)
    (named : ∀ item, name (image item) = name item)
    (checked : ∀ repeated item, check repeated (image item) = check repeated item)
    (seen : List String) (items : List α) :
    checkNamed name check seen (items.map image) = checkNamed name check seen items := by
  induction items generalizing seen with
  | nil => rfl
  | cons item rest inductionHypothesis =>
    rw [List.map_cons, checkNamed, checkNamed, named, checked, inductionHypothesis]

theorem SymbolTable.check_bare (table : SymbolTable) (script : Script) :
    table.check script.bare = table.check script := by
  cases script with
  | library content =>
    exact congrArg (bind _) (funext fun _ =>
      checkNamed_map Behaviour.bare (fun _ => rfl) (fun _ _ => rfl) [] content.behaviours)
  | behaviour content => rfl
  | sequence content => rfl

theorem Encode.entries_bare (resolvers : CompileResolvers) (table : SymbolTable)
    (taken : List (Int × String)) (behaviours : List Behaviour) :
    entries resolvers table taken (behaviours.map Behaviour.bare) =
      entries resolvers table taken behaviours := by
  induction behaviours generalizing taken with
  | nil => rfl
  | cons first rest inductionHypothesis =>
    rw [List.map_cons, entries, entries]
    simp only [inductionHypothesis]
    rfl

theorem emit_bare (resolvers : CompileResolvers) (table : SymbolTable) (script : Script) :
    emit resolvers table script.bare = emit resolvers table script := by
  cases script with
  | library content =>
    show Encode.library resolvers table _ = Encode.library resolvers table content
    unfold Encode.library
    simp only [List.length_map, Encode.entries_bare]
  | behaviour content => rfl
  | sequence content => rfl

section Tables

variable {first second : SymbolTable} {script other : Script}

theorem SymbolTable.Like.check_bare_iff (tables : first.Like Eq second)
    (bare : script.bare = other.bare) :
    first.check script = .ok () ↔ second.check other = .ok () := by
  rw [← first.check_bare, ← second.check_bare, bare]
  exact (Script.like_of_erase rfl).check_iff tables

theorem SymbolTable.Same.emit_bare (same : first.Same second)
    (checked : script.bare = other.bare ∧ first.check script = .ok ())
    (resolvers : CompileResolvers) :
    Alike Eq (emit resolvers first script) (emit resolvers second other) := by
  obtain ⟨bare, passes⟩ := checked
  rw [← first.check_bare, bare] at passes
  rw [← BehaviourScript.emit_bare, ← BehaviourScript.emit_bare resolvers second, bare]
  exact (Script.like_of_erase rfl).emit_alike same.like passes resolvers

end Tables

/-! ### Scripts with their consts in another order -/

/-- Two behaviours that are the same up to the order of their consts. -/
inductive Behaviour.Reordered : Behaviour → Behaviour → Prop
  | intro {behaviour : Behaviour} {consts : List ConstDecl} (perm : behaviour.consts.Perm consts) :
      Reordered behaviour { behaviour with consts := consts }

/-- Two scripts that are the same up to the order of the declarations in each const list. -/
inductive Script.Reordered : Script → Script → Prop
  | library {content : Library} {consts : List ConstDecl} {behaviours : List Behaviour}
      (perm : content.consts.Perm consts)
      (each : List.Forall₂ Behaviour.Reordered content.behaviours behaviours) :
      Reordered (.library content)
        (.library { content with consts := consts, behaviours := behaviours })
  | behaviour {content other : Behaviour} (reordered : content.Reordered other) :
      Reordered (.behaviour content) (.behaviour other)
  | sequence {content : Sequence} {consts : List ConstDecl}
      (perm : content.consts.Perm consts) :
      Reordered (.sequence content) (.sequence { content with consts := consts })

theorem buildChildren_reordered {behaviours others : List Behaviour}
    (each : List.Forall₂ Behaviour.Reordered behaviours others) {first second : SymbolTable}
    (tables : first.Like Eq second) :
    Alike (fun built again => built.1.map Behaviour.bare = again.1.map Behaviour.bare ∧
        built.2.Like Eq again.2)
      (buildChildren first behaviours) (buildChildren second others) := by
  induction each generalizing first second with
  | nil => exact .ok ⟨rfl, tables⟩
  | @cons behaviour other _ _ reordered _ inductionHypothesis =>
    cases reordered with
    | intro perm =>
      have outer : SameOuter (some first.root) (some second.root) := fun _ => tables.root rfl
      refine (buildScope_reordered perm outer).bind fun built again scopes => ?_
      refine (inductionHypothesis (tables.addChild rfl scopes.like)).bind fun _ _ rest => ?_
      refine .ok ⟨?_, rest.2⟩
      rw [List.map_cons, List.map_cons, rest.1]
      rfl

theorem buildTable_reordered {first second : Script} (reordered : first.Reordered second) :
    Alike (fun built again => built.1.bare = again.1.bare ∧ built.2.Like Eq again.2)
      (buildTable first) (buildTable second) := by
  have outer : SameOuter none none := fun _ => rfl
  cases reordered with
  | library perm each =>
    refine (buildScope_reordered perm outer).bind fun built again scopes => ?_
    refine (buildChildren_reordered each (.ofScope scopes.like)).bind fun _ _ tables => ?_
    refine .ok ⟨?_, tables.2⟩
    simp only [Script.bare, tables.1]
  | behaviour reordered =>
    cases reordered with
    | intro perm =>
      exact (buildScope_reordered perm outer).bind fun _ _ scopes =>
        .ok ⟨rfl, .ofScope scopes.like⟩
  | sequence perm =>
    exact (buildScope_reordered perm outer).bind fun _ _ scopes =>
      .ok ⟨rfl, .ofScope scopes.like⟩

theorem analyze_reordered {first second : Script} (reordered : first.Reordered second) :
    Alike (fun analysed again =>
        (analysed.1.bare = again.1.bare ∧ analysed.2.check analysed.1 = .ok ()) ∧
          analysed.2.Same again.2)
      (analyze first) (analyze second) := by
  refine (buildTable_reordered reordered).bind fun built again tables => ?_
  have passes := tables.2.check_bare_iff tables.1
  refine (Alike.of_ok_iff passes).bindRun fun _ _ checked _ _ => ?_
  exact .ok ⟨⟨tables.1, checked⟩, tables.2.same⟩

/-- Scripts that differ in the order of their const declarations are analysed alike, with the same
value for every name in every scope, and compile alike: both to the same bytes, or neither. -/
theorem assemble_reordered {first second : Script} (reordered : first.Reordered second) :
    Alike (fun analysed again => analysed.2.Same again.2) (analyze first) (analyze second) ∧
      ∀ resolvers, Alike Eq (assemble resolvers first) (assemble resolvers second) := by
  have analysed := analyze_reordered reordered
  refine ⟨?_, fun resolvers => ?_⟩
  · exact analysed.mono fun _ _ => And.right
  · exact analysed.ofSemantic.bind fun _ _ tables => tables.2.emit_bare tables.1 resolvers

/-- A library with a behaviour, each with a const list. -/
def depot (consts own : List ConstDecl) : Script :=
  .library ⟨[], "Depot", consts, [{
    attributes := [⟨.globalIndex (.const "Far" .dummy), .dummy⟩]
    name := "Crane"
    consts := own
    starter := none
    states := [⟨[], "Lift", none, [⟨none, [⟨3, [.const "Step" .dummy], .dummy⟩], none, .dummy⟩],
      .dummy⟩]
    span := .dummy }], .dummy⟩

def depotBase : ConstDecl := ⟨"Base", .literal 4, .dummy⟩

def depotStep : ConstDecl :=
  ⟨"Step", .binary .add (.const "Base" .dummy) (.literal 1) .dummy, .dummy⟩

def craneBase : ConstDecl := ⟨"Base", .literal 9, .dummy⟩

def craneFar : ConstDecl :=
  ⟨"Far", .binary .sub (.const "Base" .dummy) (.const "Step" .dummy) .dummy, .dummy⟩

-- `Far` is 9 - 5: it sees the behaviour's `Base`, and `Step` was computed from the library's.
theorem assemble_reordered_depot :
    (depot [depotStep, depotBase] [craneFar, craneBase]).Reordered
      (depot [depotBase, depotStep] [craneBase, craneFar]) ∧
    assemble .numbersOnly (depot [depotStep, depotBase] [craneFar, craneBase]) =
      .ok [1, 0, 0, 0, 4, 0, 0, 0, 20, 0, 0, 0, 0, 0, 0, 0, 1, 0, 255, 255, 2, 0, 255, 255, 3, 0,
        1, 0, 5, 0, 0, 0] ∧
    Alike (fun analysed again => analysed.2.Same again.2)
      (analyze (depot [depotStep, depotBase] [craneFar, craneBase]))
      (analyze (depot [depotBase, depotStep] [craneBase, craneFar])) ∧
    ∀ resolvers, Alike Eq (assemble resolvers (depot [depotStep, depotBase] [craneFar, craneBase]))
      (assemble resolvers (depot [depotBase, depotStep] [craneBase, craneFar])) := by
  have reordered : (depot [depotStep, depotBase] [craneFar, craneBase]).Reordered
      (depot [depotBase, depotStep] [craneBase, craneFar]) :=
    .library (.swap depotBase depotStep []) (.cons (.intro (.swap craneBase craneFar [])) .nil)
  exact ⟨reordered, by decide +kernel, assemble_reordered reordered⟩

end BehaviourScript
