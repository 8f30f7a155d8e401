/-
This file proves that the names of consts and states are only names. They reach
the binary as values and as places in a list of states, and what is between, the
scopes, the order of the consts and the checks, compares names and nothing else.
So a script keeps its binary if its names are exchanged for others, as long as
different names stay different.
-/

import BehaviourScript.Proofs.Likeness.Scripts
import BehaviourScript.Proofs.Printed.Kinds
import Mathlib.Data.Set.Operations

namespace BehaviourScript

/-! ### Renaming -/

/-- An expression with other names for its consts. -/
def Expr.rename (consts : String → String) : Expr → Expr
  | number value span => number value span
  | const name span => const (consts name) span
  | neg operand span => neg (operand.rename consts) span
  | binary op left right span => binary op (left.rename consts) (right.rename consts) span

section Renaming

variable (consts states : String → String)

def Assign.rename (assign : Assign) : Assign :=
  { assign with value := assign.value.rename consts }

def ConstDecl.rename (decl : ConstDecl) : ConstDecl :=
  { decl with name := consts decl.name, value := decl.value.rename consts }

def ControlPacket.rename (packet : ControlPacket) : ControlPacket where
  settings := packet.settings.map (Assign.rename consts)
  data := packet.data.map (Expr.rename consts)

def Attribute.Kind.rename : Kind → Kind
  | .globalIndex value => .globalIndex (value.rename consts)
  | .priority value => .priority (value.rename consts)
  | .instanceType value => .instanceType (value.rename consts)
  | .startFrom state => .startFrom (states state)
  | .useObjectSlot value => .useObjectSlot (value.rename consts)
  | .controlPacket packet => .controlPacket (packet.rename consts)
  | .nonBlocking => .nonBlocking
  | .skipFirstBody => .skipFirstBody
  | .unknown value => .unknown (value.rename consts)

def Attribute.rename (attr : Attribute) : Attribute :=
  { attr with kind := attr.kind.rename consts states }

def Condition.rename (condition : Condition) : Condition :=
  { condition with parameter := condition.parameter.map (Expr.rename consts) }

def Command.rename (command : Command) : Command :=
  { command with args := command.args.map (Expr.rename consts) }

def StateBody.rename (body : StateBody) : StateBody :=
  { body with
    condition := body.condition.map (Condition.rename consts)
    commands := body.commands.map (Command.rename consts)
    jump := body.jump.map states }

def State.rename (state : State) : State :=
  { state with
    attributes := state.attributes.map (Attribute.rename consts states)
    name := states state.name
    bodies := state.bodies.map (StateBody.rename consts states) }

def Assigner.rename (assigner : Assigner) : Assigner :=
  { assigner with fields := assigner.fields.map (Assign.rename consts) }

def Starter.rename (starter : Starter) : Starter :=
  { starter with assigners := starter.assigners.map (Assigner.rename consts) }

/-- A behaviour with other names for its consts and its states. -/
def Behaviour.rename (behaviour : Behaviour) : Behaviour :=
  { behaviour with
    attributes := behaviour.attributes.map (Attribute.rename consts states)
    consts := behaviour.consts.map (ConstDecl.rename consts)
    starter := behaviour.starter.map (Starter.rename consts)
    states := behaviour.states.map (State.rename consts states) }

def CommandPack.rename (pack : CommandPack) : CommandPack :=
  { pack with commands := pack.commands.map (Command.rename consts) }

/-- A sequence with other names for its consts. It has no states. -/
def Sequence.rename (sequence : Sequence) : Sequence :=
  { sequence with
    attributes := sequence.attributes.map (Attribute.rename consts id)
    consts := sequence.consts.map (ConstDecl.rename consts)
    packs := sequence.packs.map (CommandPack.rename consts)
    commands := sequence.commands.map (Command.rename consts) }

end Renaming

/-! ### The names of a script -/

/-- The names a state has, starts from and jumps to. -/
def State.stateNames (state : State) : List String :=
  state.name :: (state.attributes.filterMap (·.kind.startFrom?) ++
    state.bodies.filterMap StateBody.jump)

/-- The names that a behaviour uses for its states. -/
def Behaviour.stateNames (behaviour : Behaviour) : List String :=
  behaviour.attributes.filterMap (·.kind.startFrom?) ++ behaviour.states.flatMap State.stateNames

/-- All const declarations of a script. -/
def Script.declarations : Script → List ConstDecl
  | library content => content.consts ++ content.behaviours.flatMap Behaviour.consts
  | behaviour content => content.consts
  | sequence content => content.consts

/-- The names of the consts that a script declares or refers to. -/
def Script.constNames (script : Script) : List String :=
  script.declarations.map ConstDecl.name ++
    script.exprs.flatMap (·.references.map Prod.fst)

/-- A behaviour and the same behaviour with other names. Its states are renamed by themselves, and
different names stay different. -/
inductive Behaviour.Renamed (consts : String → String) : Behaviour → Behaviour → Prop
  | intro {behaviour : Behaviour} {states : String → String}
      (injective : Set.InjOn states {name | name ∈ behaviour.stateNames}) :
      Renamed consts behaviour (behaviour.rename consts states)

/-- A script and the same script with other names for its consts and for the states of each of its
behaviours. -/
inductive Script.Renamed (consts : String → String) : Script → Script → Prop
  | library {content : Library} {behaviours : List Behaviour}
      (each : List.Forall₂ (Behaviour.Renamed consts) content.behaviours behaviours) :
      Renamed consts (.library content) (.library { content with
        attributes := content.attributes.map (Attribute.rename consts id)
        consts := content.consts.map (ConstDecl.rename consts)
        behaviours := behaviours })
  | behaviour {content other : Behaviour} (renamed : content.Renamed consts other) :
      Renamed consts (.behaviour content) (.behaviour other)
  | sequence {content : Sequence} :
      Renamed consts (.sequence content) (.sequence (content.rename consts))

/-! ### A script and its image are alike -/

/-- Each of some names stands for its new name. -/
def StandsFor (names : List String) (rename : String → String) (name image : String) : Prop :=
  name ∈ names ∧ rename name = image

theorem StandsFor.biUnique {names : List String} {rename : String → String}
    (injective : Set.InjOn rename {name | name ∈ names}) :
    Relator.BiUnique (StandsFor names rename) := by
  constructor
  · intro first second image stands other
    exact injective stands.1 other.1 (stands.2.trans other.2.symm)
  · intro name first second stands other
    exact stands.2.symm.trans other.2

section Nodes

variable {Consts States : String → String → Prop} {consts states : String → String}

theorem Expr.like_rename {expr : Expr}
    (named : ∀ name ∈ expr.references.map Prod.fst, Consts name (consts name)) :
    expr.Like Consts (expr.rename consts) := by
  induction expr with
  | number value span => exact .number
  | const name span => exact .const (named name (List.mem_singleton_self name))
  | neg operand span inductionHypothesis => exact .neg (inductionHypothesis named)
  | binary op left right span leftHypothesis rightHypothesis =>
    rw [references, List.map_append, List.forall_mem_append] at named
    exact .binary (leftHypothesis named.1) (rightHypothesis named.2)

theorem Attribute.Kind.like_rename {kind : Kind}
    (fits : ∀ expr ∈ kind.exprs, expr.Like Consts (expr.rename consts))
    (named : ∀ state ∈ kind.startFrom?, States state (states state)) :
    kind.Like Consts States (kind.rename consts states) := by
  cases kind with
  | globalIndex value => exact .globalIndex (fits value (List.mem_singleton_self value))
  | priority value => exact .priority (fits value (List.mem_singleton_self value))
  | instanceType value => exact .instanceType (fits value (List.mem_singleton_self value))
  | startFrom state => exact .startFrom (named state rfl)
  | useObjectSlot value => exact .useObjectSlot (fits value (List.mem_singleton_self value))
  | controlPacket packet =>
    rw [exprs, List.forall_mem_append, List.forall_mem_map] at fits
    refine .controlPacket ⟨.ofForall₂ (forall₂_map fun setting member => ?_), forall₂_map fits.2⟩
    exact ⟨rfl, fits.1 setting member⟩
  | nonBlocking => exact .nonBlocking
  | skipFirstBody => exact .skipFirstBody
  | unknown value => exact .unknown (fits value (List.mem_singleton_self value))

theorem attributes_like_rename {attributes : List Attribute}
    (fits : ∀ expr ∈ attributes.flatMap Attribute.exprs, expr.Like Consts (expr.rename consts))
    (named : ∀ state ∈ attributes.filterMap (·.kind.startFrom?), States state (states state)) :
    Shuffled (Attribute.Like Consts States) attributes
      (attributes.map (Attribute.rename consts states)) := by
  refine .ofForall₂ (forall₂_map fun attr member => Attribute.Kind.like_rename ?_ ?_)
  · exact fun expr inside => fits expr (List.mem_flatMap.mpr ⟨attr, member, inside⟩)
  · exact fun state given => named state (List.mem_filterMap.mpr ⟨attr, member, given⟩)

theorem commands_like_rename {commands : List Command}
    (fits : ∀ expr ∈ commands.flatMap Command.args, expr.Like Consts (expr.rename consts)) :
    List.Forall₂ (Command.Like Consts) commands (commands.map (Command.rename consts)) := by
  rw [List.forall_mem_flatMap] at fits
  exact forall₂_map fun command member => ⟨rfl, forall₂_map (fits command member)⟩

theorem consts_like_rename {decls : List ConstDecl}
    (fits : ∀ expr ∈ decls.map ConstDecl.value, expr.Like Consts (expr.rename consts))
    (declared : ∀ decl ∈ decls, Consts decl.name (consts decl.name)) :
    List.Forall₂ (ConstDecl.Like Consts) decls (decls.map (ConstDecl.rename consts)) := by
  rw [List.forall_mem_map] at fits
  exact forall₂_map fun decl member => ⟨declared decl member, fits decl member⟩

theorem StateBody.like_rename {body : StateBody}
    (fits : ∀ expr ∈ body.exprs, expr.Like Consts (expr.rename consts))
    (named : ∀ state ∈ body.jump, States state (states state)) :
    body.Like Consts States (body.rename consts states) := by
  rw [exprs, List.forall_mem_append] at fits
  refine ⟨rel_map fun condition given => ⟨rfl, rfl, rel_map fun parameter held => ?_⟩,
    commands_like_rename fits.2, rel_map named⟩
  refine fits.1 parameter (List.mem_flatMap.mpr ⟨condition, ?_, ?_⟩)
  · exact Option.mem_toList.mpr given
  · exact Option.mem_toList.mpr held

theorem State.like_rename {state : State}
    (fits : ∀ expr ∈ state.exprs, expr.Like Consts (expr.rename consts))
    (named : ∀ name ∈ state.stateNames, States name (states name)) :
    state.Like Consts States (state.rename consts states) := by
  rw [exprs, List.forall_mem_append] at fits
  rw [stateNames, List.forall_mem_cons, List.forall_mem_append] at named
  refine ⟨attributes_like_rename fits.1 named.2.1, named.1, rfl, forall₂_map fun body member => ?_⟩
  refine StateBody.like_rename ?_ fun target jumps => ?_
  · exact fun expr inside => fits.2 expr (List.mem_flatMap.mpr ⟨body, member, inside⟩)
  · exact named.2.2 target (List.mem_filterMap.mpr ⟨body, member, jumps⟩)

theorem Starter.like_rename {starter : Starter}
    (fits : ∀ expr ∈ starter.exprs, expr.Like Consts (expr.rename consts)) :
    starter.Like Consts (starter.rename consts) := by
  rw [exprs, List.forall_mem_flatMap] at fits
  refine forall₂_map fun assigner member => ⟨rfl, .ofForall₂ (forall₂_map fun field inside => ?_)⟩
  exact ⟨rfl, fits assigner member field.value (List.mem_map_of_mem inside)⟩

theorem Behaviour.likeBy_rename {behaviour : Behaviour}
    (fits : ∀ expr ∈ behaviour.exprs, expr.Like Consts (expr.rename consts))
    (declared : ∀ decl ∈ behaviour.consts, Consts decl.name (consts decl.name))
    (named : ∀ name ∈ behaviour.stateNames, States name (states name)) :
    behaviour.LikeBy Consts States (behaviour.rename consts states) := by
  rw [exprs, List.forall_mem_append, List.forall_mem_append, List.forall_mem_append] at fits
  rw [stateNames, List.forall_mem_append, List.forall_mem_flatMap] at named
  obtain ⟨attributes, values, setup, bodies⟩ := fits
  refine ⟨attributes_like_rename attributes named.1, rfl, consts_like_rename values declared,
    rel_map fun starter given => ?_, forall₂_map fun state member => ?_⟩
  · refine Starter.like_rename fun expr inside => setup expr ?_
    exact List.mem_flatMap.mpr ⟨starter, Option.mem_toList.mpr given, inside⟩
  · refine State.like_rename (fun expr inside => bodies expr ?_) (named.2 state member)
    exact List.mem_flatMap.mpr ⟨state, member, inside⟩

theorem Sequence.like_rename {sequence : Sequence}
    (fits : ∀ expr ∈ sequence.exprs, expr.Like Consts (expr.rename consts))
    (declared : ∀ decl ∈ sequence.consts, Consts decl.name (consts decl.name)) :
    sequence.Like Consts (sequence.rename consts) := by
  rw [exprs, List.forall_mem_append, List.forall_mem_append, List.forall_mem_append] at fits
  obtain ⟨attributes, values, packs, commands⟩ := fits
  rw [List.forall_mem_flatMap] at packs
  exact ⟨attributes_like_rename attributes fun _ _ => rfl, rfl, consts_like_rename values declared,
    forall₂_map fun pack member => ⟨rfl, commands_like_rename (packs pack member)⟩,
    commands_like_rename commands⟩

theorem Behaviour.Renamed.like {behaviour other : Behaviour}
    (renamed : behaviour.Renamed consts other)
    (fits : ∀ expr ∈ behaviour.exprs, expr.Like Consts (expr.rename consts))
    (declared : ∀ decl ∈ behaviour.consts, Consts decl.name (consts decl.name)) :
    behaviour.Like Consts other := by
  cases renamed with
  | @intro states injective =>
    refine ⟨StandsFor behaviour.stateNames states, StandsFor.biUnique injective, ?_⟩
    exact Behaviour.likeBy_rename fits declared fun name member => ⟨member, rfl⟩

theorem Script.Renamed.like {script other : Script} (renamed : script.Renamed consts other)
    (named : ∀ name ∈ script.constNames, Consts name (consts name)) :
    script.Like Consts other := by
  rw [constNames, List.forall_mem_append, List.forall_mem_map, List.forall_mem_flatMap] at named
  obtain ⟨declared, used⟩ := named
  have fits (expr : Expr) (member : expr ∈ script.exprs) :
      expr.Like Consts (expr.rename consts) := Expr.like_rename (used expr member)
  cases renamed with
  | @library content _ each =>
    rw [declarations, List.forall_mem_append, List.forall_mem_flatMap] at declared
    rw [exprs, Library.exprs, List.forall_mem_append, List.forall_mem_append] at fits
    obtain ⟨attributes, values, inner⟩ := fits
    rw [List.forall_mem_flatMap] at inner
    have known : ∀ behaviour ∈ content.behaviours,
        (∀ expr ∈ behaviour.exprs, expr.Like Consts (expr.rename consts)) ∧
          ∀ decl ∈ behaviour.consts, Consts decl.name (consts decl.name) :=
      fun behaviour member => ⟨inner behaviour member, declared.2 behaviour member⟩
    have parts := (List.forall₂_and_left _ _).mpr ⟨known, each⟩
    exact .library ⟨attributes_like_rename attributes fun _ _ => rfl, rfl,
      consts_like_rename values declared.1,
      parts.imp fun _ _ part => part.2.like part.1.1 part.1.2⟩
  | behaviour renamed => exact .behaviour (renamed.like fits declared)
  | sequence => exact .sequence (Sequence.like_rename fits declared)

end Nodes

/-- A script compiles alike under other names, both times to the same bytes or not at all: names of
consts and states may be exchanged as long as different names stay different. -/
theorem assemble_renamed {consts : String → String} {script other : Script}
    (injective : Set.InjOn consts {name | name ∈ script.constNames})
    (renamed : script.Renamed consts other) (resolvers : CompileResolvers) :
    Alike Eq (assemble resolvers script) (assemble resolvers other) := by
  have like : script.Like (StandsFor script.constNames consts) other :=
    renamed.like fun name member => ⟨member, rfl⟩
  exact like.assemble_alike (StandsFor.biUnique injective) resolvers

/-- A library with a behaviour that has a const of its own under a name of the library. -/
def winches (base step lift rest : String) : Library :=
  ⟨[], "Winches", [⟨step, .binary .add (.const base .dummy) (.literal 1) .dummy, .dummy⟩,
      ⟨base, .literal 4, .dummy⟩], [{
    attributes := [⟨.globalIndex (.const step .dummy), .dummy⟩, ⟨.startFrom rest, .dummy⟩]
    name := "Winch"
    consts := [⟨base, .literal 9, .dummy⟩]
    starter := none
    states := [
      ⟨[], lift, none, [⟨none, [⟨3, [.const base .dummy], .dummy⟩], some rest, .dummy⟩], .dummy⟩,
      ⟨[], rest, none, [⟨none, [], some lift, .dummy⟩], .dummy⟩]
    span := .dummy }], .dummy⟩

def winchConsts : String → String
  | "Base" => "Step"
  | "Step" => "Base"
  | name => name

def winchStates : String → String
  | "Lift" => "Rest"
  | "Rest" => "Sink"
  | name => name

def raisedWinches : Library := winches "Base" "Step" "Lift" "Rest"

/-- The same library with its consts exchanged and a new name for a state. -/
def sunkWinches : Library := winches "Step" "Base" "Rest" "Sink"

-- `winchStates` is not injective on all names, only on those in use.
theorem assemble_renamed_winches :
    Set.InjOn winchConsts {name | name ∈ (Script.library raisedWinches).constNames} ∧
    Script.Renamed winchConsts (.library raisedWinches) (.library sunkWinches) ∧
    assemble .numbersOnly (.library raisedWinches) =
      .ok [1, 0, 0, 0, 5, 0, 0, 0, 28, 0, 0, 0, 1, 0, 0, 0, 1, 2, 255, 255, 2, 0, 1, 0, 3, 0, 1, 0,
        9, 0, 0, 0, 1, 0, 255, 255, 0, 0, 0, 0] ∧
    ∀ resolvers, Alike Eq (assemble resolvers (.library raisedWinches))
      (assemble resolvers (.library sunkWinches)) := by
  have consts : ∀ name ∈ (Script.library raisedWinches).constNames,
      ∀ other ∈ (Script.library raisedWinches).constNames,
        winchConsts name = winchConsts other → name = other := by decide +kernel
  have states : ∀ behaviour ∈ raisedWinches.behaviours, ∀ name ∈ behaviour.stateNames,
      ∀ other ∈ behaviour.stateNames,
        winchStates name = winchStates other → name = other := by decide +kernel
  have injective : Set.InjOn winchConsts {name | name ∈ (Script.library raisedWinches).constNames} :=
    fun name member other also => consts name member other also
  have image : sunkWinches = { raisedWinches with
      attributes := raisedWinches.attributes.map (Attribute.rename winchConsts id)
      consts := raisedWinches.consts.map (ConstDecl.rename winchConsts)
      behaviours := raisedWinches.behaviours.map (Behaviour.rename winchConsts winchStates) } := by
    decide +kernel
  have renamed : Script.Renamed winchConsts (.library raisedWinches) (.library sunkWinches) := by
    rw [image]
    refine .library (forall₂_map fun behaviour member => .intro ?_)
    exact fun name named other also => states behaviour member name named other also
  exact ⟨injective, renamed, by decide +kernel, assemble_renamed injective renamed⟩

end BehaviourScript
