/-
This file relates scripts that differ only in what a compilation does not see: the
places their nodes were read from, the names of consts and states, and the order
of attributes, settings and fields. Which names stand for each other is given by
relations, one for the consts of a script and one for the states of each
behaviour.
-/

import BehaviourScript.Script
import Mathlib.Data.List.Forall2
import Mathlib.Data.List.Perm.Basic
import Mathlib.Logic.Relator

namespace BehaviourScript

/-! ### Rows -/

/-- Two rows that are related item by item, once the first is put into another order. -/
def Shuffled {α β : Type} (Same : α → β → Prop) (items : List α) (others : List β) : Prop :=
  ∃ row, items.Perm row ∧ List.Forall₂ Same row others

section Rows

variable {α β γ : Type} {Same : α → β → Prop} {items : List α} {others : List β}

/-- Rows that are alike item by item share what holds of all items alike. -/
theorem forall_mem_iff_of_forall₂ {First : α → Prop} {Second : β → Prop}
    (rows : List.Forall₂ Same items others)
    (each : ∀ item other, Same item other → (First item ↔ Second other)) :
    (∀ item ∈ items, First item) ↔ ∀ other ∈ others, Second other := by
  induction rows with
  | nil => exact iff_of_true nofun nofun
  | cons same _ inductionHypothesis =>
    rw [List.forall_mem_cons, List.forall_mem_cons, each _ _ same, inductionHypothesis]

theorem exists_mem_of_forall₂ (rows : List.Forall₂ Same items others) :
    ∀ item ∈ items, ∃ other ∈ others, Same item other := by
  induction rows with
  | nil => exact List.forall_mem_nil _
  | cons same _ inductionHypothesis =>
    refine List.forall_mem_cons.mpr ⟨⟨_, List.mem_cons_self, same⟩, fun item member => ?_⟩
    obtain ⟨other, inOthers, related⟩ := inductionHypothesis item member
    exact ⟨other, List.mem_cons_of_mem _ inOthers, related⟩

theorem forall_mem_iff_of_rel {First : α → Prop} {Second : β → Prop} {item : Option α}
    {other : Option β} (rel : Option.Rel Same item other)
    (each : ∀ item other, Same item other → (First item ↔ Second other)) :
    (∀ value ∈ item, First value) ↔ ∀ value ∈ other, Second value := by
  cases rel with
  | some same => simpa only [Option.mem_some_iff, forall_eq'] using each _ _ same
  | none => exact iff_of_true nofun nofun

/-- Rows that are alike item by item look the same in a view that shows no difference. -/
theorem map_eq_of_forall₂ {view : α → γ} {image : β → γ} (rows : List.Forall₂ Same items others)
    (each : ∀ item other, Same item other → view item = image other) :
    items.map view = others.map image := by
  induction rows with
  | nil => rfl
  | cons same _ inductionHypothesis =>
    rw [List.map_cons, List.map_cons, each _ _ same, inductionHypothesis]

theorem isEmpty_eq (rows : List.Forall₂ Same items others) : items.isEmpty = others.isEmpty := by
  cases rows <;> rfl

theorem isSome_eq {item : Option α} {other : Option β} (rel : Option.Rel Same item other) :
    item.isSome = other.isSome := by
  cases rel <;> rfl

theorem rel_refl (item : Option α) : Option.Rel Eq item item := by
  cases item with
  | none => exact .none
  | some value => exact .some rfl

theorem rel_imp {After : α → β → Prop} {item : Option α} {other : Option β}
    (rel : Option.Rel Same item other) (each : ∀ item other, Same item other → After item other) :
    Option.Rel After item other := by
  cases rel with
  | some same => exact .some (each _ _ same)
  | none => exact .none

theorem map_eq_of_rel {view : α → γ} {image : β → γ} {item : Option α} {other : Option β}
    (rel : Option.Rel Same item other)
    (each : ∀ item other, Same item other → view item = image other) :
    item.map view = other.map image := by
  cases rel with
  | some same => exact congrArg some (each _ _ same)
  | none => rfl

/-- A row and its image. -/
theorem forall₂_map {image : α → β} (each : ∀ item ∈ items, Same item (image item)) :
    List.Forall₂ Same items (items.map image) :=
  List.forall₂_map_right_iff.mpr (List.forall₂_same.mpr each)

theorem rel_map {image : α → β} {item : Option α} (each : ∀ value ∈ item, Same value (image value)) :
    Option.Rel Same item (item.map image) := by
  cases item with
  | none => exact .none
  | some value => exact .some (each value rfl)

namespace Shuffled

/-- Rows that are alike in order are alike in any order. -/
theorem ofForall₂ (rows : List.Forall₂ Same items others) : Shuffled Same items others :=
  ⟨items, .refl items, rows⟩

/-- A row is alike to itself in another order. -/
theorem ofPerm {Same : α → α → Prop} {items others : List α} (perm : items.Perm others)
    (each : ∀ item, Same item item) : Shuffled Same items others :=
  ⟨others, perm, List.forall₂_same.mpr fun item _ => each item⟩

theorem imp {After : α → β → Prop} (shuffled : Shuffled Same items others)
    (each : ∀ item other, Same item other → After item other) : Shuffled After items others := by
  obtain ⟨row, perm, rows⟩ := shuffled
  exact ⟨row, perm, rows.imp each⟩

/-- What holds of all items does not depend on their order. -/
theorem forall_mem_iff {First : α → Prop} {Second : β → Prop}
    (shuffled : Shuffled Same items others)
    (each : ∀ item other, Same item other → (First item ↔ Second other)) :
    (∀ item ∈ items, First item) ↔ ∀ other ∈ others, Second other := by
  obtain ⟨row, perm, rows⟩ := shuffled
  rw [← forall_mem_iff_of_forall₂ rows each]
  exact forall_congr' fun item => by rw [perm.mem_iff]

/-- Rows that are alike in any order look the same in any order. -/
theorem map_perm {view : α → γ} {image : β → γ} (shuffled : Shuffled Same items others)
    (each : ∀ item other, Same item other → view item = image other) :
    (items.map view).Perm (others.map image) := by
  obtain ⟨row, perm, rows⟩ := shuffled
  rw [← map_eq_of_forall₂ rows each]
  exact perm.map view

end Shuffled

end Rows

/-! ### Names -/

/-- Every name stands for itself. -/
theorem biUnique_eq : Relator.BiUnique (@Eq String) :=
  ⟨fun _ _ _ first second => first.trans second.symm,
    fun _ _ _ first second => first.symm.trans second⟩

/-! ### Expressions -/

/-- Two expressions of one shape whose consts stand for each other. -/
inductive Expr.Like (Consts : String → String → Prop) : Expr → Expr → Prop
  | number {value : Int} {span other : Span} : Like Consts (.number value span) (.number value other)
  | const {name image : String} {span other : Span} :
      Consts name image → Like Consts (.const name span) (.const image other)
  | neg {operand image : Expr} {span other : Span} :
      Like Consts operand image → Like Consts (.neg operand span) (.neg image other)
  | binary {op : BinOp} {left right leftImage rightImage : Expr} {span other : Span} :
      Like Consts left leftImage → Like Consts right rightImage →
      Like Consts (.binary op left right span) (.binary op leftImage rightImage other)

section Records

variable (Consts States : String → String → Prop)

/-! ### Named values and attributes -/

structure Assign.Like (first second : Assign) : Prop where
  name : first.name = second.name
  value : first.value.Like Consts second.value

structure ConstDecl.Like (first second : ConstDecl) : Prop where
  name : Consts first.name second.name
  value : first.value.Like Consts second.value

structure ControlPacket.Like (first second : ControlPacket) : Prop where
  settings : Shuffled (Assign.Like Consts) first.settings second.settings
  data : List.Forall₂ (Expr.Like Consts) first.data second.data

inductive Attribute.Kind.Like : Kind → Kind → Prop
  | globalIndex {value image : Expr} :
      value.Like Consts image → Like (.globalIndex value) (.globalIndex image)
  | priority {value image : Expr} :
      value.Like Consts image → Like (.priority value) (.priority image)
  | instanceType {value image : Expr} :
      value.Like Consts image → Like (.instanceType value) (.instanceType image)
  | startFrom {state image : String} : States state image → Like (.startFrom state) (.startFrom image)
  | useObjectSlot {value image : Expr} :
      value.Like Consts image → Like (.useObjectSlot value) (.useObjectSlot image)
  | controlPacket {packet image : ControlPacket} :
      packet.Like Consts image → Like (.controlPacket packet) (.controlPacket image)
  | nonBlocking : Like .nonBlocking .nonBlocking
  | skipFirstBody : Like .skipFirstBody .skipFirstBody
  | unknown {value image : Expr} : value.Like Consts image → Like (.unknown value) (.unknown image)

def Attribute.Like (first second : Attribute) : Prop := first.kind.Like Consts States second.kind

/-! ### Commands and states -/

structure Condition.Like (first second : Condition) : Prop where
  id : first.id = second.id
  negate : first.negate = second.negate
  parameter : Option.Rel (Expr.Like Consts) first.parameter second.parameter

structure Command.Like (first second : Command) : Prop where
  id : first.id = second.id
  args : List.Forall₂ (Expr.Like Consts) first.args second.args

structure StateBody.Like (first second : StateBody) : Prop where
  condition : Option.Rel (Condition.Like Consts) first.condition second.condition
  commands : List.Forall₂ (Command.Like Consts) first.commands second.commands
  jump : Option.Rel States first.jump second.jump

structure State.Like (first second : State) : Prop where
  attributes : Shuffled (Attribute.Like Consts States) first.attributes second.attributes
  name : States first.name second.name
  target : first.target = second.target
  bodies : List.Forall₂ (StateBody.Like Consts States) first.bodies second.bodies

/-! ### Scripts -/

structure Assigner.Like (first second : Assigner) : Prop where
  object : first.object = second.object
  fields : Shuffled (Assign.Like Consts) first.fields second.fields

def Starter.Like (first second : Starter) : Prop :=
  List.Forall₂ (Assigner.Like Consts) first.assigners second.assigners

/-- Two behaviours whose states stand for each other. -/
structure Behaviour.LikeBy (first second : Behaviour) : Prop where
  attributes : Shuffled (Attribute.Like Consts States) first.attributes second.attributes
  name : first.name = second.name
  consts : List.Forall₂ (ConstDecl.Like Consts) first.consts second.consts
  starter : Option.Rel (Starter.Like Consts) first.starter second.starter
  states : List.Forall₂ (State.Like Consts States) first.states second.states

/-- The states of each behaviour have names of their own. -/
def Behaviour.Like (first second : Behaviour) : Prop :=
  ∃ States, Relator.BiUnique States ∧ first.LikeBy Consts States second

structure CommandPack.Like (first second : CommandPack) : Prop where
  script : first.script = second.script
  commands : List.Forall₂ (Command.Like Consts) first.commands second.commands

structure Sequence.Like (first second : Sequence) : Prop where
  attributes : Shuffled (Attribute.Like Consts Eq) first.attributes second.attributes
  name : first.name = second.name
  consts : List.Forall₂ (ConstDecl.Like Consts) first.consts second.consts
  packs : List.Forall₂ (CommandPack.Like Consts) first.packs second.packs
  commands : List.Forall₂ (Command.Like Consts) first.commands second.commands

structure Library.Like (first second : Library) : Prop where
  attributes : Shuffled (Attribute.Like Consts Eq) first.attributes second.attributes
  name : first.name = second.name
  consts : List.Forall₂ (ConstDecl.Like Consts) first.consts second.consts
  behaviours : List.Forall₂ (Behaviour.Like Consts) first.behaviours second.behaviours

inductive Script.Like : Script → Script → Prop
  | library {first second : Library} : first.Like Consts second → Like (.library first) (.library second)
  | behaviour {first second : Behaviour} :
      first.Like Consts second → Like (.behaviour first) (.behaviour second)
  | sequence {first second : Sequence} :
      first.Like Consts second → Like (.sequence first) (.sequence second)

end Records

end BehaviourScript
