/-
This file shows that a print does not depend on the places that nodes were read
from: dropping them changes neither the text of a script nor how deep its
expressions nest.
-/

import BehaviourScript.Proofs.Printed.Kinds

namespace BehaviourScript

open BehaviourScript.Parser

namespace Expr

theorem isBinary_erase (expr : Expr) : expr.erase.isBinary = expr.isBinary := by
  cases expr <;> rfl

/-- The text of an expression does not show where it was read. -/
theorem text_erase (expr : Expr) : expr.erase.text = expr.text := by
  induction expr with
  | number value span => rfl
  | const name span => rfl
  | neg operand span inductionHypothesis =>
    rw [erase, text, text, inductionHypothesis, wrap, wrap, isBinary_erase]
  | binary op left right span leftHypothesis rightHypothesis =>
    rw [erase, text, text, leftHypothesis, rightHypothesis, wrap, wrap, isBinary_erase]

theorem spine_erase (expr : Expr) : expr.erase.spine = expr.spine := by
  induction expr with
  | binary op left right span leftHypothesis _ => rw [erase, spine, spine, leftHypothesis]
  | _ => rfl

/-- How deep the print of an expression nests does not depend on places. -/
theorem nesting_erase (expr : Expr) : expr.erase.nesting = expr.nesting := by
  induction expr with
  | number value span => rfl
  | const name span => rfl
  | neg operand span inductionHypothesis =>
    rw [erase, nesting, nesting, inductionHypothesis, wrapNesting, wrapNesting, isBinary_erase]
  | binary op left right span leftHypothesis rightHypothesis =>
    rw [erase, nesting, nesting, leftHypothesis, rightHypothesis, spine_erase, wrapNesting,
      wrapNesting, isBinary_erase]

end Expr

/-! ### Texts

A function on expressions that keeps their texts keeps the lines of every node. -/

section Rows

variable {α β : Type} {change : α → α}

/-- A change that a view does not show is not shown by a row of views. -/
theorem map_unseen {view : α → β} (same : ∀ item, view (change item) = view item)
    (items : List α) : (items.map change).map view = items.map view := by
  rw [List.map_map]
  exact List.map_congr_left fun item _ => same item

theorem flatMap_unseen {view : α → List β} (same : ∀ item, view (change item) = view item)
    (items : List α) : (items.map change).flatMap view = items.flatMap view := by
  rw [List.flatMap_map]
  exact congrArg (List.flatMap · items) (funext same)

theorem option_map_unseen {view : α → β} (same : ∀ item, view (change item) = view item)
    (item : Option α) : (item.map change).map view = item.map view := by
  cases item with
  | none => rfl
  | some value => exact congrArg some (same value)

end Rows

section Lines

variable {change : Expr → Expr} (same : ∀ expr, (change expr).text = expr.text)

include same

theorem Assign.text_mapExpr (assign : Assign) : (assign.mapExpr change).text = assign.text := by
  rw [text, mapExpr, same]
  rfl

/-- An attribute is printed the same if its expressions are. -/
theorem Attribute.Kind.text_mapExpr (kind : Attribute.Kind) :
    (kind.mapExpr change).text = kind.text := by
  have texts : (kind.mapExpr change).argumentTexts = kind.argumentTexts := by
    cases kind with
    | controlPacket packet =>
      show some ((packet.settings.map _).map Assign.text ++ (packet.data.map _).map Expr.text) = _
      rw [map_unseen (Assign.text_mapExpr same), map_unseen same]
      rfl
    | startFrom state => rfl
    | nonBlocking => rfl
    | skipFirstBody => rfl
    | _ => exact congrArg (fun text => some [text]) (same _)
  have name : (kind.mapExpr change).name = kind.name := by
    cases kind <;> rfl
  rw [text, text, texts, name]

theorem Attribute.line_mapExpr (depth : Nat) (attr : Attribute) :
    line depth (attr.mapExpr change) = line depth attr :=
  congrArg (Line.text depth) (Kind.text_mapExpr same attr.kind)

theorem ConstDecl.line_mapExpr (depth : Nat) (decl : ConstDecl) :
    line depth (decl.mapExpr change) = line depth decl := by
  rw [line, mapExpr, same]
  rfl

theorem Command.line_mapExpr (depth : Nat) (command : Command) :
    line depth (command.mapExpr change) = line depth command := by
  rw [line, mapExpr, map_unseen same]
  rfl

theorem Condition.text_mapExpr (condition : Condition) :
    (condition.mapExpr change).text = condition.text := by
  rw [text, mapExpr, option_map_unseen same]
  rfl

/-- The lines of a body are the same if its expressions are printed the same. -/
theorem StateBody.lines_mapExpr (depth : Nat) (body : StateBody) :
    lines depth (body.mapExpr change) = lines depth body := by
  have header : (body.mapExpr change).header = body.header := by
    unfold StateBody.header mapExpr
    cases body.condition with
    | none => rfl
    | some condition => exact congrArg ("if " ++ ·) (Condition.text_mapExpr same condition)
  rw [lines, header]
  show Line.block _ _ ((body.commands.map _).map _ ++ _) = _
  rw [map_unseen (Command.line_mapExpr same (depth + 1))]
  rfl

/-- The lines of a state are the same if its expressions are printed the same. -/
theorem State.lines_mapExpr (depth : Nat) (state : State) :
    lines depth (state.mapExpr change) = lines depth state := by
  show (state.attributes.map _).map _ ++ Line.block _ _ ((state.bodies.map _).flatMap _) = _
  rw [map_unseen (Attribute.line_mapExpr same depth),
    flatMap_unseen (StateBody.lines_mapExpr same (depth + 1))]
  rfl

theorem Assigner.line_mapExpr (depth : Nat) (assigner : Assigner) :
    line depth (assigner.mapExpr change) = line depth assigner := by
  rw [line, mapExpr, map_unseen (Assign.text_mapExpr same), List.isEmpty_map]
  rfl

theorem Starter.lines_mapExpr (depth : Nat) (starter : Starter) :
    lines depth (starter.mapExpr change) = lines depth starter := by
  rw [lines, mapExpr, map_unseen (Assigner.line_mapExpr same (depth + 1))]
  rfl

/-- The lines of a behaviour are the same if its expressions are printed the same. -/
theorem Behaviour.lines_mapExpr (depth : Nat) (behaviour : Behaviour) :
    lines depth (behaviour.mapExpr change) = lines depth behaviour := by
  rw [lines, mapExpr, map_unseen (Attribute.line_mapExpr same depth),
    map_unseen (ConstDecl.line_mapExpr same (depth + 1)),
    option_map_unseen (Starter.lines_mapExpr same (depth + 1)),
    map_unseen (State.lines_mapExpr same (depth + 1))]
  rfl

theorem CommandPack.lines_mapExpr (depth : Nat) (pack : CommandPack) :
    lines depth (pack.mapExpr change) = lines depth pack := by
  rw [lines, mapExpr, map_unseen (Command.line_mapExpr same (depth + 1))]
  rfl

theorem Sequence.lines_mapExpr (sequence : Sequence) :
    (sequence.mapExpr change).lines = sequence.lines := by
  rw [lines, mapExpr, map_unseen (Attribute.line_mapExpr same 0),
    map_unseen (ConstDecl.line_mapExpr same 1), flatMap_unseen (CommandPack.lines_mapExpr same 1),
    map_unseen (Command.line_mapExpr same 1)]
  rfl

theorem Library.lines_mapExpr (library : Library) :
    (library.mapExpr change).lines = library.lines := by
  rw [lines, mapExpr, map_unseen (Attribute.line_mapExpr same 0),
    map_unseen (ConstDecl.line_mapExpr same 1), map_unseen (Behaviour.lines_mapExpr same 1)]
  rfl

end Lines

/-- The print of a script does not show where the script was read. -/
theorem Script.print_erase (script : Script) (options : PrintOptions) :
    script.erase.print options = script.print options := by
  have same : script.erase.lines = script.lines := by
    cases script with
    | library content => exact Library.lines_mapExpr Expr.text_erase content
    | behaviour content => exact Behaviour.lines_mapExpr Expr.text_erase 0 content
    | sequence content => exact Sequence.lines_mapExpr Expr.text_erase content
  rw [print, print, same]

/-! ### Expressions -/

section Exprs

variable (change : Expr → Expr)

/-- If the expressions of each item are changed, so are those of a row. -/
theorem map_flatMap_view {α : Type} (view : α → List Expr) {mapped : α → α}
    (same : ∀ item, view (mapped item) = (view item).map change) (items : List α) :
    (items.map mapped).flatMap view = (items.flatMap view).map change := by
  rw [List.flatMap_map, List.map_flatMap]
  exact congrArg (List.flatMap · items) (funext same)

/-- Changing the expressions of an attribute changes the expressions that are listed of it. -/
theorem Attribute.exprs_mapExpr (attr : Attribute) :
    (attr.mapExpr change).exprs = attr.exprs.map change := by
  show (attr.kind.mapExpr change).exprs = attr.kind.exprs.map change
  cases attr.kind with
  | controlPacket packet =>
    show (packet.settings.map _).map _ ++ packet.data.map change = List.map _ (_ ++ _)
    rw [List.map_append, List.map_map, List.map_map]
    rfl
  | _ => rfl

theorem StateBody.exprs_mapExpr (body : StateBody) :
    (body.mapExpr change).exprs = body.exprs.map change := by
  show (body.condition.map _).toList.flatMap _ ++ (body.commands.map _).flatMap _ = List.map _ (_ ++ _)
  rw [List.map_append, Option.toList_map, map_flatMap_view change Condition.exprs ?_,
    map_flatMap_view change Command.args fun _ => rfl]
  intro condition
  exact Option.toList_map

theorem State.exprs_mapExpr (state : State) :
    (state.mapExpr change).exprs = state.exprs.map change := by
  show (state.attributes.map _).flatMap _ ++ (state.bodies.map _).flatMap _ = List.map _ (_ ++ _)
  rw [List.map_append, map_flatMap_view change _ (Attribute.exprs_mapExpr change),
    map_flatMap_view change _ (StateBody.exprs_mapExpr change)]

theorem Starter.exprs_mapExpr (starter : Starter) :
    (starter.mapExpr change).exprs = starter.exprs.map change := by
  refine map_flatMap_view change Assigner.exprs (fun assigner => ?_) starter.assigners
  show (assigner.fields.map _).map _ = (assigner.fields.map _).map _
  rw [List.map_map, List.map_map]
  rfl

theorem consts_mapExpr (consts : List ConstDecl) :
    (consts.map (ConstDecl.mapExpr change)).map ConstDecl.value =
      (consts.map ConstDecl.value).map change := by
  rw [List.map_map, List.map_map]
  rfl

theorem Behaviour.exprs_mapExpr (behaviour : Behaviour) :
    (behaviour.mapExpr change).exprs = behaviour.exprs.map change := by
  rw [exprs, exprs, mapExpr, List.map_append, List.map_append, List.map_append,
    map_flatMap_view change _ (Attribute.exprs_mapExpr change), consts_mapExpr, Option.toList_map,
    map_flatMap_view change _ (Starter.exprs_mapExpr change),
    map_flatMap_view change _ (State.exprs_mapExpr change)]

theorem CommandPack.exprs_mapExpr (pack : CommandPack) :
    (pack.mapExpr change).exprs = pack.exprs.map change :=
  map_flatMap_view change Command.args (fun _ => rfl) pack.commands

theorem Sequence.exprs_mapExpr (sequence : Sequence) :
    (sequence.mapExpr change).exprs = sequence.exprs.map change := by
  rw [exprs, exprs, mapExpr, List.map_append, List.map_append, List.map_append,
    map_flatMap_view change _ (Attribute.exprs_mapExpr change), consts_mapExpr,
    map_flatMap_view change _ (CommandPack.exprs_mapExpr change),
    map_flatMap_view change Command.args fun _ => rfl]

theorem Library.exprs_mapExpr (library : Library) :
    (library.mapExpr change).exprs = library.exprs.map change := by
  rw [exprs, exprs, mapExpr, List.map_append, List.map_append,
    map_flatMap_view change _ (Attribute.exprs_mapExpr change), consts_mapExpr,
    map_flatMap_view change _ (Behaviour.exprs_mapExpr change)]

/-- Changing the expressions of a script changes the expressions that are listed of it, and no
others. -/
theorem Script.exprs_mapExpr (script : Script) :
    (script.mapExpr change).exprs = script.exprs.map change := by
  cases script with
  | library content => exact Library.exprs_mapExpr change content
  | behaviour content => exact Behaviour.exprs_mapExpr change content
  | sequence content => exact Sequence.exprs_mapExpr change content

end Exprs

/-! ### Functions that agree on the expressions of a node -/

section Congruence

variable {change other : Expr → Expr}

/-- Changes that agree on the expressions of a row change its items alike. -/
theorem map_flatMap_congr {α : Type} {exprs : α → List Expr} {first second : α → α}
    (each : ∀ item, (∀ expr ∈ exprs item, change expr = other expr) → first item = second item)
    {items : List α} (same : ∀ expr ∈ items.flatMap exprs, change expr = other expr) :
    items.map first = items.map second := by
  rw [List.forall_mem_flatMap] at same
  exact List.map_congr_left fun item member => each item (same item member)

theorem option_flatMap_congr {α : Type} {exprs : α → List Expr} {first second : α → α}
    (each : ∀ item, (∀ expr ∈ exprs item, change expr = other expr) → first item = second item)
    {item : Option α} (same : ∀ expr ∈ item.toList.flatMap exprs, change expr = other expr) :
    item.map first = item.map second := by
  rw [List.forall_mem_flatMap] at same
  exact Option.map_congr fun value found =>
    each value (same value (Option.mem_toList.mpr found))

theorem assigns_mapExpr_congr {assigns : List Assign}
    (same : ∀ expr ∈ assigns.map Assign.value, change expr = other expr) :
    assigns.map (Assign.mapExpr change) = assigns.map (Assign.mapExpr other) := by
  refine List.map_congr_left fun assign member => ?_
  rw [Assign.mapExpr, Assign.mapExpr, same _ (List.mem_map_of_mem member)]

theorem consts_mapExpr_congr {consts : List ConstDecl}
    (same : ∀ expr ∈ consts.map ConstDecl.value, change expr = other expr) :
    consts.map (ConstDecl.mapExpr change) = consts.map (ConstDecl.mapExpr other) := by
  refine List.map_congr_left fun decl member => ?_
  rw [ConstDecl.mapExpr, ConstDecl.mapExpr, same _ (List.mem_map_of_mem member)]

/-- Two changes that agree on the expressions of an attribute change it alike. -/
theorem Attribute.mapExpr_congr (attr : Attribute)
    (same : ∀ expr ∈ attr.exprs, change expr = other expr) :
    attr.mapExpr change = attr.mapExpr other := by
  rw [exprs] at same
  rw [mapExpr, mapExpr, Attribute.mk.injEq]
  refine ⟨?_, rfl⟩
  cases shape : attr.kind with
  | controlPacket packet =>
    rw [shape, Kind.exprs, List.forall_mem_append] at same
    rw [Kind.mapExpr, Kind.mapExpr, ControlPacket.mapExpr, ControlPacket.mapExpr,
      assigns_mapExpr_congr same.1, List.map_congr_left same.2]
  | startFrom state => rfl
  | nonBlocking => rfl
  | skipFirstBody => rfl
  | _ =>
    rw [shape] at same
    rw [Kind.mapExpr, Kind.mapExpr, same _ List.mem_cons_self]

theorem Command.mapExpr_congr (command : Command)
    (same : ∀ expr ∈ command.args, change expr = other expr) :
    command.mapExpr change = command.mapExpr other := by
  rw [mapExpr, mapExpr, List.map_congr_left same]

theorem Condition.mapExpr_congr (condition : Condition)
    (same : ∀ expr ∈ condition.exprs, change expr = other expr) :
    condition.mapExpr change = condition.mapExpr other := by
  rw [mapExpr, mapExpr, Option.map_congr fun expr found => same expr (Option.mem_toList.mpr found)]

theorem StateBody.mapExpr_congr (body : StateBody)
    (same : ∀ expr ∈ body.exprs, change expr = other expr) :
    body.mapExpr change = body.mapExpr other := by
  rw [exprs, List.forall_mem_append] at same
  rw [mapExpr, mapExpr, option_flatMap_congr Condition.mapExpr_congr same.1,
    map_flatMap_congr Command.mapExpr_congr same.2]

theorem State.mapExpr_congr (state : State)
    (same : ∀ expr ∈ state.exprs, change expr = other expr) :
    state.mapExpr change = state.mapExpr other := by
  rw [exprs, List.forall_mem_append] at same
  rw [mapExpr, mapExpr, map_flatMap_congr Attribute.mapExpr_congr same.1,
    map_flatMap_congr StateBody.mapExpr_congr same.2]

theorem Assigner.mapExpr_congr (assigner : Assigner)
    (same : ∀ expr ∈ assigner.exprs, change expr = other expr) :
    assigner.mapExpr change = assigner.mapExpr other := by
  rw [mapExpr, mapExpr, assigns_mapExpr_congr same]

theorem Starter.mapExpr_congr (starter : Starter)
    (same : ∀ expr ∈ starter.exprs, change expr = other expr) :
    starter.mapExpr change = starter.mapExpr other := by
  rw [mapExpr, mapExpr, map_flatMap_congr Assigner.mapExpr_congr same]

theorem Behaviour.mapExpr_congr (behaviour : Behaviour)
    (same : ∀ expr ∈ behaviour.exprs, change expr = other expr) :
    behaviour.mapExpr change = behaviour.mapExpr other := by
  rw [exprs, List.forall_mem_append, List.forall_mem_append, List.forall_mem_append] at same
  obtain ⟨attributes, consts, starter, states⟩ := same
  rw [mapExpr, mapExpr, map_flatMap_congr Attribute.mapExpr_congr attributes,
    consts_mapExpr_congr consts, option_flatMap_congr Starter.mapExpr_congr starter,
    map_flatMap_congr State.mapExpr_congr states]

theorem CommandPack.mapExpr_congr (pack : CommandPack)
    (same : ∀ expr ∈ pack.exprs, change expr = other expr) :
    pack.mapExpr change = pack.mapExpr other := by
  rw [mapExpr, mapExpr, map_flatMap_congr Command.mapExpr_congr same]

theorem Sequence.mapExpr_congr (sequence : Sequence)
    (same : ∀ expr ∈ sequence.exprs, change expr = other expr) :
    sequence.mapExpr change = sequence.mapExpr other := by
  rw [exprs, List.forall_mem_append, List.forall_mem_append, List.forall_mem_append] at same
  obtain ⟨attributes, consts, packs, commands⟩ := same
  rw [mapExpr, mapExpr, map_flatMap_congr Attribute.mapExpr_congr attributes,
    consts_mapExpr_congr consts, map_flatMap_congr CommandPack.mapExpr_congr packs,
    map_flatMap_congr Command.mapExpr_congr commands]

theorem Library.mapExpr_congr (library : Library)
    (same : ∀ expr ∈ library.exprs, change expr = other expr) :
    library.mapExpr change = library.mapExpr other := by
  rw [exprs, List.forall_mem_append, List.forall_mem_append] at same
  obtain ⟨attributes, consts, behaviours⟩ := same
  rw [mapExpr, mapExpr, map_flatMap_congr Attribute.mapExpr_congr attributes,
    consts_mapExpr_congr consts, map_flatMap_congr Behaviour.mapExpr_congr behaviours]

/-- Two changes that agree on the expressions of a script change it alike. -/
theorem Script.mapExpr_congr {script : Script}
    (same : ∀ expr ∈ script.exprs, change expr = other expr) :
    script.mapExpr change = script.mapExpr other := by
  cases script with
  | library content => exact congrArg library (content.mapExpr_congr same)
  | behaviour content => exact congrArg behaviour (content.mapExpr_congr same)
  | sequence content => exact congrArg sequence (content.mapExpr_congr same)

end Congruence

/-- How deep the expressions of a script nest does not depend on their places. -/
theorem Script.nesting_erase (script : Script) (levels : Nat) :
    (∀ expr ∈ script.erase.exprs, expr.nesting ≤ levels) ↔
      ∀ expr ∈ script.exprs, expr.nesting ≤ levels := by
  rw [erase, exprs_mapExpr, List.forall_mem_map]
  simp only [Expr.nesting_erase]

end BehaviourScript
