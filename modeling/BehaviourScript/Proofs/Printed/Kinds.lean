/-
This file gives the kinds of a printed script, node by node in the shape of the
grammar, the expressions that stand in it, and what its names and numbers must
be like for the print to be read back. A printed script spells its tree if its
expressions do not nest too deep.
-/

import BehaviourScript.Proofs.Printed.Expr

namespace BehaviourScript

open Token BehaviourScript.Parser

/-! ### Kinds, expressions and spellable nodes -/

/-- Rows of kinds with commas between them. -/
def commaKinds : List (List Kind) → List Kind
  | [] => []
  | first :: others => first ++ others.flatMap (.punct .comma :: ·)

/-- Rows of kinds with commas between them, and the parenthesis that closes them. -/
def listedKinds (rows : List (List Kind)) : List Kind := commaKinds rows ++ [.punct .rightParen]

/-- A row of kinds or none, and the parenthesis that closes it. -/
def optionalKinds (row : Option (List Kind)) : List Kind := row.getD [] ++ [.punct .rightParen]

namespace Reference

def kinds : Reference → List Kind
  | literal id => signedKinds id
  | symbol name => [.identifier name]

def Spellable : Reference → Prop
  | literal id => id.natAbs < numberBound
  | symbol name => isIdentifier name = true

end Reference

namespace Assign

def kinds (assign : Assign) : List Kind :=
  .identifier assign.name :: .punct .equals :: assign.value.kinds

def Spellable (assign : Assign) : Prop :=
  isIdentifier assign.name = true ∧ assign.value.Spellable

end Assign

namespace Parser.Argument

def kinds : Argument → List Kind
  | named assign => assign.kinds
  | plain value => value.kinds

def expr : Argument → Expr
  | named assign => assign.value
  | plain value => value

def text : Argument → String
  | named assign => assign.text
  | plain value => value.text

def Spellable : Argument → Prop
  | named assign => assign.Spellable
  | plain value => value.Spellable

end Parser.Argument

namespace Attribute

namespace Kind

/-- The arguments of an attribute, if it takes any. -/
def arguments : Kind → Option (List Argument)
  | globalIndex value => some [.plain value]
  | priority value => some [.plain value]
  | instanceType value => some [.plain value]
  | useObjectSlot value => some [.plain value]
  | unknown value => some [.plain value]
  | startFrom state => some [.plain (.const state .dummy)]
  | controlPacket packet => some (packet.settings.map .named ++ packet.data.map .plain)
  | nonBlocking => none
  | skipFirstBody => none

/-- The expressions of an attribute. The state it names is none. -/
def exprs : Kind → List Expr
  | globalIndex value => [value]
  | priority value => [value]
  | instanceType value => [value]
  | useObjectSlot value => [value]
  | unknown value => [value]
  | controlPacket packet => packet.settings.map Assign.value ++ packet.data
  | startFrom _ => []
  | nonBlocking => []
  | skipFirstBody => []

def argumentKinds (kind : Kind) : List Token.Kind :=
  match kind.arguments with
  | some arguments => .punct .leftParen :: listedKinds (arguments.map Argument.kinds)
  | none => []

end Kind

def kinds (attr : Attribute) : List Token.Kind :=
  .punct .leftBracket :: .identifier attr.kind.name ::
    (attr.kind.argumentKinds ++ [.punct .rightBracket])

def exprs (attr : Attribute) : List Expr := attr.kind.exprs

def Spellable (attr : Attribute) : Prop :=
  ∀ argument ∈ attr.kind.arguments.getD [], argument.Spellable

end Attribute

namespace ConstDecl

def kinds (decl : ConstDecl) : List Kind :=
  .keyword .const :: .identifier decl.name :: .punct .equals ::
    (decl.value.kinds ++ [.punct .semicolon])

def Spellable (decl : ConstDecl) : Prop :=
  isIdentifier decl.name = true ∧ decl.value.Spellable

end ConstDecl

namespace Command

def kinds (command : Command) : List Kind :=
  .identifier (Catalogue.commands.name command.id) :: .punct .leftParen ::
    (listedKinds (command.args.map Expr.kinds) ++ [.punct .semicolon])

def Spellable (command : Command) : Prop := ∀ arg ∈ command.args, arg.Spellable

end Command

namespace Condition

def kinds (condition : Condition) : List Kind :=
  Grammar.negation condition.negate ++
    .identifier (Catalogue.conditions.name condition.id) :: .punct .leftParen ::
      optionalKinds (condition.parameter.map Expr.kinds)

def exprs (condition : Condition) : List Expr := condition.parameter.toList

def Spellable (condition : Condition) : Prop :=
  ∀ parameter ∈ condition.parameter, parameter.Spellable

end Condition

namespace StateBody

def guardKinds : Option Condition → List Kind
  | some condition => .keyword .if :: condition.kinds
  | none => [.keyword .do]

def jumpKinds : Option String → List Kind
  | some state => [.keyword .goto, .identifier state, .punct .semicolon]
  | none => []

def kinds (body : StateBody) : List Kind :=
  guardKinds body.condition ++ .punct .leftBrace ::
    (body.commands.flatMap Command.kinds ++ (jumpKinds body.jump ++ [.punct .rightBrace]))

def exprs (body : StateBody) : List Expr :=
  body.condition.toList.flatMap Condition.exprs ++ body.commands.flatMap Command.args

def Spellable (body : StateBody) : Prop :=
  (∀ condition ∈ body.condition, condition.Spellable) ∧
    (∀ command ∈ body.commands, command.Spellable) ∧
      ∀ state ∈ body.jump, isIdentifier state = true

end StateBody

namespace State

def kinds (state : State) : List Kind :=
  state.attributes.flatMap Attribute.kinds ++ .keyword .state :: .identifier state.name ::
    .punct .leftParen :: (optionalKinds (state.target.map Reference.kinds) ++
      .punct .leftBrace :: (state.bodies.flatMap StateBody.kinds ++ [.punct .rightBrace]))

def exprs (state : State) : List Expr :=
  state.attributes.flatMap Attribute.exprs ++ state.bodies.flatMap StateBody.exprs

def Spellable (state : State) : Prop :=
  (∀ attr ∈ state.attributes, attr.Spellable) ∧ isIdentifier state.name = true ∧
    (∀ target ∈ state.target, target.Spellable) ∧ ∀ body ∈ state.bodies, body.Spellable

end State

namespace Assigner

def fieldKinds (fields : List Assign) : List Kind :=
  if fields.isEmpty then [] else .punct .leftParen :: listedKinds (fields.map Assign.kinds)

def kinds (assigner : Assigner) : List Kind :=
  .keyword .assign :: (assigner.object.kinds ++ (fieldKinds assigner.fields ++ [.punct .semicolon]))

def exprs (assigner : Assigner) : List Expr := assigner.fields.map Assign.value

def Spellable (assigner : Assigner) : Prop :=
  assigner.object.Spellable ∧ ∀ field ∈ assigner.fields, field.Spellable

end Assigner

namespace Starter

def kinds (starter : Starter) : List Kind :=
  .keyword .starter :: .punct .leftBrace ::
    (starter.assigners.flatMap Assigner.kinds ++ [.punct .rightBrace])

def exprs (starter : Starter) : List Expr := starter.assigners.flatMap Assigner.exprs

def Spellable (starter : Starter) : Prop :=
  ∀ assigner ∈ starter.assigners, assigner.Spellable

end Starter

namespace Behaviour

/-- The kinds behind the attributes. -/
def bodyKinds (behaviour : Behaviour) : List Kind :=
  .keyword .behaviour :: .identifier behaviour.name :: .punct .leftBrace ::
    (behaviour.consts.flatMap ConstDecl.kinds ++
      (behaviour.starter.toList.flatMap Starter.kinds ++
        (behaviour.states.flatMap State.kinds ++ [.punct .rightBrace])))

def kinds (behaviour : Behaviour) : List Kind :=
  behaviour.attributes.flatMap Attribute.kinds ++ behaviour.bodyKinds

def exprs (behaviour : Behaviour) : List Expr :=
  behaviour.attributes.flatMap Attribute.exprs ++ (behaviour.consts.map ConstDecl.value ++
    (behaviour.starter.toList.flatMap Starter.exprs ++ behaviour.states.flatMap State.exprs))

/-- The references in a behaviour. -/
def references (behaviour : Behaviour) : List Reference :=
  behaviour.starter.toList.flatMap (·.assigners.map Assigner.object) ++
    behaviour.states.filterMap State.target

/-- A behaviour needs a state to be read back. -/
def Spellable (behaviour : Behaviour) : Prop :=
  (∀ attr ∈ behaviour.attributes, attr.Spellable) ∧ isIdentifier behaviour.name = true ∧
    (∀ decl ∈ behaviour.consts, decl.Spellable) ∧
      (∀ starter ∈ behaviour.starter, starter.Spellable) ∧
        (∀ state ∈ behaviour.states, state.Spellable) ∧ behaviour.states ≠ []

end Behaviour

namespace CommandPack

def kinds (pack : CommandPack) : List Kind :=
  .keyword .pack :: .punct .leftParen :: (pack.script.kinds ++ .punct .rightParen ::
    .punct .leftBrace :: (pack.commands.flatMap Command.kinds ++ [.punct .rightBrace]))

def exprs (pack : CommandPack) : List Expr := pack.commands.flatMap Command.args

def Spellable (pack : CommandPack) : Prop :=
  pack.script.Spellable ∧ ∀ command ∈ pack.commands, command.Spellable

end CommandPack

namespace Sequence

/-- The kinds behind the attributes. -/
def bodyKinds (sequence : Sequence) : List Kind :=
  .keyword .sequence :: .identifier sequence.name :: .punct .leftBrace ::
    (sequence.consts.flatMap ConstDecl.kinds ++ (sequence.packs.flatMap CommandPack.kinds ++
      (sequence.commands.flatMap Command.kinds ++ [.punct .rightBrace])))

def exprs (sequence : Sequence) : List Expr :=
  sequence.attributes.flatMap Attribute.exprs ++ (sequence.consts.map ConstDecl.value ++
    (sequence.packs.flatMap CommandPack.exprs ++ sequence.commands.flatMap Command.args))

/-- The references in a sequence. -/
def references (sequence : Sequence) : List Reference := sequence.packs.map CommandPack.script

def Spellable (sequence : Sequence) : Prop :=
  (∀ attr ∈ sequence.attributes, attr.Spellable) ∧ isIdentifier sequence.name = true ∧
    (∀ decl ∈ sequence.consts, decl.Spellable) ∧
      (∀ pack ∈ sequence.packs, pack.Spellable) ∧
        ∀ command ∈ sequence.commands, command.Spellable

end Sequence

namespace Library

/-- The kinds behind the attributes. -/
def bodyKinds (library : Library) : List Kind :=
  .keyword .library :: .identifier library.name :: .punct .leftBrace ::
    (library.consts.flatMap ConstDecl.kinds ++
      (library.behaviours.flatMap Behaviour.kinds ++ [.punct .rightBrace]))

def exprs (library : Library) : List Expr :=
  library.attributes.flatMap Attribute.exprs ++ (library.consts.map ConstDecl.value ++
    library.behaviours.flatMap Behaviour.exprs)

/-- The references in a library. -/
def references (library : Library) : List Reference :=
  library.behaviours.flatMap Behaviour.references

def Spellable (library : Library) : Prop :=
  (∀ attr ∈ library.attributes, attr.Spellable) ∧ isIdentifier library.name = true ∧
    (∀ decl ∈ library.consts, decl.Spellable) ∧
      ∀ behaviour ∈ library.behaviours, behaviour.Spellable

end Library

namespace Script

/-- The kinds of a printed script. -/
def kinds : Script → List Kind
  | library content => content.attributes.flatMap Attribute.kinds ++ content.bodyKinds
  | behaviour content => content.kinds
  | sequence content => content.attributes.flatMap Attribute.kinds ++ content.bodyKinds

/-- The expressions in a script. -/
def exprs : Script → List Expr
  | library content => content.exprs
  | behaviour content => content.exprs
  | sequence content => content.exprs

/-- The references in a script, which the host resolves. -/
def references : Script → List Reference
  | library content => content.references
  | behaviour content => content.references
  | sequence content => content.references

/-- The names in a script are identifiers, its numbers fit into 64 bits and its
behaviours have states. -/
def Spellable : Script → Prop
  | library content => content.Spellable
  | behaviour content => content.Spellable
  | sequence content => content.Spellable

end Script

/-! ### Spellable nodes are recognised -/

instance : DecidablePred Reference.Spellable
  | .literal id => inferInstanceAs (Decidable (id.natAbs < numberBound))
  | .symbol name => inferInstanceAs (Decidable (isIdentifier name = true))

instance : DecidablePred Assign.Spellable := fun _ => by unfold Assign.Spellable; infer_instance

instance : DecidablePred Parser.Argument.Spellable
  | .named assign => inferInstanceAs (Decidable assign.Spellable)
  | .plain value => inferInstanceAs (Decidable value.Spellable)

instance : DecidablePred Attribute.Spellable := fun _ => by
  unfold Attribute.Spellable; infer_instance

instance : DecidablePred ConstDecl.Spellable := fun _ => by
  unfold ConstDecl.Spellable; infer_instance

instance : DecidablePred Command.Spellable := fun _ => by unfold Command.Spellable; infer_instance

instance : DecidablePred Condition.Spellable := fun _ => by
  unfold Condition.Spellable; infer_instance

instance : DecidablePred StateBody.Spellable := fun _ => by
  unfold StateBody.Spellable; infer_instance

instance : DecidablePred State.Spellable := fun _ => by unfold State.Spellable; infer_instance

instance : DecidablePred Assigner.Spellable := fun _ => by unfold Assigner.Spellable; infer_instance

instance : DecidablePred Starter.Spellable := fun _ => by unfold Starter.Spellable; infer_instance

instance : DecidablePred Behaviour.Spellable := fun _ => by
  unfold Behaviour.Spellable; infer_instance

instance : DecidablePred CommandPack.Spellable := fun _ => by
  unfold CommandPack.Spellable; infer_instance

instance : DecidablePred Sequence.Spellable := fun _ => by unfold Sequence.Spellable; infer_instance

instance : DecidablePred Library.Spellable := fun _ => by unfold Library.Spellable; infer_instance

instance : DecidablePred Script.Spellable
  | .library content => inferInstanceAs (Decidable content.Spellable)
  | .behaviour content => inferInstanceAs (Decidable content.Spellable)
  | .sequence content => inferInstanceAs (Decidable content.Spellable)

/-! ### Rows of printed nodes -/

section Rows

variable {α β : Type} {phrase : Grammar.Phrase β} {kinds : α → List Kind} {view : α → β}

/-- A row of printed nodes spells their row. -/
theorem many_flatMap {items : List α} (each : ∀ item ∈ items, phrase (kinds item) (view item)) :
    Grammar.many phrase (items.flatMap kinds) (items.map view) := by
  induction items with
  | nil => exact .nil
  | cons first others inductionHypothesis =>
    rw [List.forall_mem_cons] at each
    rw [List.flatMap_cons]
    exact .cons each.1 (inductionHypothesis each.2)

/-- Printed nodes with commas between them spell a list. -/
theorem separated_commaKinds {items : List α}
    (each : ∀ item ∈ items, phrase (kinds item) (view item)) (some : items ≠ []) :
    Grammar.separated phrase (commaKinds (items.map kinds)) (items.map view) := by
  cases items with
  | nil => exact absurd rfl some
  | cons first others =>
    rw [List.forall_mem_cons] at each
    rw [List.map_cons, commaKinds, List.flatMap_map]
    exact .intro each.1 (many_flatMap fun item member => .intro (each.2 item member))

theorem listed_listedKinds {items : List α}
    (each : ∀ item ∈ items, phrase (kinds item) (view item)) :
    Grammar.listed phrase (listedKinds (items.map kinds)) (items.map view) := by
  cases items with
  | nil => exact .none
  | cons first others => exact .some (separated_commaKinds each (List.cons_ne_nil _ _))

theorem optional_optionalKinds {item : Option α}
    (each : ∀ value ∈ item, phrase (kinds value) (view value)) :
    Grammar.optional phrase (optionalKinds (item.map kinds)) (item.map view) := by
  cases item with
  | none => exact .none
  | some value => exact .some (each value rfl)

end Rows

/-! ### Printed nodes spell their trees -/

variable {room : Nat}

/-- A reference is printed with its sign as a kind of its own. -/
theorem Reference.spelled {reference : Reference} (spellable : reference.Spellable) :
    Grammar.reference reference.kinds reference := by
  cases reference with
  | literal id =>
    rw [kinds, signedKinds]
    rw [Spellable] at spellable
    split
    · obtain ⟨magnitude, rfl⟩ : ∃ magnitude : Nat, id = -magnitude := ⟨id.natAbs, by omega⟩
      rw [Int.natAbs_neg, Int.natAbs_natCast] at spellable ⊢
      rw [← toInt_neg_ofNat spellable]
      exact .negative
    · obtain ⟨magnitude, rfl⟩ : ∃ magnitude : Nat, id = magnitude := ⟨id.natAbs, by omega⟩
      rw [Int.natAbs_natCast] at spellable ⊢
      rw [← toInt_ofNat spellable]
      exact .number
  | symbol name => exact .name

theorem Assign.spelled {assign : Assign} (spellable : assign.Spellable)
    (fits : assign.value.nesting ≤ room) :
    Grammar.assign room assign.kinds (assign.mapExpr Expr.reread) :=
  .intro (Expr.expr_spelled spellable.2 fits)

theorem Parser.Argument.spelled {argument : Argument} (spellable : argument.Spellable)
    (fits : argument.expr.nesting ≤ room) :
    Grammar.argument room argument.kinds (argument.mapExpr Expr.reread) := by
  cases argument with
  | named assign => exact .named (Assign.spelled spellable fits)
  | plain value => exact .plain (Expr.expr_spelled spellable fits)

namespace Attribute

/-- The arguments that an attribute is printed with have its shape. -/
theorem Kind.shape_arguments (kind : Kind) :
    Grammar.shape kind.name ((kind.arguments.getD []).map (Argument.mapExpr Expr.reread))
      (kind.mapExpr Expr.reread) := by
  cases kind with
  | controlPacket packet =>
    have shape : Grammar.shape "ControlPacket"
        ((packet.settings.map Argument.named ++ packet.data.map Argument.plain).map
          (Argument.mapExpr Expr.reread)) _ := .controlPacket
    rw [Argument.namedOnly_map, Argument.plainOnly_map, Argument.namedOnly_split,
      Argument.plainOnly_split] at shape
    exact shape
  | _ => constructor

/-- The arguments of an attribute hold its expressions and the state it names. -/
theorem Kind.nesting_arguments {kind : Kind} (fits : ∀ expr ∈ kind.exprs, expr.nesting ≤ room)
    {argument : Argument} (member : argument ∈ kind.arguments.getD []) :
    argument.expr.nesting ≤ room := by
  cases kind with
  | controlPacket packet =>
    rcases List.mem_append.mp member with named | plain
    · obtain ⟨setting, inSettings, rfl⟩ := List.mem_map.mp named
      exact fits _ (List.mem_append_left _ (List.mem_map_of_mem inSettings))
    · obtain ⟨value, inData, rfl⟩ := List.mem_map.mp plain
      exact fits _ (List.mem_append_right _ inData)
  | startFrom state =>
    obtain rfl := List.mem_singleton.mp member
    exact Nat.zero_le room
  | nonBlocking => cases member
  | skipFirstBody => cases member
  | _ =>
    obtain rfl := List.mem_singleton.mp member
    exact fits _ List.mem_cons_self

/-- A printed attribute spells the attribute with its numbers as they are read back. -/
theorem spelled {attr : Attribute} (spellable : attr.Spellable)
    (fits : ∀ expr ∈ attr.exprs, expr.nesting ≤ room) :
    Grammar.attr room attr.kinds (attr.mapExpr Expr.reread) := by
  refine .intro ?_ attr.kind.shape_arguments
  have each (argument : Argument) (member : argument ∈ attr.kind.arguments.getD []) :
      Grammar.argument room argument.kinds (argument.mapExpr Expr.reread) :=
    Argument.spelled (spellable argument member) (Kind.nesting_arguments fits member)
  rw [Kind.argumentKinds]
  split
  · next arguments found =>
    rw [found] at each ⊢
    exact .given (listed_listedKinds each)
  · next found =>
    rw [found]
    exact .absent

end Attribute

theorem ConstDecl.spelled {decl : ConstDecl} (spellable : decl.Spellable)
    (fits : decl.value.nesting ≤ room) :
    Grammar.constDecl room decl.kinds (decl.mapExpr Expr.reread) :=
  .intro (Expr.expr_spelled spellable.2 fits)

theorem Command.spelled {command : Command} (spellable : command.Spellable)
    (fits : ∀ arg ∈ command.args, arg.nesting ≤ room) :
    Grammar.command room command.kinds (command.mapExpr Expr.reread) :=
  .intro (Catalogue.id?_name Catalogue.commands_clear command.id)
    (listed_listedKinds fun arg member =>
      Expr.expr_spelled (spellable arg member) (fits arg member))

theorem Condition.spelled {condition : Condition} (spellable : condition.Spellable)
    (fits : ∀ expr ∈ condition.exprs, expr.nesting ≤ room) :
    Grammar.condition room condition.kinds (condition.mapExpr Expr.reread) :=
  .intro (Catalogue.id?_name Catalogue.conditions_clear condition.id)
    (optional_optionalKinds fun parameter member =>
      Expr.expr_spelled (spellable parameter member)
        (fits parameter (Option.mem_toList.mpr member)))

/-- A printed body spells the body with its numbers as they are read back. -/
theorem StateBody.spelled {body : StateBody} (spellable : body.Spellable)
    (fits : ∀ expr ∈ body.exprs, expr.nesting ≤ room) :
    Grammar.stateBody room body.kinds (body.mapExpr Expr.reread) := by
  rw [exprs, List.forall_mem_append, List.forall_mem_flatMap, List.forall_mem_flatMap] at fits
  refine .intro ?_ (many_flatMap fun command member =>
    Command.spelled (spellable.2.1 command member) (fits.2 command member)) ?_
  · cases found : body.condition with
    | none => exact .always
    | some condition =>
      exact .test (Condition.spelled (spellable.1 condition found)
        (fits.1 condition (by rw [found]; exact List.mem_cons_self)))
  · cases body.jump with
    | none => exact .absent
    | some state => exact .goto

/-- A printed state spells the state with its numbers as they are read back. -/
theorem State.spelled {state : State} (spellable : state.Spellable)
    (fits : ∀ expr ∈ state.exprs, expr.nesting ≤ room) :
    Grammar.state room state.kinds (state.mapExpr Expr.reread) := by
  rw [exprs, List.forall_mem_append, List.forall_mem_flatMap, List.forall_mem_flatMap] at fits
  have target : Grammar.optional Grammar.reference
      (optionalKinds (state.target.map Reference.kinds)) (state.target.map id) :=
    optional_optionalKinds fun reference member =>
      Reference.spelled (spellable.2.2.1 reference member)
  rw [Option.map_id, id] at target
  exact .intro (many_flatMap fun attr member =>
      Attribute.spelled (spellable.1 attr member) (fits.1 attr member)) target
    (many_flatMap fun body member =>
      StateBody.spelled (spellable.2.2.2 body member) (fits.2 body member))

theorem Assigner.spelled {assigner : Assigner} (spellable : assigner.Spellable)
    (fits : ∀ expr ∈ assigner.exprs, expr.nesting ≤ room) :
    Grammar.assigner room assigner.kinds (assigner.mapExpr Expr.reread) := by
  refine .intro (Reference.spelled spellable.1) ?_
  show Grammar.fields room (fieldKinds assigner.fields) (assigner.fields.map (Assign.mapExpr Expr.reread))
  rw [fieldKinds]
  split
  · next empty =>
    rw [List.isEmpty_iff.mp empty]
    exact .absent
  · next inhabited =>
    refine .given (.intro (separated_commaKinds
      (fun field member => Assign.spelled (spellable.2 field member) ?_) ?_))
    · exact fits _ (List.mem_map_of_mem member)
    · exact fun empty => inhabited (List.isEmpty_iff.mpr empty)

theorem Starter.spelled {starter : Starter} (spellable : starter.Spellable)
    (fits : ∀ expr ∈ starter.exprs, expr.nesting ≤ room) :
    Grammar.starter room starter.kinds (starter.mapExpr Expr.reread) := by
  rw [exprs, List.forall_mem_flatMap] at fits
  exact .intro (many_flatMap fun assigner member =>
    Assigner.spelled (spellable assigner member) (fits assigner member))

theorem attributes_spelled {attributes : List Attribute}
    (spellable : ∀ attr ∈ attributes, attr.Spellable)
    (fits : ∀ expr ∈ attributes.flatMap Attribute.exprs, expr.nesting ≤ room) :
    Grammar.many (Grammar.attr room) (attributes.flatMap Attribute.kinds)
      (attributes.map (Attribute.mapExpr Expr.reread)) := by
  rw [List.forall_mem_flatMap] at fits
  exact many_flatMap fun attr member =>
    Attribute.spelled (spellable attr member) (fits attr member)

theorem consts_spelled {consts : List ConstDecl}
    (spellable : ∀ decl ∈ consts, decl.Spellable)
    (fits : ∀ expr ∈ consts.map ConstDecl.value, expr.nesting ≤ room) :
    Grammar.many (Grammar.constDecl room) (consts.flatMap ConstDecl.kinds)
      (consts.map (ConstDecl.mapExpr Expr.reread)) :=
  many_flatMap fun decl member =>
    ConstDecl.spelled (spellable decl member) (fits _ (List.mem_map_of_mem member))

theorem commands_spelled {commands : List Command}
    (spellable : ∀ command ∈ commands, command.Spellable)
    (fits : ∀ expr ∈ commands.flatMap Command.args, expr.nesting ≤ room) :
    Grammar.many (Grammar.command room) (commands.flatMap Command.kinds)
      (commands.map (Command.mapExpr Expr.reread)) := by
  rw [List.forall_mem_flatMap] at fits
  exact many_flatMap fun command member =>
    Command.spelled (spellable command member) (fits command member)

/-- A printed behaviour spells the behaviour, behind its attributes. -/
theorem Behaviour.spelled {behaviour : Behaviour} (spellable : behaviour.Spellable)
    (fits : ∀ expr ∈ behaviour.exprs, expr.nesting ≤ room) :
    Grammar.many (Grammar.attr room) (behaviour.attributes.flatMap Attribute.kinds)
        (behaviour.attributes.map (Attribute.mapExpr Expr.reread)) ∧
      Grammar.behaviour room (behaviour.attributes.map (Attribute.mapExpr Expr.reread))
        behaviour.bodyKinds (behaviour.mapExpr Expr.reread) := by
  rw [exprs, List.forall_mem_append, List.forall_mem_append, List.forall_mem_append] at fits
  obtain ⟨attributes, consts, starter, states⟩ := fits
  obtain ⟨properAttributes, _, properConsts, properStarter, properStates, peopled⟩ := spellable
  rw [List.forall_mem_flatMap] at starter states
  refine ⟨attributes_spelled properAttributes attributes,
    .intro (consts_spelled properConsts consts) ?_ (many_flatMap fun state member =>
      State.spelled (properStates state member) (states state member)) ?_⟩
  · cases found : behaviour.starter with
    | none => exact .absent
    | some value =>
      rw [Option.toList_some, List.flatMap_singleton]
      exact .given (Starter.spelled (properStarter value found)
        (starter value (by rw [found]; exact List.mem_cons_self)))
  · intro none
    exact peopled (List.map_eq_nil_iff.mp none)

theorem CommandPack.spelled {pack : CommandPack} (spellable : pack.Spellable)
    (fits : ∀ expr ∈ pack.exprs, expr.nesting ≤ room) :
    Grammar.commandPack room pack.kinds (pack.mapExpr Expr.reread) :=
  .intro (Reference.spelled spellable.1) (commands_spelled spellable.2 fits)

/-- A printed sequence spells the sequence, behind its attributes. -/
theorem Sequence.spelled {sequence : Sequence} (spellable : sequence.Spellable)
    (fits : ∀ expr ∈ sequence.exprs, expr.nesting ≤ room) :
    Grammar.many (Grammar.attr room) (sequence.attributes.flatMap Attribute.kinds)
        (sequence.attributes.map (Attribute.mapExpr Expr.reread)) ∧
      Grammar.sequence room (sequence.attributes.map (Attribute.mapExpr Expr.reread))
        sequence.bodyKinds (sequence.mapExpr Expr.reread) := by
  rw [exprs, List.forall_mem_append, List.forall_mem_append, List.forall_mem_append] at fits
  obtain ⟨attributes, consts, packs, commands⟩ := fits
  obtain ⟨properAttributes, _, properConsts, properPacks, properCommands⟩ := spellable
  rw [List.forall_mem_flatMap] at packs
  exact ⟨attributes_spelled properAttributes attributes,
    .intro (consts_spelled properConsts consts)
      (many_flatMap fun pack member =>
        CommandPack.spelled (properPacks pack member) (packs pack member))
      (commands_spelled properCommands commands)⟩

/-- A printed library spells the library, behind its attributes. -/
theorem Library.spelled {library : Library} (spellable : library.Spellable)
    (fits : ∀ expr ∈ library.exprs, expr.nesting ≤ room) :
    Grammar.many (Grammar.attr room) (library.attributes.flatMap Attribute.kinds)
        (library.attributes.map (Attribute.mapExpr Expr.reread)) ∧
      Grammar.library room (library.attributes.map (Attribute.mapExpr Expr.reread))
        library.bodyKinds (library.mapExpr Expr.reread) := by
  rw [exprs, List.forall_mem_append, List.forall_mem_append] at fits
  obtain ⟨attributes, consts, behaviours⟩ := fits
  obtain ⟨properAttributes, _, properConsts, properBehaviours⟩ := spellable
  rw [List.forall_mem_flatMap] at behaviours
  refine ⟨attributes_spelled properAttributes attributes,
    .intro (consts_spelled properConsts consts) (many_flatMap fun behaviour member => ?_)⟩
  obtain ⟨front, spelled⟩ :=
    Behaviour.spelled (properBehaviours behaviour member) (behaviours behaviour member)
  exact .intro front spelled

/-- A printed script spells its tree, with minus signs in place of negative
numbers, if enough levels are left. -/
theorem Script.spelled {script : Script} (spellable : script.Spellable)
    (fits : ∀ expr ∈ script.exprs, expr.nesting ≤ room) :
    Grammar.script room script.kinds script.reread := by
  cases script with
  | library content =>
    obtain ⟨front, spelled⟩ := Library.spelled spellable fits
    exact .intro front (.library spelled)
  | behaviour content =>
    obtain ⟨front, spelled⟩ := Behaviour.spelled spellable fits
    exact .intro front (.behaviour spelled)
  | sequence content =>
    obtain ⟨front, spelled⟩ := Sequence.spelled spellable fits
    exact .intro front (.sequence spelled)

end BehaviourScript
