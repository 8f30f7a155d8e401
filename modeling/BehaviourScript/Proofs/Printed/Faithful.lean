/-
This file goes from the grammar back to printed scripts: the tree that a row of
kinds spells is spellable, it has no negative numbers, and its print is not
longer than the row. Where the print is as long, no parentheses were dropped, so
the print takes no more levels of nesting than the row did.

There is one attribute that a row may spell with fewer kinds than its print: a
control packet that is empty and has no parentheses. Rows without it are called
polite, and lengths are compared for these only. Printed scripts are polite.
-/

import BehaviourScript.Proofs.Printed.Kinds
import Mathlib.Algebra.Ring.Nat

namespace BehaviourScript

open Token BehaviourScript.Parser

/-! ### Rows to start from -/

/-- A row of kinds that tokens in front of the end mark can have. -/
def Proper (row : List Kind) : Prop := ∀ kind ∈ row, kind.Lexical

namespace Proper

variable {row front behind : List Kind} {kind : Kind}

theorem left (proper : Proper (front ++ behind)) : Proper front :=
  (List.forall_mem_append.mp proper).1

theorem right (proper : Proper (front ++ behind)) : Proper behind :=
  (List.forall_mem_append.mp proper).2

theorem tail (proper : Proper (kind :: row)) : Proper row := (List.forall_mem_cons.mp proper).2

end Proper

/-- An empty control packet without parentheses. -/
def bareControlPacket : List Kind :=
  [.punct .leftBracket, .identifier "ControlPacket", .punct .rightBracket]

/-- A row in which every control packet has its parentheses. -/
def Polite (row : List Kind) : Prop := ¬bareControlPacket <:+: row

namespace Polite

variable {row front behind : List Kind} {kind : Kind}

/-- A part of a polite row is polite. -/
theorem within (polite : Polite row) (inside : front <:+: row) : Polite front :=
  fun bare => polite (bare.trans inside)

theorem left (polite : Polite (front ++ behind)) : Polite front :=
  polite.within (List.infix_append [] front behind)

theorem right (polite : Polite (front ++ behind)) : Polite behind :=
  polite.within (List.suffix_append front behind).isInfix

theorem tail (polite : Polite (kind :: row)) : Polite row :=
  polite.within (List.suffix_cons kind row).isInfix

end Polite

/-! ### What a row gives its tree -/

/-- What is known of a tree that a row spells, by the kinds of the tree, its
expressions and whether it is spellable. -/
structure Preserved (room : Nat) (row kinds : List Kind) (exprs : List Expr)
    (spellable : Prop) : Prop where
  spellable : spellable
  natural : ∀ expr ∈ exprs, expr.Natural
  shortest : Polite row → kinds.length ≤ row.length
  fits : Polite row → kinds.length = row.length → ∀ expr ∈ exprs, expr.nesting ≤ room

/-- All rows that spell a tree keep it. -/
def Keeps {α : Type} (room : Nat) (phrase : Grammar.Phrase α) (kinds : α → List Kind)
    (exprs : α → List Expr) (spellable : α → Prop) : Prop :=
  ∀ row value, phrase row value → Proper row →
    Preserved room row (kinds value) (exprs value) (spellable value)

namespace Preserved

variable {room : Nat} {row otherRow kinds otherKinds : List Kind}
  {exprs otherExprs : List Expr} {good otherGood : Prop}

theorem nil : Preserved room [] [] [] True :=
  ⟨trivial, nofun, fun _ => Nat.le_refl _, fun _ _ => nofun⟩

/-- What is known of two trees is known of them together. Rows that are as long as their prints
together are so each. -/
theorem append (first : Preserved room row kinds exprs good)
    (second : Preserved room otherRow otherKinds otherExprs otherGood) :
    Preserved room (row ++ otherRow) (kinds ++ otherKinds) (exprs ++ otherExprs)
      (good ∧ otherGood) := by
  refine ⟨⟨first.spellable, second.spellable⟩,
    List.forall_mem_append.mpr ⟨first.natural, second.natural⟩, fun polite => ?_,
    fun polite same => ?_⟩
  · rw [List.length_append, List.length_append]
    exact Nat.add_le_add (first.shortest polite.left) (second.shortest polite.right)
  · have := first.shortest polite.left
    have := second.shortest polite.right
    rw [List.length_append, List.length_append] at same
    exact List.forall_mem_append.mpr
      ⟨first.fits polite.left (by omega), second.fits polite.right (by omega)⟩

/-- A kind in front, which may be another one in the print. -/
theorem cons (kind other : Kind) (behind : Preserved room row kinds exprs good) :
    Preserved room (kind :: row) (other :: kinds) exprs good :=
  ⟨behind.spellable, behind.natural,
    fun polite => Nat.succ_le_succ (behind.shortest polite.tail),
    fun polite same => behind.fits polite.tail (Nat.succ.inj same)⟩

/-- A name that stands in a row is spelled as itself. -/
theorem name {name : String} (proper : Proper (.identifier name :: row))
    (behind : Preserved room row kinds exprs good) :
    Preserved room (.identifier name :: row) (.identifier name :: kinds) exprs
      (isIdentifier name = true ∧ good) :=
  have whole := behind.cons (.identifier name) (.identifier name)
  ⟨⟨proper _ List.mem_cons_self, whole.spellable⟩, whole.natural, whole.shortest, whole.fits⟩

/-- Kinds that are printed as they stand, in front. -/
theorem fixed (front : List Kind) (behind : Preserved room row kinds exprs good) :
    Preserved room (front ++ row) (front ++ kinds) exprs good := by
  induction front with
  | nil => exact behind
  | cons kind others inductionHypothesis => exact inductionHypothesis.cons kind kind

/-- A last kind. -/
theorem last (kind : Kind) (front : Preserved room row kinds exprs good) :
    Preserved room (row ++ [kind]) (kinds ++ [kind]) exprs good := by
  refine ⟨front.spellable, front.natural, fun polite => ?_, fun polite same => ?_⟩
  · rw [List.length_append, List.length_append]
    exact Nat.succ_le_succ (front.shortest polite.left)
  · rw [List.length_append, List.length_append] at same
    exact front.fits polite.left (Nat.succ.inj same)

/-- What follows from being spellable may stand in its place. -/
theorem imp (known : Preserved room row kinds exprs good) (weaker : good → otherGood) :
    Preserved room row kinds exprs otherGood :=
  ⟨weaker known.spellable, known.natural, known.shortest, known.fits⟩

end Preserved

namespace Keeps

variable {α : Type} {room : Nat} {phrase : Grammar.Phrase α} {kinds : α → List Kind}
  {exprs : α → List Expr} {spellable : α → Prop}

/-- A row of trees keeps what each of them keeps. -/
theorem many (item : Keeps room phrase kinds exprs spellable) :
    Keeps room (Grammar.many phrase) (List.flatMap kinds) (List.flatMap exprs)
      (fun values => ∀ value ∈ values, spellable value) := by
  intro row values spelled proper
  induction spelled with
  | nil => exact Preserved.nil.imp fun _ => nofun
  | cons first _ inductionHypothesis =>
    have whole := (item _ _ first proper.left).append (inductionHypothesis proper.right)
    exact whole.imp List.forall_mem_cons.mpr

/-- Commas are neither dropped nor added. -/
theorem separated (item : Keeps room phrase kinds exprs spellable) :
    Keeps room (Grammar.separated phrase) (fun values => commaKinds (values.map kinds))
      (List.flatMap exprs) (fun values => ∀ value ∈ values, spellable value) := by
  rintro row values ⟨first, others⟩ proper
  have behind : Keeps room (Grammar.afterComma phrase) (fun value => .punct .comma :: kinds value)
      exprs spellable := by
    rintro _ _ ⟨spelled⟩ proper
    exact (item _ _ spelled proper.tail).cons _ _
  have whole := (item _ _ first proper.left).append (behind.many _ _ others proper.right)
  show Preserved room _ (_ ++ List.flatMap _ (List.map kinds _)) _ _
  rw [List.flatMap_map]
  exact whole.imp List.forall_mem_cons.mpr

/-- A list in parentheses keeps what its items keep. -/
theorem listed (item : Keeps room phrase kinds exprs spellable) :
    Keeps room (Grammar.listed phrase) (fun values => listedKinds (values.map kinds))
      (List.flatMap exprs) (fun values => ∀ value ∈ values, spellable value) := by
  rintro row values (_ | ⟨spelled⟩) proper
  · exact (Preserved.nil.last _).imp fun _ => nofun
  · exact (item.separated _ _ spelled proper.left).last _

theorem optional (item : Keeps room phrase kinds exprs spellable) :
    Keeps room (Grammar.optional phrase) (fun value => optionalKinds (value.map kinds))
      (fun value => value.toList.flatMap exprs) (fun value => ∀ inner ∈ value, spellable inner) := by
  rintro row value (_ | ⟨spelled⟩) proper
  · exact (Preserved.nil.last _).imp fun _ => nofun
  · have whole := (item _ _ spelled proper.left).last (.punct .rightParen)
    rw [← List.append_nil (exprs _)] at whole
    refine whole.imp ?_
    rintro good _ ⟨⟩
    exact good

end Keeps

/-! ### Nodes on a line -/

variable {room : Nat}

/-- Of an expression the print may drop parentheses. If it drops none, it nests no deeper. -/
theorem expr_keeps :
    Keeps room (Grammar.expr room) Expr.kinds (fun expr => [expr]) Expr.Spellable := by
  intro row value spelled proper
  have known := Expr.expr_faithful spelled proper
  exact ⟨known.spellable, List.forall_mem_singleton.mpr known.natural, fun _ => known.shortest,
    fun _ same => List.forall_mem_singleton.mpr (known.fits same)⟩

/-- A reference has one spelling, but that of zero may have a sign. -/
theorem reference_keeps (room : Nat) :
    Keeps room Grammar.reference Reference.kinds (fun _ => []) Reference.Spellable := by
  intro row value spelled proper
  cases spelled with
  | @number value =>
    have unsigned : 0 ≤ value.toInt := proper _ List.mem_cons_self
    have positive : ¬value.toInt < 0 := Int.not_lt.mpr unsigned
    refine ⟨?_, List.forall_mem_nil _, fun _ => ?_, fun _ _ => List.forall_mem_nil _⟩
    · obtain ⟨number, small, rfl⟩ := exists_ofNat unsigned
      rw [Reference.Spellable, toInt_ofNat small, Int.natAbs_natCast]
      exact small
    · rw [Reference.kinds, signedKinds, if_neg positive]
      exact Nat.le_refl _
  | @negative value =>
    have unsigned : 0 ≤ value.toInt := proper _ (List.mem_cons_of_mem _ List.mem_cons_self)
    refine ⟨?_, List.forall_mem_nil _, fun _ => ?_, fun _ _ => List.forall_mem_nil _⟩
    · obtain ⟨number, small, rfl⟩ := exists_ofNat unsigned
      rw [Reference.Spellable, toInt_neg_ofNat small, Int.natAbs_neg, Int.natAbs_natCast]
      exact small
    · rw [Reference.kinds, signedKinds]
      split
      · exact Nat.le_refl 2
      · exact Nat.le_succ 1
  | name => exact (Preserved.name proper .nil).imp And.left

theorem assign_keeps :
    Keeps room (Grammar.assign room) Assign.kinds (fun assign => [assign.value])
      Assign.Spellable := by
  rintro row value ⟨spelled⟩ proper
  exact .name proper ((expr_keeps _ _ spelled proper.tail.tail).cons _ _)

/-- An argument is spelled with its name or without one. -/
theorem argument_keeps :
    Keeps room (Grammar.argument room) Argument.kinds (fun argument => [argument.expr])
      Argument.Spellable := by
  rintro row value (⟨spelled⟩ | ⟨spelled⟩) proper
  · exact assign_keeps _ _ spelled proper
  · exact expr_keeps _ _ spelled proper

theorem constDecl_keeps :
    Keeps room (Grammar.constDecl room) ConstDecl.kinds (fun decl => [decl.value])
      ConstDecl.Spellable := by
  rintro row value ⟨spelled⟩ proper
  have inner := expr_keeps _ _ spelled proper.tail.tail.tail.left
  exact (Preserved.name proper.tail ((inner.last _).cons _ _)).cons _ _

theorem command_keeps :
    Keeps room (Grammar.command room) Command.kinds Command.args Command.Spellable := by
  rintro row value ⟨_, spelled⟩ proper
  have inner := expr_keeps.listed _ _ spelled proper.tail.tail.left
  rw [← List.map_eq_flatMap, List.map_id'] at inner
  exact ((inner.last _).cons _ _).cons _ _

theorem condition_keeps :
    Keeps room (Grammar.condition room) Condition.kinds Condition.exprs
      Condition.Spellable := by
  rintro row value ⟨_, spelled⟩ proper
  have inner := expr_keeps.optional _ _ spelled proper.right.tail.tail
  simp only [← List.map_eq_flatMap, List.map_id'] at inner
  exact ((inner.cons _ _).cons _ _).fixed _

/-! ### Attributes -/

/-- There is one comma less than there are items. -/
theorem length_commaKinds {rows : List (List Kind)} (some : rows ≠ []) :
    (commaKinds rows).length + 1 = (rows.map (·.length + 1)).sum := by
  cases rows with
  | nil => exact absurd rfl some
  | cons first others =>
    rw [commaKinds, List.length_append, List.length_flatMap, List.map_cons, List.sum_cons]
    simp only [List.length_cons]
    omega

/-- Rows in another order are as long. -/
theorem length_listedKinds_perm {rows others : List (List Kind)} (same : rows.Perm others) :
    (listedKinds rows).length = (listedKinds others).length := by
  rw [listedKinds, listedKinds, List.length_append, List.length_append]
  by_cases none : rows = []
  · subst none
    rw [same.nil_eq]
  · have first := length_commaKinds none
    have second := length_commaKinds fun empty => none (List.Perm.eq_nil (empty ▸ same))
    have sums := (same.map (·.length + 1)).sum_nat
    omega

/-- The named arguments and the others are all arguments. -/
theorem split_perm (arguments : List Argument) :
    ((Argument.namedOnly arguments).map Argument.named ++
      (Argument.plainOnly arguments).map Argument.plain).Perm arguments := by
  induction arguments with
  | nil => exact .nil
  | cons argument others inductionHypothesis =>
    cases argument with
    | named assign => exact inductionHypothesis.cons _
    | plain value =>
      exact List.perm_middle.trans (inductionHypothesis.cons (Argument.plain value))

/-- An attribute is called as it is spelled. -/
theorem shape_name {name : String} {values : List Argument} {kind : Attribute.Kind}
    (shape : Grammar.shape name values kind) : kind.name = name := by
  cases shape <;> rfl

/-- The expressions of an attribute are its arguments. -/
theorem shape_exprs {name : String} {values : List Argument} {kind : Attribute.Kind} {expr : Expr}
    (shape : Grammar.shape name values kind) (member : expr ∈ kind.exprs) :
    expr ∈ values.map Argument.expr := by
  cases shape with
  | controlPacket =>
    rcases List.mem_append.mp member with named | plain
    · obtain ⟨assign, inNamed, rfl⟩ := List.mem_map.mp named
      have inValues := (split_perm values).mem_iff.mp
        (List.mem_append_left _ (List.mem_map_of_mem inNamed))
      exact List.mem_map_of_mem inValues
    · have inValues := (split_perm values).mem_iff.mp
        (List.mem_append_right _ (List.mem_map_of_mem plain))
      exact List.mem_map_of_mem inValues
  | startFrom => cases member
  | nonBlocking => cases member
  | skipFirstBody => cases member
  | _ => exact member

/-- The arguments of an attribute are printed in an order of their own, which is not longer. -/
theorem arguments_given {name : String} {values : List Argument} {kind : Attribute.Kind}
    {row : List Kind} (shape : Grammar.shape name values kind)
    (given : Preserved room row (listedKinds (values.map Argument.kinds))
      (values.flatMap fun argument => [argument.expr])
      (∀ argument ∈ values, argument.Spellable)) :
    Preserved room (.punct .leftParen :: row) kind.argumentKinds kind.exprs
      (∀ argument ∈ kind.arguments.getD [], argument.Spellable) := by
  cases shape with
  | controlPacket =>
    have same := split_perm values
    have long := length_listedKinds_perm (same.map Argument.kinds)
    have inside {expr : Expr} (member : expr ∈ (Argument.namedOnly values).map Assign.value ++
        Argument.plainOnly values) : expr ∈ values.flatMap fun argument => [argument.expr] := by
      rw [← List.map_eq_flatMap]
      exact shape_exprs .controlPacket member
    refine ⟨fun argument member => given.spellable argument (same.mem_iff.mp member),
      fun expr member => given.natural expr (inside member),
      fun polite => Nat.succ_le_succ (long ▸ given.shortest polite.tail),
      fun polite equal expr member =>
        given.fits polite.tail (long ▸ Nat.succ.inj equal) expr (inside member)⟩
  | startFrom =>
    refine ⟨fun argument member => ?_, nofun,
      fun polite => Nat.succ_le_succ (given.shortest polite.tail), fun _ _ => nofun⟩
    have named : isIdentifier _ = true := given.spellable _ List.mem_cons_self
    obtain rfl := List.mem_singleton.mp member
    exact named
  | nonBlocking => exact ⟨nofun, nofun, fun _ => Nat.zero_le _, fun _ _ => nofun⟩
  | skipFirstBody => exact ⟨nofun, nofun, fun _ => Nat.zero_le _, fun _ _ => nofun⟩
  | _ => exact given.cons _ _

/-- An attribute without arguments is printed without them, but for a control packet. -/
theorem arguments_absent {name : String} {kind : Attribute.Kind}
    (shape : Grammar.shape name [] kind) :
    kind.exprs = [] ∧ (∀ argument ∈ kind.arguments.getD [], argument.Spellable) ∧
      (name ≠ "ControlPacket" → kind.argumentKinds = []) := by
  cases shape with
  | controlPacket => exact ⟨rfl, nofun, fun polite => absurd rfl polite⟩
  | nonBlocking => exact ⟨rfl, nofun, fun _ => rfl⟩
  | skipFirstBody => exact ⟨rfl, nofun, fun _ => rfl⟩

/-- An attribute keeps its arguments. A control packet without parentheses is the one that gets
longer, and no polite row has it. -/
theorem attr_keeps :
    Keeps room (Grammar.attr room) Attribute.kinds Attribute.exprs Attribute.Spellable := by
  intro row value spelled proper
  cases spelled with
  | @intro name kinds values kind spelled shape =>
    rw [Attribute.kinds, shape_name shape]
    cases spelled with
    | absent =>
      obtain ⟨none, spellable, plain⟩ := arguments_absent shape
      refine ⟨spellable, ?_, fun polite => ?_, fun _ _ => ?_⟩
      · rw [Attribute.exprs, none]
        exact nofun
      · have other : name ≠ "ControlPacket" := by
          rintro rfl
          exact polite List.infix_rfl
        exact Nat.le_of_eq (by rw [plain other])
      · rw [Attribute.exprs, none]
        exact nofun
    | given spelled =>
      have inner := argument_keeps.listed _ _ spelled proper.tail.tail.left.tail
      exact (((arguments_given shape inner).last _).cons _ _).cons _ _

/-! ### Nodes of several lines -/

theorem guard_keeps :
    Keeps room (Grammar.guard room) StateBody.guardKinds
      (fun condition => condition.toList.flatMap Condition.exprs)
      (fun condition => ∀ inner ∈ condition, inner.Spellable) := by
  rintro row value (⟨spelled⟩ | _) proper
  · have whole := (condition_keeps _ _ spelled proper.tail).cons (.keyword .if) (.keyword .if)
    rw [← List.append_nil (Condition.exprs _)] at whole
    refine whole.imp ?_
    rintro good _ ⟨⟩
    exact good
  · exact (Preserved.nil.cons _ _).imp fun _ => nofun

theorem jump_keeps (room : Nat) :
    Keeps room Grammar.jump StateBody.jumpKinds (fun _ => [])
      (fun jump => ∀ state ∈ jump, isIdentifier state = true) := by
  rintro row value (_ | _) proper
  · exact Preserved.nil.imp fun _ => nofun
  · refine ((Preserved.name proper.tail (Preserved.nil.cons _ _)).cons _ _).imp ?_
    rintro good _ ⟨⟩
    exact good.1

/-- A body keeps its condition, its commands and its jump. -/
theorem stateBody_keeps :
    Keeps room (Grammar.stateBody room) StateBody.kinds StateBody.exprs
      StateBody.Spellable := by
  rintro row value ⟨opening, commands, leap⟩ proper
  have front := guard_keeps _ _ opening proper.left
  have middle := command_keeps.many _ _ commands proper.right.tail.left
  have behind := jump_keeps room _ _ leap proper.right.tail.right.left
  have whole := front.append ((middle.append (behind.last (.punct .rightBrace))).cons
    (.punct .leftBrace) (.punct .leftBrace))
  rw [List.append_nil] at whole
  exact whole

theorem target_keeps (room : Nat) :
    Keeps room (Grammar.optional Grammar.reference)
      (fun target => optionalKinds (target.map Reference.kinds)) (fun _ => [])
      (fun target => ∀ inner ∈ target, inner.Spellable) := by
  intro row value spelled proper
  have known := (reference_keeps room).optional _ _ spelled proper
  exact ⟨known.spellable, nofun, known.shortest, fun _ _ => nofun⟩

/-- A state keeps its attributes, its target and its bodies. -/
theorem state_keeps :
    Keeps room (Grammar.state room) State.kinds State.exprs State.Spellable := by
  rintro row value ⟨attributes, target, bodies⟩ proper
  have front := attr_keeps.many _ _ attributes proper.left
  have middle := target_keeps room _ _ target proper.right.tail.tail.tail.left
  have behind := stateBody_keeps.many _ _ bodies
    proper.right.tail.tail.tail.right.tail.left
  have inner := middle.append ((behind.last (.punct .rightBrace)).cons (.punct .leftBrace)
    (.punct .leftBrace))
  exact front.append ((Preserved.name proper.right.tail (inner.cons _ _)).cons _ _)

theorem fields_keeps :
    Keeps room (Grammar.fields room) Assigner.fieldKinds (List.map Assign.value)
      (fun fields => ∀ field ∈ fields, field.Spellable) := by
  rintro row value (_ | ⟨⟨spelled⟩⟩) proper
  · exact Preserved.nil.imp fun _ => nofun
  · have inner := (assign_keeps.separated _ _ spelled proper.tail.left).last (.punct .rightParen)
    rw [← List.map_eq_flatMap] at inner
    cases spelled
    exact inner.cons _ _

theorem assigner_keeps :
    Keeps room (Grammar.assigner room) Assigner.kinds Assigner.exprs Assigner.Spellable := by
  rintro row value ⟨object, fields⟩ proper
  have front := reference_keeps room _ _ object proper.tail.left
  have behind := fields_keeps _ _ fields proper.tail.right.left
  exact (front.append (behind.last _)).cons _ _

theorem starter_keeps :
    Keeps room (Grammar.starter room) Starter.kinds Starter.exprs Starter.Spellable := by
  rintro row value ⟨spelled⟩ proper
  have inner := assigner_keeps.many _ _ spelled proper.tail.tail.left
  exact ((inner.last _).cons _ _).cons _ _

theorem setup_keeps :
    Keeps room (Grammar.setup room) (fun initial => initial.toList.flatMap Starter.kinds)
      (fun initial => initial.toList.flatMap Starter.exprs)
      (fun initial => ∀ starter ∈ initial, starter.Spellable) := by
  rintro row value (_ | ⟨spelled⟩) proper
  · exact Preserved.nil.imp fun _ => nofun
  · have whole := starter_keeps _ _ spelled proper
    rw [← List.append_nil (Starter.exprs _), ← List.append_nil (Starter.kinds _)] at whole
    refine whole.imp ?_
    rintro good _ ⟨⟩
    exact good

section Units

variable {attributes : List Attribute} {front row : List Kind}

/-- A behaviour keeps its parts, with the attributes in front of it. -/
theorem behaviour_keeps {behaviour : Behaviour}
    (before : Grammar.many (Grammar.attr room) front attributes)
    (spelled : Grammar.behaviour room attributes row behaviour) (proper : Proper (front ++ row)) :
    Preserved room (front ++ row) behaviour.kinds behaviour.exprs behaviour.Spellable := by
  obtain ⟨consts, initial, states, peopled⟩ := spelled
  have inside := proper.right.tail.tail.tail
  have first := attr_keeps.many _ _ before proper.left
  have second := constDecl_keeps.many _ _ consts inside.left
  have third := setup_keeps _ _ initial inside.right.left
  have fourth := state_keeps.many _ _ states inside.right.right.left
  rw [← List.map_eq_flatMap] at second
  have inner := second.append (third.append (fourth.last (.punct .rightBrace)))
  have whole := first.append ((Preserved.name proper.right.tail (inner.cons
    (.punct .leftBrace) (.punct .leftBrace))).cons (.keyword .behaviour) (.keyword .behaviour))
  refine whole.imp ?_
  rintro ⟨goodAttributes, named, goodConsts, goodStarter, goodStates⟩
  exact ⟨goodAttributes, named, goodConsts, goodStarter, goodStates, peopled⟩

theorem libraryBehaviour_keeps :
    Keeps room (Grammar.libraryBehaviour room) Behaviour.kinds Behaviour.exprs
      Behaviour.Spellable := by
  rintro row value ⟨before, spelled⟩ proper
  exact behaviour_keeps before spelled proper

theorem commandPack_keeps :
    Keeps room (Grammar.commandPack room) CommandPack.kinds CommandPack.exprs
      CommandPack.Spellable := by
  rintro row value ⟨script, commands⟩ proper
  have front := reference_keeps room _ _ script proper.tail.tail.left
  have behind := command_keeps.many _ _ commands proper.tail.tail.right.tail.tail.left
  exact ((front.append (((behind.last _).cons _ _).cons _ _)).cons _ _).cons _ _

/-- A sequence keeps its parts, with the attributes in front of it. -/
theorem sequence_keeps {sequence : Sequence}
    (before : Grammar.many (Grammar.attr room) front attributes)
    (spelled : Grammar.sequence room attributes row sequence) (proper : Proper (front ++ row)) :
    Preserved room (front ++ row) (sequence.attributes.flatMap Attribute.kinds ++ sequence.bodyKinds)
      sequence.exprs sequence.Spellable := by
  obtain ⟨consts, packs, commands⟩ := spelled
  have inside := proper.right.tail.tail.tail
  have first := attr_keeps.many _ _ before proper.left
  have second := constDecl_keeps.many _ _ consts inside.left
  have third := commandPack_keeps.many _ _ packs inside.right.left
  have fourth := command_keeps.many _ _ commands inside.right.right.left
  rw [← List.map_eq_flatMap] at second
  have inner := second.append (third.append (fourth.last (.punct .rightBrace)))
  exact first.append ((Preserved.name proper.right.tail (inner.cons _ _)).cons _ _)

/-- A library keeps its parts, with the attributes in front of it. -/
theorem library_keeps {library : Library}
    (before : Grammar.many (Grammar.attr room) front attributes)
    (spelled : Grammar.library room attributes row library) (proper : Proper (front ++ row)) :
    Preserved room (front ++ row) (library.attributes.flatMap Attribute.kinds ++ library.bodyKinds)
      library.exprs library.Spellable := by
  obtain ⟨consts, behaviours⟩ := spelled
  have inside := proper.right.tail.tail.tail
  have first := attr_keeps.many _ _ before proper.left
  have second := constDecl_keeps.many _ _ consts inside.left
  have third := libraryBehaviour_keeps.many _ _ behaviours inside.right.left
  rw [← List.map_eq_flatMap] at second
  have inner := second.append (third.last (.punct .rightBrace))
  exact first.append ((Preserved.name proper.right.tail (inner.cons _ _)).cons _ _)

end Units

/-- A script that proper kinds spell is spellable, its print is not longer than
they are, and if it is as long then it fits into the levels left. -/
theorem script_keeps :
    Keeps room (Grammar.script room) Script.kinds Script.exprs Script.Spellable := by
  rintro row value ⟨before, spelled⟩ proper
  cases spelled with
  | library spelled => exact library_keeps before spelled proper
  | behaviour spelled => exact behaviour_keeps before spelled proper
  | sequence spelled => exact sequence_keeps before spelled proper

/-! ### Printed scripts are polite -/

/-- A row that keeps what follows it polite. -/
def Civil (row : List Kind) : Prop := ∀ rest, Polite rest → Polite (row ++ rest)

namespace Civil

theorem nil : Civil [] := fun _ polite => polite

/-- Two pieces that leave a polite row polite do so together. -/
theorem append {front behind : List Kind} (first : Civil front) (second : Civil behind) :
    Civil (front ++ behind) := by
  intro rest polite
  rw [List.append_assoc]
  exact first _ (second _ polite)

/-- A kind that is no bracket leaves a polite row polite. -/
theorem cons {kind : Kind} {row : List Kind} (other : kind ≠ .punct .leftBracket)
    (behind : Civil row) : Civil (kind :: row) := by
  intro rest polite bare
  rcases List.infix_cons_iff.mp bare with start | later
  · exact other (List.cons_prefix_cons.mp start).1.symm
  · exact behind _ polite later

theorem flatMap {α : Type} {kinds : α → List Kind} (each : ∀ item, Civil (kinds item))
    (items : List α) : Civil (items.flatMap kinds) := by
  induction items with
  | nil => exact nil
  | cons first others inductionHypothesis =>
    rw [List.flatMap_cons]
    exact (each first).append inductionHypothesis

theorem listed {α : Type} {kinds : α → List Kind} (each : ∀ item, Civil (kinds item))
    (items : List α) : Civil (listedKinds (items.map kinds)) := by
  refine append ?_ (.cons nofun .nil)
  cases items with
  | nil => exact nil
  | cons first others =>
    have behind (item : α) : Civil (.punct .comma :: kinds item) := .cons nofun (each item)
    rw [List.map_cons, commaKinds, List.flatMap_map]
    exact (each first).append (flatMap behind others)

theorem optional {α : Type} {kinds : α → List Kind} (each : ∀ item, Civil (kinds item))
    (item : Option α) : Civil (optionalKinds (item.map kinds)) := by
  refine append ?_ (.cons nofun .nil)
  cases item with
  | none => exact nil
  | some value => exact each value

theorem signed (value : Int) : Civil (signedKinds value) := by
  unfold signedKinds
  split
  · exact .cons nofun (.cons nofun .nil)
  · exact .cons nofun .nil

/-- Parentheses leave a polite row polite. -/
theorem wrap {kinds : List Kind} (inner : Civil kinds) (operand : Expr) :
    Civil (operand.wrapKinds kinds) := by
  unfold Expr.wrapKinds
  split
  · exact .cons nofun (inner.append (.cons nofun .nil))
  · exact inner

/-- An expression has no brackets. -/
theorem expr (value : Expr) : Civil value.kinds := by
  induction value with
  | number value span => exact signed value
  | const name span => exact .cons nofun .nil
  | neg operand span inductionHypothesis => exact .cons nofun (wrap inductionHypothesis operand)
  | binary op left right span leftHypothesis rightHypothesis =>
    refine leftHypothesis.append (.cons ?_ (wrap rightHypothesis right))
    cases op <;> exact nofun

theorem reference (reference : Reference) : Civil reference.kinds := by
  cases reference with
  | literal id => exact signed id
  | symbol name => exact .cons nofun .nil

theorem assign (assign : Assign) : Civil assign.kinds :=
  .cons nofun (.cons nofun (expr assign.value))

theorem argument (argument : Argument) : Civil argument.kinds := by
  cases argument with
  | named value => exact assign value
  | plain value => exact expr value

/-- An attribute without arguments is not a control packet. -/
theorem attr (attr : Attribute) : Civil attr.kinds := by
  intro rest polite bare
  have arguments : Civil (attr.kind.argumentKinds ++ [.punct .rightBracket]) := by
    refine append ?_ (.cons nofun .nil)
    unfold Attribute.Kind.argumentKinds
    split
    · exact .cons nofun (listed argument _)
    · exact nil
  rcases List.infix_cons_iff.mp bare with start | later
  · obtain ⟨_, start⟩ := List.cons_prefix_cons.mp start
    obtain ⟨named, start⟩ := List.cons_prefix_cons.mp start
    have name : attr.kind.name = "ControlPacket" := (Kind.identifier.inj named).symm
    unfold Attribute.Kind.name at name
    split at name
    case h_6 packet shape =>
      rw [shape] at start
      cases (List.cons_prefix_cons.mp start).1
    all_goals exact absurd name (by decide)
  · have tail : Civil (.identifier attr.kind.name :: _) := .cons nofun arguments
    exact tail rest polite later

theorem constDecl (decl : ConstDecl) : Civil decl.kinds :=
  .cons nofun (.cons nofun (.cons nofun ((expr decl.value).append (.cons nofun .nil))))

theorem command (command : Command) : Civil command.kinds :=
  .cons nofun (.cons nofun ((listed expr command.args).append (.cons nofun .nil)))

theorem condition (condition : Condition) : Civil condition.kinds := by
  refine append ?_ (.cons nofun (.cons nofun (optional expr condition.parameter)))
  unfold Grammar.negation
  split
  · exact .cons nofun .nil
  · exact nil

theorem stateBody (body : StateBody) : Civil body.kinds := by
  refine append ?_ (.cons nofun ((flatMap command body.commands).append
    (append ?_ (.cons nofun .nil))))
  · cases body.condition with
    | none => exact .cons nofun .nil
    | some value => exact .cons nofun (condition value)
  · cases body.jump with
    | none => exact nil
    | some state => exact .cons nofun (.cons nofun (.cons nofun .nil))

theorem state (state : State) : Civil state.kinds :=
  (flatMap attr state.attributes).append (.cons nofun (.cons nofun (.cons nofun
    ((optional reference state.target).append (.cons nofun
      ((flatMap stateBody state.bodies).append (.cons nofun .nil)))))))

theorem assigner (assigner : Assigner) : Civil assigner.kinds := by
  refine .cons nofun ((reference assigner.object).append (append ?_ (.cons nofun .nil)))
  unfold Assigner.fieldKinds
  split
  · exact nil
  · exact .cons nofun (listed assign assigner.fields)

theorem starter (starter : Starter) : Civil starter.kinds :=
  .cons nofun (.cons nofun ((flatMap assigner starter.assigners).append (.cons nofun .nil)))

theorem behaviour (behaviour : Behaviour) : Civil behaviour.kinds :=
  (flatMap attr behaviour.attributes).append (.cons nofun (.cons nofun (.cons nofun
    ((flatMap constDecl behaviour.consts).append
      ((flatMap starter behaviour.starter.toList).append
        ((flatMap state behaviour.states).append (.cons nofun .nil)))))))

theorem commandPack (pack : CommandPack) : Civil pack.kinds :=
  .cons nofun (.cons nofun ((reference pack.script).append (.cons nofun (.cons nofun
    ((flatMap command pack.commands).append (.cons nofun .nil))))))

/-- A script has attributes with their parentheses only. -/
theorem script (script : Script) : Civil script.kinds := by
  cases script with
  | library content =>
    exact (flatMap attr content.attributes).append (.cons nofun (.cons nofun (.cons nofun
      ((flatMap constDecl content.consts).append
        ((flatMap behaviour content.behaviours).append (.cons nofun .nil))))))
  | behaviour content => exact behaviour content
  | sequence content =>
    exact (flatMap attr content.attributes).append (.cons nofun (.cons nofun (.cons nofun
      ((flatMap constDecl content.consts).append ((flatMap commandPack content.packs).append
        ((flatMap command content.commands).append (.cons nofun .nil)))))))

end Civil

/-- No print has a control packet without parentheses. -/
theorem Script.polite (script : Script) : Polite script.kinds := by
  have empty : Polite [] := by
    intro bare
    cases List.infix_nil.mp bare
  have civil := Civil.script script [] empty
  rwa [List.append_nil] at civil

end BehaviourScript
