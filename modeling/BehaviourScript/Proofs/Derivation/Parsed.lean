/-
This file ties derivations to the reader: the rows that spell a tree are the rows
of the derivations that stand for it and whose sums do not nest too deep. So a
token list is read as a script exactly if its kinds have a derivation that stands
for it, and they have no other one.
-/

import BehaviourScript.Proofs.Derivation.Unique
import BehaviourScript.Proofs.Parsing.Script

namespace BehaviourScript

open Token

namespace Derivation

/-! ### Phrases by derivations -/

/-- The rows that spell a value are the rows of its derivations, if the sums in them do not nest
deeper than there is room for. -/
def Derives {α δ : Type} (room : Nat) (phrase : Grammar.Phrase α) (kinds : δ → List Kind)
    (sums : δ → List Sum) (tree? : δ → Option α) : Prop :=
  ∀ row value, phrase row value ↔ ∃ derivation, kinds derivation = row ∧
    (∀ sum ∈ sums derivation, sum.depth ≤ room) ∧ tree? derivation = some value

section Rows

variable {α δ : Type} {room : Nat} {phrase : Grammar.Phrase α} {kinds : δ → List Kind}
  {sums : δ → List Sum} {tree? : δ → Option α}

theorem mapM_cons_eq_some {first : δ} {others : List δ} {values : List α} :
    (first :: others).mapM tree? = some values ↔ ∃ value behind, tree? first = some value ∧
      others.mapM tree? = some behind ∧ value :: behind = values := by
  simp only [List.mapM_cons, Option.bind_eq_bind, Option.bind_eq_some_iff, Option.pure_def,
    Option.some.injEq]
  grind

theorem Derives.congr {otherSums : δ → List Sum} {otherTree? : δ → Option α}
    (item : Derives room phrase kinds sums tree?)
    (sameSums : ∀ derivation, sums derivation = otherSums derivation)
    (sameTree : ∀ derivation, tree? derivation = otherTree? derivation) :
    Derives room phrase kinds otherSums otherTree? := by
  obtain rfl := funext sameSums
  obtain rfl := funext sameTree
  exact item

/-- The rows that spell many items are those of derivations of the items. -/
theorem Derives.many (item : Derives room phrase kinds sums tree?) :
    Derives room (Grammar.many phrase) (List.flatMap kinds) (List.flatMap sums)
      (List.mapM tree?) := by
  intro row values
  constructor
  · intro spelled
    induction spelled with
    | nil => exact ⟨[], rfl, nofun, rfl⟩
    | cons first _ inductionHypothesis =>
      obtain ⟨derivation, rfl, fits, made⟩ := (item _ _).mp first
      obtain ⟨others, rfl, othersFit, othersMade⟩ := inductionHypothesis
      exact ⟨derivation :: others, rfl, List.forall_mem_append.mpr ⟨fits, othersFit⟩,
        mapM_cons_eq_some.mpr ⟨_, _, made, othersMade, rfl⟩⟩
  · rintro ⟨derivations, rfl, fits, made⟩
    induction derivations generalizing values with
    | nil =>
      cases made
      exact .nil
    | cons first others inductionHypothesis =>
      obtain ⟨value, behind, firstMade, othersMade, rfl⟩ := mapM_cons_eq_some.mp made
      obtain ⟨firstFits, othersFit⟩ := List.forall_mem_append.mp fits
      exact .cons ((item _ _).mpr ⟨first, rfl, firstFits, firstMade⟩)
        (inductionHypothesis behind othersFit othersMade)

/-- The rows that spell items with commas are those of derivations with commas. -/
theorem Derives.separated (item : Derives room phrase kinds sums tree?) :
    Derives room (Grammar.separated phrase)
      (fun row : δ × List δ => commaKinds ((row.1 :: row.2).map kinds))
      (fun row => (row.1 :: row.2).flatMap sums) (fun row => (row.1 :: row.2).mapM tree?) := by
  have behind : Derives room (Grammar.afterComma phrase)
      (fun derivation => .punct .comma :: kinds derivation) sums tree? := by
    intro row value
    constructor
    · rintro ⟨spelled⟩
      obtain ⟨derivation, rfl, fits, made⟩ := (item _ _).mp spelled
      exact ⟨derivation, rfl, fits, made⟩
    · rintro ⟨derivation, rfl, fits, made⟩
      exact .intro ((item _ _).mpr ⟨derivation, rfl, fits, made⟩)
  have shape (first : δ) (others : List δ) : commaKinds ((first :: others).map kinds) =
      kinds first ++ others.flatMap fun derivation => .punct .comma :: kinds derivation := by
    rw [List.map_cons, commaKinds, List.flatMap_map]
  intro row values
  constructor
  · rintro ⟨first, others⟩
    obtain ⟨derivation, rfl, fits, made⟩ := (item _ _).mp first
    obtain ⟨derivations, rfl, othersFit, othersMade⟩ := (behind.many _ _).mp others
    exact ⟨(derivation, derivations), shape _ _, List.forall_mem_append.mpr ⟨fits, othersFit⟩,
      mapM_cons_eq_some.mpr ⟨_, _, made, othersMade, rfl⟩⟩
  · rintro ⟨⟨first, others⟩, rfl, fits, made⟩
    obtain ⟨value, rest, firstMade, othersMade, rfl⟩ := mapM_cons_eq_some.mp made
    obtain ⟨firstFits, othersFit⟩ := List.forall_mem_append.mp fits
    show Grammar.separated phrase (commaKinds ((first :: others).map kinds)) _
    rw [shape]
    exact .intro ((item _ _).mpr ⟨first, rfl, firstFits, firstMade⟩)
      ((behind.many _ _).mpr ⟨others, rfl, othersFit, othersMade⟩)

theorem Derives.listed (item : Derives room phrase kinds sums tree?) :
    Derives room (Grammar.listed phrase) (fun row : List δ => listedKinds (row.map kinds))
      (List.flatMap sums) (List.mapM tree?) := by
  intro row values
  constructor
  · intro spelled
    cases spelled with
    | none => exact ⟨[], rfl, nofun, rfl⟩
    | some spelled =>
      obtain ⟨⟨first, others⟩, rfl, fits, made⟩ := (item.separated _ _).mp spelled
      exact ⟨first :: others, rfl, fits, made⟩
  · rintro ⟨derivations, rfl, fits, made⟩
    cases derivations with
    | nil =>
      cases made
      exact .none
    | cons first others =>
      exact .some ((item.separated _ _).mpr ⟨(first, others), rfl, fits, made⟩)

/-- The rows that spell an item or none are those of a derivation or none. -/
theorem Derives.optional {tree : δ → α}
    (item : Derives room phrase kinds sums (fun derivation => some (tree derivation))) :
    Derives room (Grammar.optional phrase)
      (fun derivation : Option δ => optionalKinds (derivation.map kinds))
      (fun derivation => derivation.toList.flatMap sums)
      (fun derivation => some (derivation.map tree)) := by
  intro row value
  constructor
  · intro spelled
    cases spelled with
    | none => exact ⟨none, rfl, nofun, rfl⟩
    | some spelled =>
      obtain ⟨derivation, rfl, fits, made⟩ := (item _ _).mp spelled
      obtain rfl := Option.some.inj made
      exact ⟨some derivation, rfl, by simpa using fits, rfl⟩
  · rintro ⟨derivation, rfl, fits, ⟨⟩⟩
    cases derivation with
    | none => exact .none
    | some derivation =>
      exact .some ((item _ _).mpr ⟨derivation, rfl, by simpa using fits, rfl⟩)

end Rows

/-! ### Sums -/

mutual

/-- The row of an operand's derivation spells its tree, with as many levels as it is deep. -/
theorem Unary.spelled {room : Nat} : (unary : Unary) → unary.depth ≤ room →
    Grammar.operand room unary.kinds unary.tree
  | .number _, _ => .number
  | .const _, _ => .const
  | .neg operand, fits => by
    obtain ⟨room, rfl⟩ := Nat.exists_eq_add_one_of_ne_zero (Nat.ne_zero_of_lt fits)
    exact .neg (operand.spelled (Nat.le_of_succ_le_succ fits))
  | .parens first others, fits => by
    obtain ⟨room, rfl⟩ := Nat.exists_eq_add_one_of_ne_zero (Nat.ne_zero_of_lt fits)
    obtain ⟨firstFits, othersFit⟩ := Nat.max_le.mp (Nat.le_of_succ_le_succ fits)
    exact .parens (.intro (first.spelled firstFits) (others.spelled _ othersFit))

/-- The row of a chain's derivation spells its tree. -/
theorem Chain.spelled {room : Nat} : (chain : Chain) → (left : Expr) → chain.depth ≤ room →
    Grammar.chain room left chain.kinds (chain.tree left)
  | .done, _, _ => .done
  | .more op operand others, left, fits => by
    obtain ⟨room, rfl⟩ := Nat.exists_eq_add_one_of_ne_zero (Nat.ne_zero_of_lt fits)
    obtain ⟨operandFits, othersFit⟩ := Nat.max_le.mp (Nat.le_of_succ_le_succ fits)
    exact .more (operand.spelled operandFits) (others.spelled _ othersFit)

end

mutual

/-- Whatever spells an operand has a derivation that is not deeper than the levels allow. -/
theorem exists_unary {room : Nat} {row : List Kind} {value : Expr} :
    Grammar.operand room row value →
      ∃ unary : Unary, unary.kinds = row ∧ unary.depth ≤ room ∧ unary.tree = value
  | .number => ⟨.number _, rfl, Nat.zero_le _, rfl⟩
  | .const => ⟨.const _, rfl, Nat.zero_le _, rfl⟩
  | .neg spelled => by
    obtain ⟨unary, rfl, fits, rfl⟩ := exists_unary spelled
    exact ⟨.neg unary, rfl, Nat.succ_le_succ fits, rfl⟩
  | .parens spelled => by
    obtain ⟨sum, rfl, fits, rfl⟩ := exists_sum spelled
    exact ⟨.parens sum.first sum.others, rfl, Nat.succ_le_succ fits, rfl⟩

theorem exists_chain {room : Nat} {left value : Expr} {row : List Kind} :
    Grammar.chain room left row value →
      ∃ chain : Chain, chain.kinds = row ∧ chain.depth ≤ room ∧ chain.tree left = value
  | .done => ⟨.done, rfl, Nat.zero_le _, rfl⟩
  | .more first others => by
    obtain ⟨unary, rfl, fits, rfl⟩ := exists_unary first
    obtain ⟨chain, rfl, chainFits, rfl⟩ := exists_chain others
    exact ⟨.more _ unary chain, rfl, Nat.succ_le_succ (Nat.max_le.mpr ⟨fits, chainFits⟩), rfl⟩

/-- Whatever spells an expression has a derivation that is not deeper than the levels allow. -/
theorem exists_sum {room : Nat} {row : List Kind} {value : Expr} :
    Grammar.expr room row value →
      ∃ sum : Sum, sum.kinds = row ∧ sum.depth ≤ room ∧ sum.tree = value
  | .intro first others => by
    obtain ⟨unary, rfl, fits, rfl⟩ := exists_unary first
    obtain ⟨chain, rfl, chainFits, rfl⟩ := exists_chain others
    exact ⟨⟨unary, chain⟩, rfl, Nat.max_le.mpr ⟨fits, chainFits⟩, rfl⟩

end

variable {room : Nat}

/-- The rows that spell an expression are those of sums. -/
theorem sum_derives :
    Derives room (Grammar.expr room) Sum.kinds (fun sum => [sum]) (fun sum => some sum.tree) := by
  intro row value
  simp only [List.forall_mem_singleton, Option.some.injEq]
  constructor
  · exact exists_sum
  · rintro ⟨⟨unary, chain⟩, rfl, fits, rfl⟩
    obtain ⟨firstFits, othersFit⟩ := Nat.max_le.mp fits
    exact .intro (unary.spelled firstFits) (chain.spelled _ othersFit)

/-- Sums in parentheses, with commas between them. -/
theorem sums_derive : Derives room (Grammar.listed (Grammar.expr room))
    (fun row : List Sum => listedKinds (row.map Sum.kinds)) (fun row => row)
    (fun row => some (row.map Sum.tree)) :=
  sum_derives.listed.congr List.flatMap_singleton' fun _ => List.mapM_pure

/-! ### Attributes -/

theorem reference_derives (room : Nat) : Derives room Grammar.reference Reference.kinds
    (fun _ => []) (fun reference => some reference.tree) := by
  intro row value
  constructor
  · intro spelled
    cases spelled with
    | number => exact ⟨.number _, rfl, nofun, rfl⟩
    | negative => exact ⟨.negative _, rfl, nofun, rfl⟩
    | name => exact ⟨.symbol _, rfl, nofun, rfl⟩
  · rintro ⟨reference, rfl, -, ⟨⟩⟩
    cases reference with
    | number => exact .number
    | negative => exact .negative
    | symbol => exact .name

theorem assign_derives : Derives room (Grammar.assign room) Assign.kinds
    (fun assign => [assign.value]) (fun assign => some assign.tree) := by
  intro row value
  constructor
  · rintro ⟨spelled⟩
    obtain ⟨sum, rfl, fits, ⟨⟩⟩ := (sum_derives _ _).mp spelled
    exact ⟨⟨_, sum⟩, rfl, fits, rfl⟩
  · rintro ⟨⟨name, sum⟩, rfl, fits, ⟨⟩⟩
    exact .intro ((sum_derives _ _).mpr ⟨sum, rfl, fits, rfl⟩)

/-- The rows that spell an argument are those of its derivations. -/
theorem argument_derives : Derives room (Grammar.argument room) Argument.kinds
    (fun argument => [argument.sum]) (fun argument => some argument.tree) := by
  intro row value
  constructor
  · intro spelled
    cases spelled with
    | named spelled =>
      obtain ⟨assign, rfl, fits, ⟨⟩⟩ := (assign_derives _ _).mp spelled
      exact ⟨.named assign, rfl, fits, rfl⟩
    | plain spelled =>
      obtain ⟨sum, rfl, fits, ⟨⟩⟩ := (sum_derives _ _).mp spelled
      exact ⟨.plain sum, rfl, fits, rfl⟩
  · rintro ⟨argument, rfl, fits, ⟨⟩⟩
    cases argument with
    | named assign => exact .named ((assign_derives _ _).mpr ⟨assign, rfl, fits, rfl⟩)
    | plain sum => exact .plain ((sum_derives _ _).mpr ⟨sum, rfl, fits, rfl⟩)

theorem arguments_derive : Derives room (Grammar.arguments room) Attribute.argumentKinds
    (fun arguments => (arguments.getD []).map Argument.sum)
    (fun arguments => some ((arguments.getD []).map Argument.tree)) := by
  have listed : Derives room (Grammar.listed (Grammar.argument room))
      (fun row : List Argument => listedKinds (row.map Argument.kinds)) (List.map Argument.sum)
      (fun row => some (row.map Argument.tree)) :=
    argument_derives.listed.congr (fun _ => List.map_eq_flatMap.symm) fun _ => List.mapM_pure
  intro row values
  constructor
  · intro spelled
    cases spelled with
    | absent => exact ⟨none, rfl, nofun, rfl⟩
    | given spelled =>
      obtain ⟨arguments, rfl, fits, made⟩ := (listed _ _).mp spelled
      exact ⟨some arguments, rfl, fits, made⟩
  · rintro ⟨arguments, rfl, fits, made⟩
    cases arguments with
    | none =>
      cases made
      exact .absent
    | some arguments => exact .given ((listed _ _).mpr ⟨arguments, rfl, fits, made⟩)

/-- A sum with an operator stands for no name. -/
theorem Chain.tree_more_ne_const (op : BinOp) (operand : Unary) (left : Expr) (name : String)
    (span : Span) : (others : Chain) → (Chain.more op operand others).tree left ≠ .const name span
  | .done => by simp [Chain.tree]
  | .more next right others => by
    rw [Chain.tree]
    exact tree_more_ne_const next right _ name span others

/-- The tree of an operand is a name if the operand is that name, in parentheses or not. -/
theorem Unary.tree_eq_const : (operand : Unary) → ∀ {name : String} {span : Span},
    operand.tree = .const name span ↔ operand.name? = some name ∧ .dummy = span
  | .neg _, _, _ => by simp [Unary.name?, Unary.tree]
  | .number _, _, _ => by simp [Unary.name?, Unary.tree]
  | .const _, _, _ => by simp [Unary.name?, Unary.tree]
  | .parens first .done, _, _ => by
    rw [Unary.name?, Unary.tree, Chain.tree]
    exact first.tree_eq_const
  | .parens first (.more op operand others), name, span => by
    have sum := Chain.tree_more_ne_const op operand first.tree name span others
    simp [Unary.name?, Unary.tree, sum]

/-- A sum stands for a name exactly if it is that name, in parentheses or not. -/
theorem Sum.tree_eq_const {sum : Sum} {name : String} {span : Span} :
    sum.tree = .const name span ↔ sum.name? = some name ∧ .dummy = span := by
  obtain ⟨first, others⟩ := sum
  cases others with
  | done => exact first.tree_eq_const
  | more op operand others =>
    exact iff_of_false (Chain.tree_more_ne_const op operand first.tree name span others) nofun

/-- One argument without a name has one sum as its derivation. -/
theorem map_tree_eq_singleton {arguments : List Argument} {value : Expr} :
    arguments.map Argument.tree = [.plain value] ↔
      ∃ sum : Sum, arguments = [.plain sum] ∧ sum.tree = value := by
  rw [List.map_eq_singleton_iff]
  constructor
  · rintro ⟨argument, rfl, made⟩
    cases argument with
    | named assign => cases made
    | plain sum => exact ⟨sum, rfl, Parser.Argument.plain.inj made⟩
  · rintro ⟨sum, rfl, rfl⟩
    exact ⟨_, rfl, rfl⟩

/-- The rule for attributes is the same on derivations and on the trees that they stand for. -/
theorem shape?_eq_some {name : String} {arguments : List Argument}
    {kind : BehaviourScript.Attribute.Kind} :
    shape? name arguments = some kind ↔
      Grammar.shape name (arguments.map Argument.tree) kind := by
  constructor
  · intro known
    unfold shape? at known
    split at known
    case h_6 state =>
      obtain ⟨name, found, rfl⟩ := Option.map_eq_some_iff.mp known
      rw [List.map_singleton, Argument.tree, Sum.tree_eq_const.mpr ⟨found, rfl⟩]
      constructor
    all_goals cases known <;> constructor
  · generalize made : arguments.map Argument.tree = values
    intro known
    cases known with
    | startFrom =>
      obtain ⟨sum, rfl, named⟩ := map_tree_eq_singleton.mp made
      show sum.name?.map _ = _
      rw [(Sum.tree_eq_const.mp named).1, Option.map_some]
    | controlPacket =>
      cases made
      rfl
    | nonBlocking =>
      cases List.map_eq_nil_iff.mp made
      rfl
    | skipFirstBody =>
      cases List.map_eq_nil_iff.mp made
      rfl
    | _ =>
      obtain ⟨sum, rfl, rfl⟩ := map_tree_eq_singleton.mp made
      rfl

/-- The rows that spell an attribute are those of its derivations that have a shape. -/
theorem attribute_derives :
    Derives room (Grammar.attr room) Attribute.kinds Attribute.sums Attribute.tree? := by
  intro row value
  constructor
  · rintro ⟨spelled, known⟩
    obtain ⟨arguments, rfl, fits, ⟨⟩⟩ := (arguments_derive _ _).mp spelled
    refine ⟨⟨_, arguments⟩, rfl, fits, ?_⟩
    rw [Attribute.tree?, shape?_eq_some.mpr known, Option.map_some]
  · rintro ⟨⟨name, arguments⟩, rfl, fits, made⟩
    obtain ⟨kind, known, rfl⟩ := Option.map_eq_some_iff.mp made
    exact .intro ((arguments_derive _ _).mpr ⟨arguments, rfl, fits, rfl⟩) (shape?_eq_some.mp known)

/-- Attributes in front. -/
theorem attributes_derive : Derives room (Grammar.many (Grammar.attr room))
    (List.flatMap Attribute.kinds) (List.flatMap Attribute.sums) (List.mapM Attribute.tree?) :=
  attribute_derives.many

/-! ### Commands and states -/

theorem consts_derive : Derives room (Grammar.many (Grammar.constDecl room))
    (List.flatMap ConstDecl.kinds) (List.map ConstDecl.value)
    (fun row => some (row.map ConstDecl.tree)) := by
  have item : Derives room (Grammar.constDecl room) ConstDecl.kinds (fun decl => [decl.value])
      (fun decl => some decl.tree) := by
    intro row value
    constructor
    · rintro ⟨spelled⟩
      obtain ⟨sum, rfl, fits, ⟨⟩⟩ := (sum_derives _ _).mp spelled
      exact ⟨⟨_, sum⟩, rfl, fits, rfl⟩
    · rintro ⟨⟨name, sum⟩, rfl, fits, ⟨⟩⟩
      exact .intro ((sum_derives _ _).mpr ⟨sum, rfl, fits, rfl⟩)
  exact item.many.congr (fun _ => List.map_eq_flatMap.symm) fun _ => List.mapM_pure

theorem command_derives :
    Derives room (Grammar.command room) Command.kinds Command.args Command.tree? := by
  intro row value
  constructor
  · rintro ⟨known, spelled⟩
    obtain ⟨args, rfl, fits, ⟨⟩⟩ := (sums_derive _ _).mp spelled
    refine ⟨⟨_, args⟩, rfl, fits, ?_⟩
    rw [Command.tree?, known, Option.map_some]
  · rintro ⟨⟨name, args⟩, rfl, fits, made⟩
    obtain ⟨id, known, rfl⟩ := Option.map_eq_some_iff.mp made
    exact .intro known ((sums_derive _ _).mpr ⟨args, rfl, fits, rfl⟩)

theorem condition_derives : Derives room (Grammar.condition room) Condition.kinds
    (fun condition => condition.parameter.toList) Condition.tree? := by
  have parameter : Derives room (Grammar.optional (Grammar.expr room))
      (fun parameter : Option Sum => optionalKinds (parameter.map Sum.kinds)) Option.toList
      (fun parameter => some (parameter.map Sum.tree)) :=
    sum_derives.optional.congr (fun _ => List.flatMap_singleton' _) fun _ => rfl
  intro row value
  constructor
  · rintro ⟨known, spelled⟩
    obtain ⟨sum, rfl, fits, ⟨⟩⟩ := (parameter _ _).mp spelled
    refine ⟨⟨_, _, sum⟩, rfl, fits, ?_⟩
    rw [Condition.tree?, known, Option.map_some]
  · rintro ⟨⟨negated, name, sum⟩, rfl, fits, made⟩
    obtain ⟨id, known, rfl⟩ := Option.map_eq_some_iff.mp made
    exact .intro known ((parameter _ _).mpr ⟨sum, rfl, fits, rfl⟩)

theorem guard_derives : Derives room (Grammar.guard room) Body.guardKinds
    (fun condition => condition.toList.flatMap (·.parameter.toList))
    (Option.mapM Condition.tree?) := by
  intro row value
  constructor
  · intro spelled
    cases spelled with
    | test spelled =>
      obtain ⟨condition, rfl, fits, made⟩ := (condition_derives _ _).mp spelled
      exact ⟨some condition, rfl, by simpa using fits, by simp [made]⟩
    | always => exact ⟨none, rfl, nofun, rfl⟩
  · rintro ⟨condition, rfl, fits, made⟩
    cases condition with
    | none =>
      cases made
      exact .always
    | some condition =>
      obtain ⟨value, known, rfl⟩ := Option.map_eq_some_iff.mp made
      exact .test ((condition_derives _ _).mpr ⟨condition, rfl, by simpa using fits, known⟩)

theorem jump_iff {row : List Kind} {jump : Option String} :
    Grammar.jump row jump ↔ StateBody.jumpKinds jump = row := by
  constructor
  · intro spelled
    cases spelled <;> rfl
  · rintro rfl
    cases jump with
    | none => exact .absent
    | some state => exact .goto

theorem body_derives :
    Derives room (Grammar.stateBody room) Body.kinds Body.sums Body.tree? := by
  intro row value
  constructor
  · rintro ⟨opening, commands, jump⟩
    obtain ⟨condition, rfl, conditionFits, conditionMade⟩ := (guard_derives _ _).mp opening
    obtain ⟨derivations, rfl, commandsFit, commandsMade⟩ := (command_derives.many _ _).mp commands
    obtain rfl := jump_iff.mp jump
    refine ⟨⟨condition, derivations, _⟩, rfl,
      List.forall_mem_append.mpr ⟨conditionFits, commandsFit⟩, ?_⟩
    simp [Body.tree?, conditionMade, commandsMade]
  · rintro ⟨⟨condition, commands, jump⟩, rfl, fits, made⟩
    obtain ⟨conditionFits, commandsFit⟩ := List.forall_mem_append.mp fits
    obtain ⟨test, conditionMade, made⟩ := Option.bind_eq_some_iff.mp made
    obtain ⟨row, commandsMade, ⟨⟩⟩ := Option.bind_eq_some_iff.mp made
    exact .intro ((guard_derives _ _).mpr ⟨condition, rfl, conditionFits, conditionMade⟩)
      ((command_derives.many _ _).mpr ⟨commands, rfl, commandsFit, commandsMade⟩)
      (jump_iff.mpr rfl)

theorem state_derives :
    Derives room (Grammar.state room) State.kinds State.sums State.tree? := by
  have target := (reference_derives room).optional
  intro row value
  constructor
  · rintro ⟨front, inner, bodies⟩
    obtain ⟨attributes, rfl, attributesFit, attributesMade⟩ := (attributes_derive _ _).mp front
    obtain ⟨reference, rfl, -, ⟨⟩⟩ := (target _ _).mp inner
    obtain ⟨derivations, rfl, bodiesFit, bodiesMade⟩ := (body_derives.many _ _).mp bodies
    refine ⟨⟨attributes, _, reference, derivations⟩, rfl,
      List.forall_mem_append.mpr ⟨attributesFit, bodiesFit⟩, ?_⟩
    simp [State.tree?, attributesMade, bodiesMade]
  · rintro ⟨⟨attributes, name, reference, bodies⟩, rfl, fits, made⟩
    obtain ⟨attributesFit, bodiesFit⟩ := List.forall_mem_append.mp fits
    obtain ⟨front, attributesMade, made⟩ := Option.bind_eq_some_iff.mp made
    obtain ⟨row, bodiesMade, ⟨⟩⟩ := Option.bind_eq_some_iff.mp made
    exact .intro
      ((attributes_derive _ _).mpr ⟨attributes, rfl, attributesFit, attributesMade⟩)
      ((target _ _).mpr ⟨reference, rfl, by simp, rfl⟩)
      ((body_derives.many _ _).mpr ⟨bodies, rfl, bodiesFit, bodiesMade⟩)

/-! ### Whole scripts -/

theorem fields_derive : Derives room (Grammar.fields room) Assigner.fieldKinds
    (List.map Assign.value) (fun fields => some (fields.map Assign.tree)) := by
  have separated := (assign_derives : Derives room _ _ _ _).separated.congr
    (fun _ => List.map_eq_flatMap.symm) (fun _ => List.mapM_pure)
  intro row values
  constructor
  · intro spelled
    cases spelled with
    | absent => exact ⟨[], rfl, nofun, rfl⟩
    | given spelled =>
      obtain ⟨spelled⟩ := spelled
      obtain ⟨⟨first, others⟩, rfl, fits, made⟩ := (separated _ _).mp spelled
      exact ⟨first :: others, rfl, fits, made⟩
  · rintro ⟨fields, rfl, fits, made⟩
    cases fields with
    | nil =>
      cases made
      exact .absent
    | cons first others =>
      exact .given (.intro ((separated _ _).mpr ⟨(first, others), rfl, fits, made⟩))

theorem assigner_derives : Derives room (Grammar.assigner room) Assigner.kinds Assigner.sums
    (fun assigner => some assigner.tree) := by
  intro row value
  constructor
  · rintro ⟨name, spelled⟩
    obtain ⟨object, rfl, -, ⟨⟩⟩ := (reference_derives room _ _).mp name
    obtain ⟨fields, rfl, fits, ⟨⟩⟩ := (fields_derive _ _).mp spelled
    exact ⟨⟨object, fields⟩, rfl, fits, rfl⟩
  · rintro ⟨⟨object, fields⟩, rfl, fits, ⟨⟩⟩
    exact .intro ((reference_derives room _ _).mpr ⟨object, rfl, nofun, rfl⟩)
      ((fields_derive _ _).mpr ⟨fields, rfl, fits, rfl⟩)

theorem setup_derives : Derives room (Grammar.setup room)
    (fun starter : Option Starter => starter.toList.flatMap Starter.kinds)
    (fun starter => starter.toList.flatMap Starter.sums)
    (fun starter => some (starter.map Starter.tree)) := by
  have assigners : Derives room (Grammar.many (Grammar.assigner room))
      (List.flatMap Assigner.kinds) (List.flatMap Assigner.sums)
      (fun row => some (row.map Assigner.tree)) :=
    assigner_derives.many.congr (fun _ => rfl) fun _ => List.mapM_pure
  intro row value
  constructor
  · intro spelled
    cases spelled with
    | absent => exact ⟨none, rfl, nofun, rfl⟩
    | given spelled =>
      obtain ⟨spelled⟩ := spelled
      obtain ⟨row, rfl, fits, ⟨⟩⟩ := (assigners _ _).mp spelled
      exact ⟨some ⟨row⟩, by simp [Starter.kinds], by simpa [Starter.sums] using fits, rfl⟩
  · rintro ⟨starter, rfl, fits, ⟨⟩⟩
    cases starter with
    | none => exact .absent
    | some starter =>
      have inner := (assigners _ _).mpr
        ⟨starter.assigners, rfl, by simpa [Starter.sums] using fits, rfl⟩
      simp only [Option.toList_some, List.flatMap_singleton]
      exact .given (.intro inner)

/-- A rule behind its attributes. -/
def attributed {α : Type} (room : Nat)
    (rule : List BehaviourScript.Attribute → Grammar.Phrase α) : Grammar.Phrase α :=
  fun row value => ∃ front kinds attributes, front ++ kinds = row ∧
    Grammar.many (Grammar.attr room) front attributes ∧ rule attributes kinds value

theorem behaviour_derives : Derives room (attributed room (Grammar.behaviour room))
    Behaviour.kinds Behaviour.sums Behaviour.tree? := by
  intro row value
  constructor
  · rintro ⟨_, _, _, rfl, front, ⟨consts, setup, states, some⟩⟩
    obtain ⟨attributes, rfl, attributesFit, attributesMade⟩ := (attributes_derive _ _).mp front
    obtain ⟨decls, rfl, constsFit, ⟨⟩⟩ := (consts_derive _ _).mp consts
    obtain ⟨starter, rfl, starterFits, ⟨⟩⟩ := (setup_derives _ _).mp setup
    obtain ⟨derivations, rfl, statesFit, statesMade⟩ := (state_derives.many _ _).mp states
    cases derivations with
    | nil =>
      cases statesMade
      exact absurd rfl some
    | cons first others =>
      refine ⟨⟨attributes, _, decls, starter, first, others⟩, rfl, ?_, ?_⟩
      · simp only [Behaviour.sums, List.forall_mem_append]
        exact ⟨attributesFit, constsFit, starterFits, statesFit⟩
      · simp only [Behaviour.tree?, attributesMade, statesMade]
        rfl
  · rintro ⟨⟨attributes, name, consts, starter, first, others⟩, rfl, fits, made⟩
    simp only [Behaviour.sums, List.forall_mem_append] at fits
    obtain ⟨attributesFit, constsFit, starterFits, statesFit⟩ := fits
    obtain ⟨front, attributesMade, made⟩ := Option.bind_eq_some_iff.mp made
    obtain ⟨states, statesMade, ⟨⟩⟩ := Option.bind_eq_some_iff.mp made
    have some : states ≠ [] := by
      obtain ⟨_, _, -, -, rfl⟩ := mapM_cons_eq_some.mp statesMade
      exact List.cons_ne_nil _ _
    exact ⟨_, _, _, rfl,
      (attributes_derive _ _).mpr ⟨attributes, rfl, attributesFit, attributesMade⟩,
      .intro ((consts_derive _ _).mpr ⟨consts, rfl, constsFit, rfl⟩)
        ((setup_derives _ _).mpr ⟨starter, rfl, starterFits, rfl⟩)
        ((state_derives.many _ _).mpr ⟨first :: others, rfl, statesFit, statesMade⟩) some⟩

theorem pack_derives :
    Derives room (Grammar.commandPack room) Pack.kinds Pack.sums Pack.tree? := by
  intro row value
  constructor
  · rintro ⟨name, commands⟩
    obtain ⟨script, rfl, -, ⟨⟩⟩ := (reference_derives room _ _).mp name
    obtain ⟨derivations, rfl, fits, made⟩ := (command_derives.many _ _).mp commands
    exact ⟨⟨script, derivations⟩, rfl, fits, by simp [Pack.tree?, made]⟩
  · rintro ⟨⟨script, commands⟩, rfl, fits, made⟩
    obtain ⟨row, commandsMade, ⟨⟩⟩ := Option.bind_eq_some_iff.mp made
    exact .intro ((reference_derives room _ _).mpr ⟨script, rfl, nofun, rfl⟩)
      ((command_derives.many _ _).mpr ⟨commands, rfl, fits, commandsMade⟩)

theorem library_derives : Derives room (attributed room (Grammar.library room))
    (fun library => library.attributes.flatMap Attribute.kinds ++ library.bodyKinds)
    Library.sums Library.tree? := by
  have behaviour : Derives room (Grammar.libraryBehaviour room) Behaviour.kinds Behaviour.sums
      Behaviour.tree? := by
    intro row value
    refine Iff.trans ⟨?_, ?_⟩ (behaviour_derives row value)
    · rintro ⟨front, spelled⟩
      exact ⟨_, _, _, rfl, front, spelled⟩
    · rintro ⟨_, _, _, rfl, front, spelled⟩
      exact .intro front spelled
  intro row value
  constructor
  · rintro ⟨_, _, _, rfl, front, ⟨consts, behaviours⟩⟩
    obtain ⟨attributes, rfl, attributesFit, attributesMade⟩ := (attributes_derive _ _).mp front
    obtain ⟨decls, rfl, constsFit, ⟨⟩⟩ := (consts_derive _ _).mp consts
    obtain ⟨derivations, rfl, fits, made⟩ := (behaviour.many _ _).mp behaviours
    refine ⟨⟨attributes, _, decls, derivations⟩, rfl, ?_, ?_⟩
    · simp only [Library.sums, List.forall_mem_append]
      exact ⟨attributesFit, constsFit, fits⟩
    · simp only [Library.tree?, attributesMade, made]
      rfl
  · rintro ⟨⟨attributes, name, consts, behaviours⟩, rfl, fits, made⟩
    simp only [Library.sums, List.forall_mem_append] at fits
    obtain ⟨attributesFit, constsFit, behavioursFit⟩ := fits
    obtain ⟨front, attributesMade, made⟩ := Option.bind_eq_some_iff.mp made
    obtain ⟨row, behavioursMade, ⟨⟩⟩ := Option.bind_eq_some_iff.mp made
    exact ⟨_, _, _, rfl,
      (attributes_derive _ _).mpr ⟨attributes, rfl, attributesFit, attributesMade⟩,
      .intro ((consts_derive _ _).mpr ⟨consts, rfl, constsFit, rfl⟩)
        ((behaviour.many _ _).mpr ⟨behaviours, rfl, behavioursFit, behavioursMade⟩)⟩

theorem sequence_derives : Derives room (attributed room (Grammar.sequence room))
    (fun sequence => sequence.attributes.flatMap Attribute.kinds ++ sequence.bodyKinds)
    Sequence.sums Sequence.tree? := by
  intro row value
  constructor
  · rintro ⟨_, _, _, rfl, front, ⟨consts, packs, commands⟩⟩
    obtain ⟨attributes, rfl, attributesFit, attributesMade⟩ := (attributes_derive _ _).mp front
    obtain ⟨decls, rfl, constsFit, ⟨⟩⟩ := (consts_derive _ _).mp consts
    obtain ⟨packRow, rfl, packsFit, packsMade⟩ := (pack_derives.many _ _).mp packs
    obtain ⟨commandRow, rfl, commandsFit, commandsMade⟩ := (command_derives.many _ _).mp commands
    refine ⟨⟨attributes, _, decls, packRow, commandRow⟩, rfl, ?_, ?_⟩
    · simp only [Sequence.sums, List.forall_mem_append]
      exact ⟨attributesFit, constsFit, packsFit, commandsFit⟩
    · simp only [Sequence.tree?, attributesMade, packsMade, commandsMade]
      rfl
  · rintro ⟨⟨attributes, name, consts, packs, commands⟩, rfl, fits, made⟩
    simp only [Sequence.sums, List.forall_mem_append] at fits
    obtain ⟨attributesFit, constsFit, packsFit, commandsFit⟩ := fits
    obtain ⟨front, attributesMade, made⟩ := Option.bind_eq_some_iff.mp made
    obtain ⟨packRow, packsMade, made⟩ := Option.bind_eq_some_iff.mp made
    obtain ⟨commandRow, commandsMade, ⟨⟩⟩ := Option.bind_eq_some_iff.mp made
    exact ⟨_, _, _, rfl,
      (attributes_derive _ _).mpr ⟨attributes, rfl, attributesFit, attributesMade⟩,
      .intro ((consts_derive _ _).mpr ⟨consts, rfl, constsFit, rfl⟩)
        ((pack_derives.many _ _).mpr ⟨packs, rfl, packsFit, packsMade⟩)
        ((command_derives.many _ _).mpr ⟨commands, rfl, commandsFit, commandsMade⟩)⟩

/-- The rows that spell a script are the rows of its derivations. -/
theorem script_derives :
    Derives room (Grammar.script room) Root.kinds Root.sums Root.tree? := by
  intro row value
  constructor
  · rintro ⟨front, unit⟩
    cases unit with
    | library spelled =>
      obtain ⟨library, same, fits, made⟩ := (library_derives _ _).mp ⟨_, _, _, rfl, front, spelled⟩
      exact ⟨.library library, same, fits, by rw [Root.tree?, made, Option.map_some]⟩
    | behaviour spelled =>
      obtain ⟨behaviour, same, fits, made⟩ :=
        (behaviour_derives _ _).mp ⟨_, _, _, rfl, front, spelled⟩
      exact ⟨.behaviour behaviour, same, fits, by rw [Root.tree?, made, Option.map_some]⟩
    | sequence spelled =>
      obtain ⟨sequence, same, fits, made⟩ :=
        (sequence_derives _ _).mp ⟨_, _, _, rfl, front, spelled⟩
      exact ⟨.sequence sequence, same, fits, by rw [Root.tree?, made, Option.map_some]⟩
  · rintro ⟨root, same, fits, made⟩
    cases root with
    | library content =>
      obtain ⟨library, known, rfl⟩ := Option.map_eq_some_iff.mp made
      obtain ⟨_, _, _, rfl, front, spelled⟩ :=
        (library_derives _ _).mpr ⟨content, same, fits, known⟩
      exact .intro front (.library spelled)
    | behaviour content =>
      obtain ⟨behaviour, known, rfl⟩ := Option.map_eq_some_iff.mp made
      obtain ⟨_, _, _, rfl, front, spelled⟩ :=
        (behaviour_derives _ _).mpr ⟨content, same, fits, known⟩
      exact .intro front (.behaviour spelled)
    | sequence content =>
      obtain ⟨sequence, known, rfl⟩ := Option.map_eq_some_iff.mp made
      obtain ⟨_, _, _, rfl, front, spelled⟩ :=
        (sequence_derives _ _).mpr ⟨content, same, fits, known⟩
      exact .intro front (.sequence spelled)

/-! ### Reading -/

theorem Chain.kinds_eq_flatMap : (chain : Chain) →
    chain.kinds = chain.operands.flatMap fun entry => .punct entry.1.mark :: entry.2.kinds
  | .done => rfl
  | .more op operand others => by
    rw [Chain.kinds, others.kinds_eq_flatMap, Chain.operands, List.flatMap_cons, List.cons_append]

theorem Chain.tree_eq_foldl : (chain : Chain) → (left : Expr) →
    chain.tree left =
      chain.operands.foldl (fun left entry => .binary entry.1 left entry.2.tree .dummy) left
  | .done, _ => rfl
  | .more op operand others, left => by
    rw [Chain.tree, others.tree_eq_foldl, Chain.operands, List.foldl_cons]

end Derivation

open BehaviourScript.Derivation (Root Sum)

/-- A derivation of a row of kinds that stands for a script, and in which no sum takes the counter
of nesting over its limit. -/
def Derivation.Root.StandsFor (root : Root) (kinds : List Kind) (script : Script) : Prop :=
  root.kinds = kinds ∧ (∀ sum ∈ root.sums, sum.depth ≤ nestingLimit) ∧ root.tree? = some script

/-- A token list is read as a script, apart from its places. -/
def ParsesTo (tokens : List Token) (script : Script) : Prop :=
  ∃ result, parse tokens = .ok result ∧ result.erase = script

theorem parsesTo_iff_standsFor {tokens : List Token} {kinds : List Kind}
    (shape : tokens.map Token.kind = kinds ++ [.eof]) (proper : .eof ∉ kinds) (script : Script) :
    ParsesTo tokens script ↔ ∃ root : Root, root.StandsFor kinds script :=
  (parse_eq_ok_iff shape proper script).trans (Derivation.script_derives kinds script)

/-- A token list with an end mark is read as a script exactly if the kinds in front of the mark
have a derivation that stands for it and in which no sum takes the counter of nesting over its
limit. There is at most one derivation of them, with or without that limit. In a sum everything
in front of an operator is its left side. The grammar as it is documented has the same scripts for
a list exactly if the derivation of the list, if it stands for a script, is one of that grammar:
what is read beyond it has the name of a state in parentheses. -/
theorem parse_eq_ok_iff_derivation {tokens : List Token} {kinds : List Kind}
    (shape : tokens.map Token.kind = kinds ++ [.eof]) (proper : .eof ∉ kinds) :
    (∀ script, ParsesTo tokens script ↔ ∃ root : Root, root.StandsFor kinds script) ∧
    (∀ first second : Root, first.kinds = kinds → second.kinds = kinds → first = second) ∧
    (∀ sum : Sum,
      sum.kinds = sum.first.kinds ++
        sum.others.operands.flatMap (fun entry => .punct entry.1.mark :: entry.2.kinds) ∧
      sum.tree = sum.others.operands.foldl
        (fun left entry => .binary entry.1 left entry.2.tree .dummy) sum.first.tree) ∧
    ((∀ script, ParsesTo tokens script ↔
        ∃ root : Root, root.StandsFor kinds script ∧ root.Documented) ↔
      ∀ (root : Root) script, root.StandsFor kinds script → root.Documented) := by
  have reads := parsesTo_iff_standsFor shape proper
  refine ⟨reads, fun first second firstKinds secondKinds => ?_, fun sum => ⟨?_, ?_⟩,
    fun documented root script stands => ?_, fun documented script => ?_⟩
  · exact Root.kinds_injective (firstKinds.trans secondKinds.symm)
  · rw [Sum.kinds, sum.others.kinds_eq_flatMap]
  · exact sum.others.tree_eq_foldl _
  · obtain ⟨other, derived, good⟩ := (documented script).mp ((reads script).mpr ⟨root, stands⟩)
    exact Root.kinds_injective (derived.1.trans stands.1.symm) ▸ good
  · rw [reads script]
    constructor
    · rintro ⟨root, stands⟩
      exact ⟨root, stands, documented root script stands⟩
    · rintro ⟨root, stands, _⟩
      exact ⟨root, stands⟩

/-- The derivation of a behaviour with one state, which waits while no player is near. -/
def patrolRoot : Root :=
  .behaviour {
    attributes := [⟨"Priority", some [.plain ⟨.neg (.number 2), .done⟩]⟩]
    name := "Patrol"
    consts := [⟨"Step", ⟨.number 9, .more .sub (.number 4) (.more .sub (.number 3) .done)⟩⟩]
    starter := none
    first := {
      attributes := [⟨"NonBlocking", some []⟩]
      name := "Walk"
      target := some (.negative 1)
      bodies := [{
        condition := some ⟨true, "PlayerNear", some ⟨.const "Step", .done⟩⟩
        commands := [⟨"Wait", [⟨.const "Step", .more .sub
          (.parens (.number 2) (.more .add (.number 1) .done)) .done⟩]⟩]
        jump := some "Walk" }] }
    others := [] }

def patrolTokens : List Token := (patrolRoot.kinds ++ [Kind.eof]).map (⟨·, "", .dummy⟩)

def patrolScript : Script :=
  .behaviour {
    attributes := [⟨.priority (.neg (.number 2 .dummy) .dummy), .dummy⟩]
    name := "Patrol"
    consts := [⟨"Step", .binary .sub (.binary .sub (.number 9 .dummy) (.number 4 .dummy) .dummy)
      (.number 3 .dummy) .dummy, .dummy⟩]
    starter := none
    states := [{
      attributes := [⟨.nonBlocking, .dummy⟩]
      name := "Walk"
      target := some (.literal (-1))
      bodies := [{
        condition := some ⟨3, true, some (.const "Step" .dummy), .dummy⟩
        commands := [⟨0, [.binary .sub (.const "Step" .dummy)
          (.binary .add (.number 2 .dummy) (.number 1 .dummy) .dummy) .dummy], .dummy⟩]
        jump := some "Walk"
        span := .dummy }]
      span := .dummy }]
    span := .dummy }

theorem parse_eq_ok_iff_derivation_patrol :
    (patrolTokens.map Token.kind = patrolRoot.kinds ++ [.eof] ∧ .eof ∉ patrolRoot.kinds) ∧
      ParsesTo patrolTokens patrolScript ∧
      (∀ other : Root, other.kinds = patrolRoot.kinds → other = patrolRoot) ∧
      ∀ script, ParsesTo patrolTokens script ↔
        ∃ root : Root, root.StandsFor patrolRoot.kinds script ∧ root.Documented := by
  have shape : patrolTokens.map Token.kind = patrolRoot.kinds ++ [.eof] := rfl
  have proper : .eof ∉ patrolRoot.kinds := by decide +kernel
  obtain ⟨reads, unique, _, documented⟩ := parse_eq_ok_iff_derivation shape proper
  have fits : ∀ sum ∈ patrolRoot.sums, sum.depth ≤ nestingLimit := by decide +kernel
  have stands : patrolRoot.tree? = some patrolScript := by decide +kernel
  have good : patrolRoot.Documented := by decide +kernel
  refine ⟨⟨shape, proper⟩, (reads patrolScript).mpr ⟨patrolRoot, rfl, fits, stands⟩,
    fun other same => unique other patrolRoot same rfl, ?_⟩
  refine documented.mpr fun root script derived => ?_
  exact unique root patrolRoot derived.1 rfl ▸ good

/-- The derivation of `[StartFrom((A))] behaviour B { state A() { } }`. -/
def groupedStartRoot : Root :=
  .behaviour {
    attributes := [⟨"StartFrom", some [.plain ⟨.parens (.const "A") .done, .done⟩]⟩]
    name := "B"
    consts := []
    starter := none
    first := ⟨[], "A", none, []⟩
    others := [] }

def groupedStartScript : Script :=
  .behaviour {
    attributes := [⟨.startFrom "A", .dummy⟩]
    name := "B"
    consts := []
    starter := none
    states := [⟨[], "A", none, [], .dummy⟩]
    span := .dummy }

/-- A name in parentheses is read as the name of a state, though the grammar as it is documented
has no derivation of it. -/
theorem parsesTo_undocumented_start :
    ParsesTo ((groupedStartRoot.kinds ++ [Kind.eof]).map (⟨·, "", .dummy⟩)) groupedStartScript ∧
      ¬∃ root : Root, root.kinds = groupedStartRoot.kinds ∧ root.Documented := by
  have proper : .eof ∉ groupedStartRoot.kinds := by decide +kernel
  refine ⟨(parsesTo_iff_standsFor rfl proper _).mpr ⟨groupedStartRoot, rfl, ?_, ?_⟩, ?_⟩
  · decide +kernel
  · decide +kernel
  · rintro ⟨root, same, documented⟩
    rw [Root.kinds_injective same] at documented
    exact absurd documented (by decide +kernel)

end BehaviourScript
