/-
This file finds out how high the trees are that the parser builds. The parser
counts the minus signs and parentheses around an operand and the operators in
front of it in the same sum, and stops at its limit. It forgets what it counted
in an operand once this is closed. In the tree an operand lies below its own
operator and those behind it, and the first operand lies below all operators of
the sum. So the count does not bound the height: with every level that is left a
sum can have a first operand that is as high as a sum of one level less, and the
heights add up to a triangular number.
-/

import Mathlib.Order.Bounds.Defs
import Mathlib.Tactic.Ring
import BehaviourScript.Proofs.Derivation.Parsed
import BehaviourScript.Proofs.Formatting

namespace BehaviourScript

open Token

namespace Expr

/-- The most operators on a way from the root of an expression to a leaf. -/
def height : Expr → Nat
  | number _ _ => 0
  | const _ _ => 0
  | neg operand _ => operand.height + 1
  | binary _ left right _ => max left.height right.height + 1

/-- The height of an expression does not depend on places. -/
theorem height_erase (expr : Expr) : expr.erase.height = expr.height := by
  induction expr with
  | number value span => rfl
  | const name span => rfl
  | neg operand span inductionHypothesis => rw [erase, height, height, inductionHypothesis]
  | binary op left right span leftHypothesis rightHypothesis =>
    rw [erase, height, height, leftHypothesis, rightHypothesis]

/-! ### No expression is higher -/

/-- The height that an operand reaches with a number of levels left. A minus sign adds one, and
in parentheses all levels but one go to a sum. -/
def operandHeight : Nat → Nat
  | 0 => 0
  | room + 1 => operandHeight room + max 1 room

/-- Twice the height of an operand, as a polynomial in the levels. -/
theorem two_mul_operandHeight (room : Nat) :
    2 * operandHeight (room + 1) = room * (room + 1) + 2 := by
  induction room with
  | zero => rfl
  | succ room inductionHypothesis =>
    rw [operandHeight, Nat.max_eq_right (Nat.le_add_left 1 room), Nat.mul_add,
      inductionHypothesis]
    ring

/-- A sum whose first operand is as high as it can be uses all levels for operators. -/
theorem operandHeight_add {room : Nat} (positive : 0 < room) :
    operandHeight room + room = room * (room + 1) / 2 + 1 := by
  obtain ⟨deeper, rfl⟩ : ∃ deeper, room = deeper + 1 := ⟨room - 1, by omega⟩
  have double := two_mul_operandHeight deeper
  have square : (deeper + 1) * (deeper + 1 + 1) = deeper * (deeper + 1) + 2 * (deeper + 1) := by
    ring
  omega

/-- Operands and sums are not higher than their levels allow. Both at once, by induction on the
levels: a sum adds an operator for each level, and the first operand may have used all of them
before. -/
theorem within_height (room : Nat) :
    (∀ row value, Grammar.operand room row value → value.height ≤ operandHeight room) ∧
      ∀ left row value, Grammar.chain room left row value →
        value.height ≤ max left.height (operandHeight room) + room := by
  induction room with
  | zero =>
    refine ⟨fun row value spelled => ?_, fun left row value spelled => ?_⟩
    · cases spelled <;> exact Nat.le_refl 0
    · cases spelled
      exact Nat.le_max_left _ _
  | succ room inductionHypothesis =>
    obtain ⟨operands, chains⟩ := inductionHypothesis
    refine ⟨fun row value spelled => ?_, fun left row value spelled => ?_⟩
    · cases spelled with
      | number => exact Nat.zero_le _
      | const => exact Nat.zero_le _
      | neg spelled =>
        have := operands _ _ spelled
        rw [height, operandHeight]
        omega
      | parens spelled =>
        cases spelled with
        | intro first behind =>
          have := operands _ _ first
          have := chains _ _ _ behind
          rw [operandHeight]
          omega
    · cases spelled with
      | done => omega
      | more right behind =>
        -- one operator above the left operand, and the others above that
        have := operands _ _ right
        have := chains _ _ _ behind
        rw [height] at this
        rw [operandHeight]
        omega

theorem height_le_of_expr {room : Nat} {row : List Kind} {value : Expr}
    (spelled : Grammar.expr room row value) : value.height ≤ operandHeight room + room := by
  obtain ⟨operands, chains⟩ := within_height room
  cases spelled with
  | intro first behind =>
    have := operands _ _ first
    have := chains _ _ _ behind
    omega

/-! ### Some expression is as high -/

theorem height_addOnes (left : Expr) (count : Nat) :
    (addOnes left count).height = left.height + count := by
  induction count with
  | zero => rfl
  | succ count inductionHypothesis =>
    rw [addOnes, height, inductionHypothesis, height]
    omega

/-- The operand that is as high as the levels allow. -/
def highOperand : Nat → Expr
  | 0 => .number 1 .dummy
  | 1 => .neg (.number 1 .dummy) .dummy
  | room + 2 => addOnes (highOperand (room + 1)) (room + 1)

def highOperandKinds : Nat → List Kind
  | 0 => [.number 1]
  | 1 => [.punct .minus, .number 1]
  | room + 2 => .punct .leftParen ::
      (highOperandKinds (room + 1) ++ plusOnesKinds (room + 1) ++ [.punct .rightParen])

/-- The operand that nests first operands is as high as operands get. -/
theorem height_highOperand (room : Nat) : (highOperand room).height = operandHeight room := by
  induction room using highOperand.induct with
  | case1 => rfl
  | case2 => rfl
  | case3 room inductionHypothesis =>
    have larger := Nat.max_eq_right (Nat.le_add_left 1 room)
    rw [highOperand, height_addOnes, inductionHypothesis, operandHeight.eq_2 (room + 1), larger]

/-- That operand is spelled with the levels that it is counted for. -/
theorem operand_highOperand (room : Nat) :
    Grammar.operand room (highOperandKinds room) (highOperand room) := by
  induction room using highOperand.induct with
  | case1 => exact .number
  | case2 => exact .neg .number
  | case3 room inductionHypothesis =>
    exact .parens (.intro inductionHypothesis (chain_plusOnes _ (Nat.le_refl _)))

end Expr

namespace Derivation

/-! ### Heights by derivations -/

mutual

/-- The height of the tree of an operand. -/
def Unary.height : Unary → Nat
  | .neg operand => operand.height + 1
  | .number _ => 0
  | .const _ => 0
  | .parens first others => max (first.height + others.operands.length) others.height

/-- The height that the further operands give a sum. Each lies below its own operator and below
all that stand behind it. -/
def Chain.height : Chain → Nat
  | .done => 0
  | .more _ operand others => max (operand.height + others.operands.length + 1) others.height

end

/-- The height of the tree of a sum. The first operand lies below all operators. -/
def Sum.height (sum : Sum) : Nat :=
  max (sum.first.height + sum.others.operands.length) sum.others.height

mutual

theorem Unary.height_tree : (unary : Unary) → unary.tree.height = unary.height
  | .number _ => rfl
  | .const _ => rfl
  | .neg operand => by rw [Unary.tree, Expr.height, operand.height_tree, Unary.height]
  | .parens first others => by
    rw [Unary.tree, others.height_tree, first.height_tree, Unary.height]

/-- A sum is as high as its first operand with all operators above it, or as one of the further
operands with those behind it. -/
theorem Chain.height_tree : (chain : Chain) → (left : Expr) →
    (chain.tree left).height = max (left.height + chain.operands.length) chain.height
  | .done, left => (Nat.max_eq_left (Nat.zero_le _)).symm
  | .more op operand others, left => by
    rw [Chain.tree, others.height_tree, Expr.height, operand.height_tree, Chain.operands,
      Chain.height, List.length_cons]
    omega

end

theorem Sum.height_tree (sum : Sum) : sum.tree.height = sum.height := by
  rw [Sum.tree, sum.others.height_tree, sum.first.height_tree, Sum.height]

/-- A sum that keeps to the levels is not higher than they allow. -/
theorem Sum.height_le {room : Nat} {sum : Sum} (fits : sum.depth ≤ room) :
    sum.height ≤ Expr.operandHeight room + room := by
  have spelled : Grammar.expr room sum.kinds sum.tree := (sum_derives _ _).mpr
    ⟨sum, rfl, List.forall_mem_singleton.mpr fits, rfl⟩
  rw [← sum.height_tree]
  exact Expr.height_le_of_expr spelled

/-! ### The expressions of a script are its sums

The name of a state that an attribute gives is read as a sum, but it is no expression of the
script. So what is shown for both is whether a property of expressions that all names have holds
of them. -/

/-- A property holds of all expressions in a value exactly if it holds of all sums in its
derivation. -/
def Mirrors {α δ : Type} (property : Expr → Prop) (sums : δ → List Sum) (tree? : δ → Option α)
    (exprs : α → List Expr) : Prop :=
  ∀ derivation value, tree? derivation = some value →
    ((∀ expr ∈ exprs value, property expr) ↔ ∀ sum ∈ sums derivation, property sum.tree)

section Mirrors

variable {property : Expr → Prop}

/-- The expressions of a row are those of its derivations. -/
theorem Mirrors.many {α δ : Type} {sums : δ → List Sum} {tree? : δ → Option α}
    {exprs : α → List Expr} (item : Mirrors property sums tree? exprs) :
    Mirrors property (List.flatMap sums) (List.mapM tree?) (List.flatMap exprs) := by
  intro derivations values made
  induction derivations generalizing values with
  | nil =>
    cases made
    exact iff_of_true nofun nofun
  | cons first others inductionHypothesis =>
    obtain ⟨value, behind, firstMade, othersMade, rfl⟩ := mapM_cons_eq_some.mp made
    rw [List.flatMap_cons, List.flatMap_cons, List.forall_mem_append, List.forall_mem_append,
      item first value firstMade, inductionHypothesis behind othersMade]

theorem consts_mirror (consts : List ConstDecl) :
    (∀ expr ∈ (consts.map ConstDecl.tree).map BehaviourScript.ConstDecl.value, property expr) ↔
      ∀ sum ∈ consts.map ConstDecl.value, property sum.tree := by
  simp only [List.forall_mem_map]
  rfl

theorem command_mirrors :
    Mirrors property Command.args Command.tree? BehaviourScript.Command.args := by
  intro command value made
  obtain ⟨id, -, rfl⟩ := Option.map_eq_some_iff.mp made
  exact List.forall_mem_map

theorem condition_mirrors : Mirrors property (fun condition => condition.parameter.toList)
    Condition.tree? BehaviourScript.Condition.exprs := by
  rintro ⟨negated, name, parameter⟩ value made
  obtain ⟨id, -, rfl⟩ := Option.map_eq_some_iff.mp made
  cases parameter with
  | none => exact iff_of_true nofun nofun
  | some sum => simp [BehaviourScript.Condition.exprs]

theorem body_mirrors : Mirrors property Body.sums Body.tree? StateBody.exprs := by
  rintro ⟨condition, commands, jump⟩ value made
  obtain ⟨test, conditionMade, made⟩ := Option.bind_eq_some_iff.mp made
  obtain ⟨row, commandsMade, ⟨⟩⟩ := Option.bind_eq_some_iff.mp made
  have opening : (∀ expr ∈ test.toList.flatMap BehaviourScript.Condition.exprs, property expr) ↔
      ∀ sum ∈ condition.toList.flatMap (·.parameter.toList), property sum.tree := by
    cases condition with
    | none =>
      cases conditionMade
      exact iff_of_true nofun nofun
    | some condition =>
      obtain ⟨value, known, rfl⟩ := Option.map_eq_some_iff.mp conditionMade
      simpa using condition_mirrors condition value known
  rw [Body.sums, StateBody.exprs, List.forall_mem_append, List.forall_mem_append, opening,
    command_mirrors.many _ _ commandsMade]

theorem assigner_mirrors (assigner : Assigner) :
    (∀ expr ∈ assigner.tree.exprs, property expr) ↔
      ∀ sum ∈ assigner.sums, property sum.tree := by
  simp only [Assigner.tree, BehaviourScript.Assigner.exprs, Assigner.sums, List.forall_mem_map]
  rfl

theorem setup_mirrors (starter : Option Starter) :
    (∀ expr ∈ (starter.map Starter.tree).toList.flatMap BehaviourScript.Starter.exprs,
      property expr) ↔ ∀ sum ∈ starter.toList.flatMap Starter.sums, property sum.tree := by
  have row : Mirrors property Assigner.sums (fun assigner => some assigner.tree)
      BehaviourScript.Assigner.exprs := by
    rintro assigner _ ⟨⟩
    exact assigner_mirrors assigner
  cases starter with
  | none => exact iff_of_true nofun nofun
  | some starter =>
    simpa [Starter.tree, BehaviourScript.Starter.exprs, Starter.sums] using
      row.many starter.assigners _ List.mapM_pure

theorem pack_mirrors : Mirrors property Pack.sums Pack.tree? CommandPack.exprs := by
  rintro ⟨script, commands⟩ value made
  obtain ⟨row, commandsMade, ⟨⟩⟩ := Option.bind_eq_some_iff.mp made
  exact command_mirrors.many _ _ commandsMade

variable (names : ∀ name span, property (.const name span))
include names

/-- The expressions of an attribute are its arguments. -/
theorem shape_mirrors {name : String} {values : List Parser.Argument}
    {kind : BehaviourScript.Attribute.Kind} (shape : Grammar.shape name values kind) :
    (∀ expr ∈ kind.exprs, property expr) ↔ ∀ argument ∈ values, property argument.expr := by
  cases shape with
  | startFrom =>
    exact iff_of_true (List.forall_mem_nil _) (List.forall_mem_singleton.mpr (names _ _))
  | controlPacket =>
    simp only [← (split_perm values).mem_iff, BehaviourScript.Attribute.Kind.exprs,
      List.forall_mem_append, List.forall_mem_map]
    rfl
  | nonBlocking => exact iff_of_true (List.forall_mem_nil _) (List.forall_mem_nil _)
  | skipFirstBody => exact iff_of_true (List.forall_mem_nil _) (List.forall_mem_nil _)
  | _ =>
    simp only [BehaviourScript.Attribute.Kind.exprs, List.forall_mem_singleton,
      Parser.Argument.expr]

theorem attribute_mirrors :
    Mirrors property Attribute.sums Attribute.tree? BehaviourScript.Attribute.exprs := by
  intro attr value made
  obtain ⟨kind, known, rfl⟩ := Option.map_eq_some_iff.mp made
  refine (shape_mirrors names (shape?_eq_some.mp known)).trans ?_
  simp only [Attribute.sums, List.forall_mem_map]
  refine forall₂_congr fun argument _ => ?_
  cases argument <;> rfl

theorem state_mirrors : Mirrors property State.sums State.tree? BehaviourScript.State.exprs := by
  rintro ⟨attributes, name, target, bodies⟩ value made
  obtain ⟨front, attributesMade, made⟩ := Option.bind_eq_some_iff.mp made
  obtain ⟨row, bodiesMade, ⟨⟩⟩ := Option.bind_eq_some_iff.mp made
  rw [State.sums, BehaviourScript.State.exprs, List.forall_mem_append, List.forall_mem_append,
    (attribute_mirrors names).many _ _ attributesMade, body_mirrors.many _ _ bodiesMade]

theorem behaviour_mirrors :
    Mirrors property Behaviour.sums Behaviour.tree? BehaviourScript.Behaviour.exprs := by
  rintro ⟨attributes, name, consts, starter, first, others⟩ value made
  obtain ⟨front, attributesMade, made⟩ := Option.bind_eq_some_iff.mp made
  obtain ⟨states, statesMade, ⟨⟩⟩ := Option.bind_eq_some_iff.mp made
  simp only [Behaviour.sums, BehaviourScript.Behaviour.exprs, List.forall_mem_append,
    (attribute_mirrors names).many _ _ attributesMade, consts_mirror, setup_mirrors,
    (state_mirrors names).many _ _ statesMade]

theorem library_mirrors :
    Mirrors property Library.sums Library.tree? BehaviourScript.Library.exprs := by
  rintro ⟨attributes, name, consts, behaviours⟩ value made
  obtain ⟨front, attributesMade, made⟩ := Option.bind_eq_some_iff.mp made
  obtain ⟨row, behavioursMade, ⟨⟩⟩ := Option.bind_eq_some_iff.mp made
  simp only [Library.sums, BehaviourScript.Library.exprs, List.forall_mem_append,
    (attribute_mirrors names).many _ _ attributesMade, consts_mirror,
    (behaviour_mirrors names).many _ _ behavioursMade]

theorem sequence_mirrors :
    Mirrors property Sequence.sums Sequence.tree? BehaviourScript.Sequence.exprs := by
  rintro ⟨attributes, name, consts, packs, commands⟩ value made
  obtain ⟨front, attributesMade, made⟩ := Option.bind_eq_some_iff.mp made
  obtain ⟨packRow, packsMade, made⟩ := Option.bind_eq_some_iff.mp made
  obtain ⟨commandRow, commandsMade, ⟨⟩⟩ := Option.bind_eq_some_iff.mp made
  simp only [Sequence.sums, BehaviourScript.Sequence.exprs, List.forall_mem_append,
    (attribute_mirrors names).many _ _ attributesMade, consts_mirror,
    pack_mirrors.many _ _ packsMade, command_mirrors.many _ _ commandsMade]

/-- The expressions of a script are the sums of its derivation. -/
theorem root_mirrors : Mirrors property Root.sums Root.tree? Script.exprs := by
  intro root value made
  cases root with
  | library content =>
    obtain ⟨library, known, rfl⟩ := Option.map_eq_some_iff.mp made
    exact library_mirrors names content library known
  | behaviour content =>
    obtain ⟨behaviour, known, rfl⟩ := Option.map_eq_some_iff.mp made
    exact behaviour_mirrors names content behaviour known
  | sequence content =>
    obtain ⟨sequence, known, rfl⟩ := Option.map_eq_some_iff.mp made
    exact sequence_mirrors names content sequence known

end Mirrors

end Derivation

/-! ### Scripts that are read -/

theorem mem_exprs_erase {script : Script} {value : Expr} :
    value ∈ script.erase.exprs ↔ ∃ expr ∈ script.exprs, expr.erase = value := by
  rw [Script.erase, Script.exprs_mapExpr, List.mem_map]

/-- What is read has a derivation, and the derivation says how high its expressions are. -/
theorem exists_derivation_of_parse {tokens : List Token} {script : Script}
    (run : parse tokens = .ok script) :
    ∃ (root : Derivation.Root) (rest : List Kind),
      tokens.map Token.kind = root.kinds ++ rest ∧ headKind rest = .eof ∧
      root.tree? = some script.erase ∧ (∀ sum ∈ root.sums, sum.depth ≤ nestingLimit) ∧
      ∀ bound, (∀ expr ∈ script.exprs, expr.height ≤ bound) ↔
        ∀ sum ∈ root.sums, sum.height ≤ bound := by
  have deep : (Cursor.ofTokens tokens).depth + nestingLimit = nestingLimit := Nat.zero_add _
  unfold parse at run
  split at run
  · next outcome =>
    cases run
    obtain ⟨ends, _, passes, spelled⟩ := Parser.script_sound deep outcome
    obtain ⟨root, rfl, fits, stands⟩ := (Derivation.script_derives _ _).mp spelled
    refine ⟨root, _, passes.kinds, ends, stands, fits, fun bound => ?_⟩
    have heights : (∀ expr ∈ script.erase.exprs, expr.height ≤ bound) ↔
        ∀ sum ∈ root.sums, sum.tree.height ≤ bound :=
      Derivation.root_mirrors (fun _ _ => Nat.zero_le _) root _ stands
    simp only [Derivation.Sum.height_tree, Script.erase, Script.exprs_mapExpr,
      List.forall_mem_map, Expr.height_erase] at heights
    exact heights
  · cases run

/-- The trees of the expressions in a script that is read are not higher than the levels of
nesting allow. -/
theorem height_le_of_parse {tokens : List Token} {script : Script}
    (run : parse tokens = .ok script) :
    ∀ expr ∈ script.exprs, expr.height ≤ nestingLimit * (nestingLimit + 1) / 2 + 1 := by
  obtain ⟨root, _, _, _, _, fits, heights⟩ := exists_derivation_of_parse run
  refine (heights _).mpr fun sum member => ?_
  rw [← Expr.operandHeight_add (show 0 < nestingLimit by decide)]
  exact Derivation.Sum.height_le (fits sum member)

/-- Every expression that is spelled is read, as the value of a const. -/
theorem exists_parse_expr {row : List Kind} {value : Expr}
    (spelled : Grammar.expr nestingLimit row value) :
    ∃ tokens script expr, parse tokens = .ok script ∧ expr ∈ script.exprs ∧
      expr.erase = value := by
  have whole : Grammar.script nestingLimit _
      (.sequence ⟨[], "S", [⟨"A", value, .dummy⟩], [], [], .dummy⟩) :=
    .intro .nil (.sequence (.intro (.cons (.intro spelled) .nil) .nil .nil))
  let tokens (kinds : List Kind) : List Token := kinds.map fun kind => ⟨kind, "", .dummy⟩
  have kinds (row : List Kind) : (Cursor.ofTokens (tokens row)).kinds = row ++ [] := by
    rw [List.append_nil]
    exact List.map_map.trans (List.map_id _)
  obtain ⟨script, next, run, same⟩ := Parser.script_complete (Nat.zero_add _) whole (kinds _) rfl
  have member : value ∈ script.erase.exprs := by
    rw [same]
    exact List.mem_cons_self
  obtain ⟨expr, inScript, erased⟩ := mem_exprs_erase.mp member
  exact ⟨tokens _, script, expr, by rw [parse, run], inScript, erased⟩

/-- The highest expression that is ever read. -/
theorem isGreatest_height :
    IsGreatest {height | ∃ tokens script expr, parse tokens = .ok script ∧
        expr ∈ script.exprs ∧ expr.height = height}
      (nestingLimit * (nestingLimit + 1) / 2 + 1) := by
  constructor
  · have spelled : Grammar.expr nestingLimit _
        (addOnes (Expr.highOperand nestingLimit) nestingLimit) :=
      .intro (Expr.operand_highOperand _) (chain_plusOnes _ (Nat.le_refl _))
    obtain ⟨tokens, script, expr, run, member, same⟩ := exists_parse_expr spelled
    refine ⟨tokens, script, expr, run, member, ?_⟩
    rw [← expr.height_erase, same, Expr.height_addOnes, Expr.height_highOperand]
    exact Expr.operandHeight_add (by decide)
  · rintro _ ⟨tokens, script, expr, run, member, rfl⟩
    exact height_le_of_parse run expr member

/-- No expression of a script that is read is higher than 32897, the sum of the numbers up to the
limit and one more; and some script has an expression of that height. The expressions of a script
keep to the limit itself exactly if no sum of its derivation goes over it, where an operand counts
the operators behind it and not those in front. -/
theorem height_le_iff_of_parse {tokens : List Token} {script : Script}
    (run : parse tokens = .ok script) :
    (∀ expr ∈ script.exprs, expr.height ≤ 32897) ∧
    IsGreatest {height | ∃ tokens script expr, parse tokens = .ok script ∧
      expr ∈ script.exprs ∧ expr.height = height} 32897 ∧
    ∃ (root : Derivation.Root) (rest : List Kind),
      tokens.map Token.kind = root.kinds ++ rest ∧ headKind rest = .eof ∧
      root.tree? = some script.erase ∧
      ((∀ expr ∈ script.exprs, expr.height ≤ nestingLimit) ↔
        ∀ sum ∈ root.sums, sum.height ≤ nestingLimit) := by
  obtain ⟨root, rest, same, ends, stands, _, heights⟩ := exists_derivation_of_parse run
  have greatest := isGreatest_height
  rw [show nestingLimit * (nestingLimit + 1) / 2 + 1 = 32897 from rfl] at greatest
  exact ⟨fun expr member => greatest.2 ⟨tokens, script, expr, run, member, rfl⟩, greatest,
    root, rest, same, ends, stands, heights nestingLimit⟩

/-- The tokens of a sequence with a const that is `(1 - 2) - 3`. -/
def groupedTokens : List Token :=
  [Kind.keyword .sequence, .identifier "S", .punct .leftBrace, .keyword .const, .identifier "A",
    .punct .equals, .punct .leftParen, .number 1, .punct .minus, .number 2, .punct .rightParen,
    .punct .minus, .number 3, .punct .semicolon, .punct .rightBrace, .eof].map (⟨·, "", .dummy⟩)

def groupedScript : Script :=
  .sequence ⟨[], "S", [⟨"A", .binary .sub (.binary .sub (.number 1 .dummy) (.number 2 .dummy)
    .dummy) (.number 3 .dummy) .dummy, .dummy⟩], [], [], .dummy⟩

theorem height_le_iff_of_parse_grouped :
    parse groupedTokens = .ok groupedScript ∧
      (∀ expr ∈ groupedScript.exprs, expr.height ≤ 32897) ∧
      ∃ (root : Derivation.Root) (rest : List Kind),
        groupedTokens.map Token.kind = root.kinds ++ rest ∧ headKind rest = .eof ∧
        root.tree? = some groupedScript.erase ∧
        ((∀ expr ∈ groupedScript.exprs, expr.height ≤ nestingLimit) ↔
          ∀ sum ∈ root.sums, sum.height ≤ nestingLimit) := by
  have run : parse groupedTokens = .ok groupedScript := by decide +kernel
  obtain ⟨bounded, _, exact⟩ := height_le_iff_of_parse run
  exact ⟨run, bounded, exact⟩

/-- A sum in parentheses with one operator, and 256 more operators behind it. -/
theorem height_gt_grouped_sum :
    ∃ script expr, parseSource (groupedOnes 1 256) = .ok script ∧ expr ∈ script.exprs ∧
      nestingLimit < expr.height := by
  obtain ⟨script, read, same⟩ := parseSource_groupedOnes
    (show 1 < nestingLimit by decide) (Nat.le_refl nestingLimit)
  have member : ones 257 ∈ script.erase.exprs := by
    rw [same]
    exact List.mem_cons_self
  obtain ⟨expr, inScript, erased⟩ := mem_exprs_erase.mp member
  refine ⟨script, expr, read, inScript, ?_⟩
  rw [← expr.height_erase, erased, ← Nat.zero_add 257, ← addOnes_ones, Expr.height_addOnes]
  decide

end BehaviourScript
