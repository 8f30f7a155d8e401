/-
This file follows where the nodes come from that readers build. A reader is told by
the outlines of what it gives: from the cursor it starts at to the cursor it ends
at, there are nodes with these outlines. Spans start at different moments. Most do
at the word that a node begins with, those of units, behaviours and states in front
of their attributes, and that of a sum at its first operand, with the parenthesis
that this one may stand in. The span always ends with the token passed last.
-/

import BehaviourScript.Proofs.Parsing.Script
import BehaviourScript.Proofs.Spans.Outline
import BehaviourScript.Proofs.Tiling

namespace BehaviourScript

open Token

namespace Parser

variable {α : Type} {cursor next : Cursor}

/-! ### Small readers -/

/-- What a reader gives are nodes between the cursors, and it passes a token. -/
def Fills (reader : Parser α) (outlines : α → List Outline) : Prop :=
  ∀ ⦃cursor next : Cursor⦄ ⦃value : α⦄, reader cursor = .ok value next →
    cursor.Fills (outlines value) next

/-- A token that is expected is one word of its node, and its span is given. -/
theorem expect_fills {kind : Kind} {span : Span} (run : expect kind cursor = .ok span next)
    (proper : kind ≠ .eof) : span = cursor.span ∧ cursor.Fills [] next := by
  unfold expect at run
  split at run
  · next there =>
    cases run
    exact ⟨rfl, Cursor.fills_advance (eq_of_beq there) proper⟩
  · cases run

theorem expect_lays {kind : Kind} {span : Span} (run : expect kind cursor = .ok span next)
    (proper : kind ≠ .eof) : cursor.Lays [] next := (expect_fills run proper).2.lays

theorem identifier_fills {what name : String} {span : Span}
    (run : identifier what cursor = .ok (name, span) next) :
    span = cursor.span ∧ cursor.Fills [] next := by
  unfold identifier at run
  split at run
  · next found head =>
    cases run
    exact ⟨rfl, Cursor.fills_advance head (by simp)⟩
  · cases run

theorem identifier_lays {what name : String} {span : Span}
    (run : identifier what cursor = .ok (name, span) next) : cursor.Lays [] next :=
  (identifier_fills run).2.lays

theorem eat_lays {kind : Kind} {found : Bool} (run : eat kind cursor = .ok found next)
    (proper : kind ≠ .eof) : cursor.Lays [] next := by
  unfold eat at run
  split at run
  · next there =>
    cases run
    exact (Cursor.fills_advance (eq_of_beq there) proper).lays
  · cases run
    exact .refl cursor

/-- The nodes of a row stand one behind the other. The induction is on the tokens that are left. -/
theorem many_lays {item : Parser α} {outline : α → Outline}
    (fills : Fills item fun value => [outline value]) {more : Cursor → Bool} {values : List α}
    (run : many more item cursor = .ok values next) : cursor.Lays (values.map outline) next := by
  fun_induction many more item cursor generalizing values with
  | case1 => cases run
  | case2 => cases run
  | case3 cursor going value middle read _ others stop behind inductionHypothesis =>
    cases run
    exact (fills read).lays.trans (inductionHypothesis behind)
  | case4 cursor going value middle read =>
    cases run
    exact (fills read).lays
  | case5 =>
    cases run
    exact .refl next

/-- The nodes of a list stand one behind the other, with the commas between them in none. -/
theorem separated_fills {item : Parser α} {outline : α → Outline}
    (fills : Fills item fun value => [outline value]) :
    Fills (separated item) fun values => values.map outline := by
  intro cursor next values run
  simp only [separated, bind_eq_ok, pure_eq_ok] at run
  obtain ⟨first, _, firstRun, others, _, othersRun, rfl, rfl⟩ := run
  have further : Fills (advance *> item) fun value => [outline value] := by
    intro cursor next value run
    obtain ⟨_, _, moved, read⟩ := seqRight_eq_ok.mp run
    rw [advance_eq_ok] at moved
    subst moved
    exact cursor.lays_advance.fills (fills read)
  exact (fills firstRun).trans (many_lays further othersRun)

theorem listed_fills {item : Parser α} {outline : α → Outline}
    (fills : Fills item fun value => [outline value]) :
    Fills (listed item) fun values => values.map outline := by
  intro cursor next values run
  simp only [listed, bind_eq_ok, look_eq_ok] at run
  obtain ⟨_, _, ⟨rfl, rfl⟩, run⟩ := run
  split at run
  · simp only [bind_eq_ok, pure_eq_ok] at run
    obtain ⟨_, _, ⟨rfl, rfl⟩, _, _, closeRun, rfl, rfl⟩ := run
    exact (expect_fills closeRun (by simp)).2
  · simp only [bind_eq_ok, pure_eq_ok] at run
    obtain ⟨_, _, itemsRun, _, _, closeRun, rfl, rfl⟩ := run
    exact (separated_fills fills itemsRun).skip (expect_lays closeRun (by simp))

theorem optional_fills {item : Parser α} {outlines : α → List Outline}
    (fills : Fills item outlines) :
    Fills (optional item) fun value => value.elim [] outlines := by
  intro cursor next value run
  simp only [optional, bind_eq_ok, look_eq_ok] at run
  obtain ⟨_, _, ⟨rfl, rfl⟩, run⟩ := run
  split at run
  · simp only [bind_eq_ok, pure_eq_ok] at run
    obtain ⟨_, _, ⟨rfl, rfl⟩, _, _, closeRun, rfl, rfl⟩ := run
    exact (expect_fills closeRun (by simp)).2
  · simp only [bind_eq_ok, map_eq_ok, pure_eq_ok] at run
    obtain ⟨_, _, ⟨found, itemRun, rfl⟩, _, _, closeRun, rfl, rfl⟩ := run
    exact (fills itemRun).skip (expect_lays closeRun (by simp))

theorem inParens_lays {inner : Parser (List α)} {outline : α → Outline}
    (fills : Fills inner fun values => values.map outline) {values : List α}
    (run : inParens inner cursor = .ok values next) :
    cursor.Lays (values.map outline) next := by
  simp only [inParens, bind_eq_ok] at run
  obtain ⟨found, _, eaten, run⟩ := run
  have front := eat_lays eaten (by simp)
  cases found with
  | true => exact front.trans (fills run).lays
  | false =>
    obtain ⟨rfl, rfl⟩ := pure_eq_ok.mp run
    exact front

/-! ### Expressions -/

/-- An operand is one node over the tokens that are passed for it, without the parentheses around
it. -/
theorem operandOver_fills {negated inner : Parser Expr}
    (negatedFills : Fills negated fun value => [value.outline])
    (innerFills : Fills inner fun value => [value.outline]) :
    Fills (operandOver negated inner) fun value => [value.outline] := by
  intro cursor next value run
  simp only [operandOver, bind_eq_ok, look_eq_ok] at run
  obtain ⟨_, _, ⟨rfl, rfl⟩, kind, _, ⟨head, rfl⟩, run⟩ := run
  split at run
  · simp only [bind_eq_ok, advance_eq_ok, pure_eq_ok] at run
    obtain ⟨_, _, rfl, rfl, rfl⟩ := run
    exact Cursor.fills_leaf head (by simp)
  · simp only [bind_eq_ok, advance_eq_ok, pure_eq_ok] at run
    obtain ⟨_, _, rfl, rfl, rfl⟩ := run
    exact Cursor.fills_leaf head (by simp)
  · split at run
    · simp only [bind_eq_ok, enter_eq_ok, advance_eq_ok, leave_eq_ok, look_eq_ok, pure_eq_ok] at run
      obtain ⟨_, _, ⟨-, rfl⟩, _, _, rfl, operand, _, operandRun, _, _, rfl, _, _, ⟨rfl, rfl⟩, rfl,
        rfl⟩ := run
      have inner := (cursor.lays_inward _).fills (negatedFills operandRun)
      exact (inner.skip (Cursor.lays_atDepth _ _)).node_one
    · simp only [bind_eq_ok, enter_eq_ok, advance_eq_ok, leave_eq_ok, pure_eq_ok] at run
      obtain ⟨_, _, ⟨-, rfl⟩, _, _, rfl, value, _, valueRun, _, _, closeRun, _, _, rfl, rfl, rfl⟩ :=
        run
      -- the parentheses belong to no node; the one inside is given as it is
      have inner := (cursor.lays_inward _).fills (innerFills valueRun)
      exact (inner.skip (expect_lays closeRun (by simp))).skip (Cursor.lays_atDepth _ _)
    · exact (failExpected_ne_ok.mp run).elim
  · exact (failExpected_ne_ok.mp run).elim

/-- A sum that is read on from a node remains one node. -/
def Extends (chain : Span → Expr → Parser Expr) : Prop :=
  ∀ ⦃start cursor next : Cursor⦄ ⦃left value : Expr⦄, start.Fills [left.outline] cursor →
    chain start.span left cursor = .ok value next → start.Fills [value.outline] next

/-- A sum is one node from the first token of its first operand to the last token of its last. -/
theorem exprOver_fills {operand : Parser Expr} {chain : Span → Expr → Parser Expr}
    (first : Fills operand fun value => [value.outline]) (others : Extends chain) :
    Fills (exprOver operand chain) fun value => [value.outline] := by
  intro cursor next value run
  simp only [exprOver, bind_eq_ok, look_eq_ok, resetDepth_eq_ok, pure_eq_ok] at run
  obtain ⟨_, _, ⟨rfl, rfl⟩, _, _, ⟨rfl, rfl⟩, left, _, firstRun, _, _, othersRun, _, _, rfl, rfl,
    rfl⟩ := run
  exact (others (first firstRun) othersRun).skip (Cursor.lays_atDepth _ _)

theorem tooDeep_fills (outlines : α → List Outline) : Fills tooDeep outlines :=
  fun _ _ _ run => (fail_ne_ok.mp run).elim

/-- Operands and sums are nodes, whatever levels are left. Both at once, by induction on the
levels. -/
theorem within_fills (room : Nat) :
    Fills (operandWithin room) (fun value => [value.outline]) ∧ Extends (chainWithin room) := by
  induction room with
  | zero =>
    refine ⟨operandOver_fills (tooDeep_fills _) (tooDeep_fills _), ?_⟩
    intro start cursor next left value fills run
    simp only [chainWithin, bind_eq_ok, look_eq_ok] at run
    obtain ⟨_, _, ⟨rfl, rfl⟩, run⟩ := run
    cases sign : binOp? cursor.kind with
    | none =>
      rw [sign] at run
      obtain ⟨rfl, rfl⟩ := pure_eq_ok.mp run
      exact fills
    | some op =>
      rw [sign] at run
      exact (fail_ne_ok.mp run).elim
  | succ room inductionHypothesis =>
    obtain ⟨operand, others⟩ := inductionHypothesis
    refine ⟨operandOver_fills operand (exprOver_fills operand others), ?_⟩
    intro start cursor next left value fills run
    simp only [chainWithin, bind_eq_ok, look_eq_ok] at run
    obtain ⟨_, _, ⟨rfl, rfl⟩, run⟩ := run
    cases sign : binOp? cursor.kind with
    | none =>
      rw [sign] at run
      obtain ⟨rfl, rfl⟩ := pure_eq_ok.mp run
      exact fills
    | some op =>
      rw [sign] at run
      simp only [bind_eq_ok, enter_eq_ok, advance_eq_ok, look_eq_ok] at run
      obtain ⟨_, _, ⟨-, rfl⟩, _, _, rfl, right, middle, rightRun, _, _, ⟨rfl, rfl⟩, run⟩ := run
      have behind := (cursor.lays_inward _).fills (operand rightRun)
      have sum : start.Fills [(Expr.binary op left right (middle.spanFrom start.span)).outline]
          middle := (fills.trans behind.lays).node_one
      exact others sum run

/-- An expression is one node. -/
theorem expr_fills : Fills expr fun value => [value.outline] := by
  intro cursor next value run
  simp only [expr, bind_eq_ok, look_eq_ok] at run
  obtain ⟨room, _, ⟨-, rfl⟩, run⟩ := run
  obtain ⟨operand, others⟩ := within_fills room
  exact exprOver_fills operand others run

/-- A reference is no node of its own. -/
theorem reference_fills : Fills reference fun _ => [] := by
  intro cursor next value run
  rw [reference, bind_eq_ok] at run
  obtain ⟨found, middle, taken, run⟩ := run
  rcases negative?_sound taken with ⟨number, rfl, rfl, -, behind⟩ | ⟨rfl, rfl⟩
  · simp only [bind_eq_ok, advance_eq_ok, pure_eq_ok] at run
    obtain ⟨_, _, rfl, rfl, rfl⟩ := run
    exact cursor.lays_advance.fills (Cursor.fills_advance behind (by simp))
  · simp only [bind_eq_ok, look_eq_ok] at run
    obtain ⟨kind, _, ⟨head, rfl⟩, run⟩ := run
    split at run
    · simp only [bind_eq_ok, advance_eq_ok, pure_eq_ok] at run
      obtain ⟨_, _, rfl, rfl, rfl⟩ := run
      exact Cursor.fills_advance head (by simp)
    · simp only [bind_eq_ok, advance_eq_ok, pure_eq_ok] at run
      obtain ⟨_, _, rfl, rfl, rfl⟩ := run
      exact Cursor.fills_advance head (by simp)
    · exact (failExpected_ne_ok.mp run).elim

theorem assign_fills : Fills assign fun value => [value.outline] := by
  intro cursor next value run
  simp only [assign, bind_eq_ok, look_eq_ok, pure_eq_ok, Prod.exists] at run
  obtain ⟨name, _, _, nameRun, _, _, equalsRun, value, _, valueRun, _, _, ⟨rfl, rfl⟩, rfl, rfl⟩ :=
    run
  obtain ⟨rfl, front⟩ := identifier_fills nameRun
  have equals := expect_lays equalsRun (by simp)
  exact ((front.skip equals).trans (expr_fills valueRun).lays).node_one

theorem exprList_fills : Fills exprList fun values => values.map Expr.outline := by
  intro cursor next values run
  simp only [exprList, bind_eq_ok] at run
  obtain ⟨_, _, openRun, valuesRun⟩ := run
  exact (expect_fills openRun (by simp)).2.trans (listed_fills expr_fills valuesRun).lays

/-! ### Attributes and declarations -/

def Argument.outline : Argument → Outline
  | .named value => value.outline
  | .plain value => value.outline

/-- An argument is one node, a named value with its name. -/
theorem argument_fills : Fills argument fun value => [value.outline] := by
  intro cursor next value run
  simp only [argument, bind_eq_ok, look_eq_ok] at run
  obtain ⟨_, _, ⟨rfl, rfl⟩, run⟩ := run
  split at run
  · simp only [bind_eq_ok, pure_eq_ok] at run
    obtain ⟨_, _, valueRun, rfl, rfl⟩ := run
    exact assign_fills valueRun
  · simp only [bind_eq_ok, pure_eq_ok] at run
    obtain ⟨_, _, valueRun, rfl, rfl⟩ := run
    exact expr_fills valueRun

/-- The settings among arguments stand in their order. -/
theorem namedOnly_sublist (arguments : List Argument) :
    ((Argument.namedOnly arguments).map Assign.outline).Sublist
      (arguments.map Argument.outline) := by
  induction arguments with
  | nil => exact .slnil
  | cons argument arguments inductionHypothesis =>
    cases argument with
    | named value => exact inductionHypothesis.cons_cons _
    | plain value => exact inductionHypothesis.cons _

/-- The data words among arguments stand in their order. -/
theorem plainOnly_sublist (arguments : List Argument) :
    ((Argument.plainOnly arguments).map Expr.outline).Sublist
      (arguments.map Argument.outline) := by
  induction arguments with
  | nil => exact .slnil
  | cons argument arguments inductionHypothesis =>
    cases argument with
    | named value => exact inductionHypothesis.cons _
    | plain value => exact inductionHypothesis.cons_cons _

/-- The nodes in an attribute are its arguments, or some of them. -/
theorem shape_rows {name : String} {arguments : List Argument} {kind : Attribute.Kind}
    (shape : Grammar.shape name arguments kind) :
    ∀ row ∈ kind.rows, row.Sublist (arguments.map Argument.outline) := by
  cases shape with
  | globalIndex | priority | instanceType | useObjectSlot | unknown =>
    exact List.forall_mem_singleton.mpr (.refl _)
  | startFrom | nonBlocking | skipFirstBody => exact List.forall_mem_nil _
  | controlPacket =>
    exact List.forall_mem_cons.mpr ⟨namedOnly_sublist arguments,
      List.forall_mem_singleton.mpr (plainOnly_sublist arguments)⟩

/-- An attribute is one node from bracket to bracket, with its arguments in it. -/
theorem attr_fills : Fills attr fun value => [value.outline] := by
  intro cursor next value run
  simp only [attr_eq, bind_eq_ok, look_eq_ok, lift_eq_ok, pure_eq_ok, Prod.exists] at run
  obtain ⟨_, _, openRun, _, _, ⟨-, rfl⟩, name, _, _, nameRun, arguments, _, argumentsRun, _, _,
    closeRun, kind, _, ⟨made, rfl⟩, _, _, ⟨rfl, rfl⟩, rfl, rfl⟩ := run
  obtain ⟨rfl, bracket⟩ := expect_fills openRun (by simp)
  have front := bracket.skip (identifier_lays nameRun)
  have inner := front.trans (inParens_lays (listed_fills argument_fills) argumentsRun)
  have whole := inner.skip (expect_lays closeRun (by simp))
  exact whole.node (shape_rows (attributeKind_eq_ok.mp made))

theorem constDecl_fills : Fills constDecl fun value => [value.outline] := by
  intro cursor next value run
  simp only [constDecl, bind_eq_ok, look_eq_ok, pure_eq_ok, Prod.exists] at run
  obtain ⟨_, _, wordRun, name, _, _, nameRun, _, _, equalsRun, value, _, valueRun, _, _,
    closeRun, _, _, ⟨rfl, rfl⟩, rfl, rfl⟩ := run
  obtain ⟨rfl, word⟩ := expect_fills wordRun (by simp)
  have front := (word.skip (identifier_lays nameRun)).skip (expect_lays equalsRun (by simp))
  have inner := front.trans (expr_fills valueRun).lays
  exact (inner.skip (expect_lays closeRun (by simp))).node_one

/-! ### Commands and states -/

theorem catalogued_fills (catalogue : Catalogue) (what : String)
    (unknown : String → Position → ParseError) :
    Fills (catalogued catalogue what unknown) fun _ => [] := by
  intro cursor next value run
  simp only [catalogued, bind_eq_ok, look_eq_ok, Prod.exists] at run
  obtain ⟨_, _, ⟨-, rfl⟩, name, _, _, nameRun, run⟩ := run
  cases known : catalogue.id? name with
  | none =>
    rw [known] at run
    exact (fail_ne_ok.mp run).elim
  | some id =>
    rw [known] at run
    obtain ⟨rfl, rfl⟩ := pure_eq_ok.mp run
    exact (identifier_fills nameRun).2

/-- A command is one node to its semicolon, with its arguments in it. -/
theorem command_fills : Fills command fun value => [value.outline] := by
  intro cursor next value run
  simp only [command, bind_eq_ok, look_eq_ok, pure_eq_ok] at run
  obtain ⟨_, _, ⟨rfl, rfl⟩, id, _, idRun, args, _, argsRun, _, _, closeRun, _, _, ⟨rfl, rfl⟩, rfl,
    rfl⟩ := run
  have front := (catalogued_fills _ _ _ idRun).trans (exprList_fills argsRun).lays
  exact (front.skip (expect_lays closeRun (by simp))).node_one

theorem commandsToBrace_fills :
    Fills commandsToBrace fun values => values.map Command.outline := by
  intro cursor next values run
  simp only [commandsToBrace, bind_eq_ok, pure_eq_ok] at run
  obtain ⟨commands, _, commandsRun, _, _, closeRun, rfl, rfl⟩ := run
  exact (many_lays command_fills commandsRun).closed (expect_fills closeRun (by simp)).2

theorem condition_fills : Fills condition fun value => [value.outline] := by
  intro cursor next value run
  simp only [condition, bind_eq_ok, look_eq_ok, pure_eq_ok] at run
  obtain ⟨_, _, ⟨rfl, rfl⟩, negate, _, notRun, id, _, idRun, _, _, openRun, parameter, _,
    parameterRun, _, _, ⟨rfl, rfl⟩, rfl, rfl⟩ := run
  have front := ((eat_lays notRun (by simp)).fills (catalogued_fills _ _ _ idRun)).skip
    (expect_lays openRun (by simp))
  have inner := (optional_fills expr_fills parameterRun).lays
  cases parameter with
  | none => exact (front.trans inner).node_one
  | some value => exact (front.trans inner).node_one

theorem guard_fills : Fills guard fun value => value.toList.map Condition.outline := by
  intro cursor next value run
  simp only [guard, bind_eq_ok, look_eq_ok] at run
  obtain ⟨kind, _, ⟨head, rfl⟩, run⟩ := run
  split at run
  · simp only [bind_eq_ok, advance_eq_ok, map_eq_ok] at run
    obtain ⟨_, _, rfl, found, conditionRun, rfl⟩ := run
    exact cursor.lays_advance.fills (condition_fills conditionRun)
  · simp only [bind_eq_ok, advance_eq_ok, pure_eq_ok] at run
    obtain ⟨_, _, rfl, rfl, rfl⟩ := run
    exact Cursor.fills_advance head (by simp)
  · exact (failExpected_ne_ok.mp run).elim

theorem jump_lays {value : Option String} (run : jump cursor = .ok value next) :
    cursor.Lays [] next := by
  simp only [jump, bind_eq_ok] at run
  obtain ⟨found, _, eaten, run⟩ := run
  have front := eat_lays eaten (by simp)
  cases found with
  | true =>
    rw [if_pos rfl] at run
    simp only [bind_eq_ok, pure_eq_ok, Prod.exists] at run
    obtain ⟨_, _, _, nameRun, _, _, endRun, rfl, rfl⟩ := run
    exact (front.skip (identifier_lays nameRun)).skip (expect_lays endRun (by simp))
  | false =>
    obtain ⟨rfl, rfl⟩ := pure_eq_ok.mp run
    exact front

/-- A body is one node, with its condition and its commands in it. -/
theorem stateBody_fills : Fills stateBody fun value => [value.outline] := by
  intro cursor next value run
  simp only [stateBody, bind_eq_ok, look_eq_ok, pure_eq_ok] at run
  obtain ⟨_, _, ⟨rfl, rfl⟩, test, _, testRun, _, _, openRun, commands, _, commandsRun, target, _,
    targetRun, _, _, closeRun, _, _, ⟨rfl, rfl⟩, rfl, rfl⟩ := run
  have front := (guard_fills testRun).skip (expect_lays openRun (by simp))
  have inner := front.trans (many_lays command_fills commandsRun)
  exact ((inner.skip (jump_lays targetRun)).skip (expect_lays closeRun (by simp))).node_one

theorem attributes_lays {values : List Attribute} (run : attributes cursor = .ok values next) :
    cursor.Lays (values.map Attribute.outline) next := many_lays attr_fills run

theorem target_lays {value : Option Reference} (run : optional reference cursor = .ok value next) :
    cursor.Lays [] next := by
  have fills := optional_fills reference_fills run
  cases value with
  | none => exact fills.lays
  | some found => exact fills.lays

/-- A state is one node from its first attribute on. -/
theorem state_fills : Fills state fun value => [value.outline] := by
  intro cursor next value run
  simp only [state, bind_eq_ok, look_eq_ok] at run
  obtain ⟨_, _, ⟨rfl, rfl⟩, attributes, middle, attributesRun, _, _, ⟨rfl, rfl⟩, run⟩ := run
  split at run
  · simp only [bind_eq_ok, failExpected_ne_ok, false_and, exists_false] at run
  · simp only [bind_eq_ok, advance_eq_ok, look_eq_ok, pure_eq_ok, Prod.exists] at run
    obtain ⟨_, _, rfl, name, _, _, nameRun, _, _, openRun, target, _, targetRun, _, _, braceRun,
      bodies, _, bodiesRun, _, _, closeRun, _, _, ⟨rfl, rfl⟩, rfl, rfl⟩ := run
    have front := (attributes_lays attributesRun).skip middle.lays_advance
    have named := front.closed (identifier_fills nameRun).2
    have opened := named.skip (expect_lays openRun (by simp))
    have aimed := (opened.skip (target_lays targetRun)).skip (expect_lays braceRun (by simp))
    have inner := aimed.trans (many_lays stateBody_fills bodiesRun)
    exact (inner.skip (expect_lays closeRun (by simp))).node_one

/-! ### Units -/

theorem fieldList_fills : Fills fieldList fun values => values.map Assign.outline := by
  intro cursor next values run
  simp only [fieldList, bind_eq_ok, pure_eq_ok] at run
  obtain ⟨fields, _, fieldsRun, _, _, closeRun, rfl, rfl⟩ := run
  exact (separated_fills assign_fills fieldsRun).skip (expect_lays closeRun (by simp))

theorem assigner_fills : Fills assigner fun value => [value.outline] := by
  intro cursor next value run
  simp only [assigner_eq, bind_eq_ok, look_eq_ok, pure_eq_ok] at run
  obtain ⟨_, _, wordRun, object, _, objectRun, fields, _, fieldsRun, _, _, endRun, _, _,
    ⟨rfl, rfl⟩, rfl, rfl⟩ := run
  obtain ⟨rfl, word⟩ := expect_fills wordRun (by simp)
  have front := word.skip (reference_fills objectRun).lays
  have inner := front.trans (inParens_lays fieldList_fills fieldsRun)
  exact (inner.skip (expect_lays endRun (by simp))).node_one

theorem starter_fills : Fills starter fun value => [value.outline] := by
  intro cursor next value run
  simp only [starter, bind_eq_ok, look_eq_ok, pure_eq_ok] at run
  obtain ⟨_, _, wordRun, _, _, openRun, assigners, _, assignersRun, _, _, closeRun, _, _,
    ⟨rfl, rfl⟩, rfl, rfl⟩ := run
  obtain ⟨rfl, word⟩ := expect_fills wordRun (by simp)
  have front := word.skip (expect_lays openRun (by simp))
  have inner := front.trans (many_lays assigner_fills assignersRun)
  exact (inner.skip (expect_lays closeRun (by simp))).node_one

theorem setup_lays {value : Option Starter} (run : setup cursor = .ok value next) :
    cursor.Lays (value.toList.map Starter.outline) next := by
  simp only [setup, bind_eq_ok, look_eq_ok] at run
  obtain ⟨_, _, ⟨rfl, rfl⟩, run⟩ := run
  split at run
  · obtain ⟨found, starterRun, rfl⟩ := map_eq_ok.mp run
    exact (starter_fills starterRun).lays
  · obtain ⟨rfl, rfl⟩ := pure_eq_ok.mp run
    exact .refl cursor

theorem commandPack_fills : Fills commandPack fun value => [value.outline] := by
  intro cursor next value run
  simp only [commandPack, bind_eq_ok, look_eq_ok, pure_eq_ok] at run
  obtain ⟨_, _, wordRun, _, _, openRun, script, _, scriptRun, _, _, closeRun, _, _, braceRun,
    commands, _, commandsRun, _, _, ⟨rfl, rfl⟩, rfl, rfl⟩ := run
  obtain ⟨rfl, word⟩ := expect_fills wordRun (by simp)
  have aimed := (word.skip (expect_lays openRun (by simp))).skip (reference_fills scriptRun).lays
  have front := (aimed.skip (expect_lays closeRun (by simp))).skip (expect_lays braceRun (by simp))
  exact (front.trans (commandsToBrace_fills commandsRun).lays).node_one

section Units

-- a unit starts in front of its attributes, which are read already
variable {start : Cursor} {attributes : List Attribute}
  (front : start.Lays (attributes.map Attribute.outline) cursor)

include front

/-- A unit opens with its word, its name and a brace, behind which its consts stand. -/
theorem titled_fills {titled named opened : Cursor} {word : Kind}
    {wordSpan nameSpan braceSpan : Span} {what name : String} {values : List ConstDecl}
    (wordRun : expect word cursor = .ok wordSpan titled) (proper : word ≠ .eof)
    (nameRun : identifier what titled = .ok (name, nameSpan) named)
    (openRun : expect (.punct .leftBrace) named = .ok braceSpan opened)
    (constsRun : consts opened = .ok values next) :
    start.Fills (attributes.map Attribute.outline ++ values.map ConstDecl.outline) next := by
  have title := (front.closed (expect_fills wordRun proper).2).skip (identifier_lays nameRun)
  exact (title.skip (expect_lays openRun (by simp))).trans (many_lays constDecl_fills constsRun)

/-- A behaviour is one node from where the caller has begun, which is its first attribute. -/
theorem behaviour_fills {value : Behaviour}
    (run : behaviour attributes start.span cursor = .ok value next) :
    start.Fills [value.outline] next := by
  simp only [behaviour_eq, bind_eq_ok, look_eq_ok, pure_eq_ok, Prod.exists] at run
  obtain ⟨_, _, wordRun, name, _, _, nameRun, _, _, openRun, consts, _, constsRun, initial, _,
    initialRun, first, _, firstRun, others, _, othersRun, _, _, closeRun, _, _, ⟨rfl, rfl⟩, rfl,
    rfl⟩ := run
  have opened := titled_fills front wordRun (by simp) nameRun openRun constsRun
  have states := (state_fills firstRun).lays.trans (many_lays state_fills othersRun)
  have inner := (opened.trans (setup_lays initialRun)).trans states
  exact (inner.skip (expect_lays closeRun (by simp))).node_one

/-- A sequence is one node from where the caller has begun, which is its first attribute. -/
theorem sequence_fills {value : Sequence}
    (run : sequence attributes start.span cursor = .ok value next) :
    start.Fills [value.outline] next := by
  simp only [sequence, bind_eq_ok, look_eq_ok, pure_eq_ok, Prod.exists] at run
  obtain ⟨_, _, wordRun, name, _, _, nameRun, _, _, openRun, consts, _, constsRun, packs, _,
    packsRun, commands, _, commandsRun, _, _, ⟨rfl, rfl⟩, rfl, rfl⟩ := run
  have opened := titled_fills front wordRun (by simp) nameRun openRun constsRun
  have inner := opened.trans (many_lays commandPack_fills packsRun)
  exact (inner.trans (commandsToBrace_fills commandsRun).lays).node_one

omit front in
theorem libraryBehaviour_fills : Fills libraryBehaviour fun value => [value.outline] := by
  intro cursor next value run
  simp only [libraryBehaviour, bind_eq_ok, look_eq_ok] at run
  obtain ⟨_, _, ⟨rfl, rfl⟩, attributes, middle, attributesRun, _, _, ⟨rfl, rfl⟩, run⟩ := run
  split at run
  · simp only [bind_eq_ok, failExpected_ne_ok, false_and, exists_false] at run
  · exact behaviour_fills (attributes_lays attributesRun) run

/-- A library is one node from where the caller has begun, which is its first attribute. -/
theorem library_fills {value : Library}
    (run : library attributes start.span cursor = .ok value next) :
    start.Fills [value.outline] next := by
  simp only [library, bind_eq_ok, look_eq_ok, pure_eq_ok, Prod.exists] at run
  obtain ⟨_, _, wordRun, name, _, _, nameRun, _, _, openRun, consts, _, constsRun, behaviours, _,
    behavioursRun, _, _, closeRun, _, _, ⟨rfl, rfl⟩, rfl, rfl⟩ := run
  have opened := titled_fills front wordRun (by simp) nameRun openRun constsRun
  have inner := opened.trans (many_lays libraryBehaviour_fills behavioursRun)
  exact (inner.skip (expect_lays closeRun (by simp))).node_one

theorem unit_fills {value : Script} (run : unit attributes start.span cursor = .ok value next) :
    start.Fills [value.outline] next := by
  simp only [unit, bind_eq_ok, look_eq_ok] at run
  obtain ⟨kind, _, ⟨-, rfl⟩, run⟩ := run
  split at run
  · obtain ⟨content, contentRun, rfl⟩ := map_eq_ok.mp run
    exact library_fills front contentRun
  · obtain ⟨content, contentRun, rfl⟩ := map_eq_ok.mp run
    exact behaviour_fills front contentRun
  · obtain ⟨content, contentRun, rfl⟩ := map_eq_ok.mp run
    exact sequence_fills front contentRun
  · exact (failExpected_ne_ok.mp run).elim

end Units

/-- A script is one node over all tokens in front of the end mark. -/
theorem script_fills : Fills script fun value => [value.outline] := by
  intro cursor next value run
  simp only [script_eq, bind_eq_ok, look_eq_ok] at run
  obtain ⟨_, _, ⟨rfl, rfl⟩, attributes, _, attributesRun, value, _, unitRun, _, _, ⟨rfl, rfl⟩,
    run⟩ := run
  split at run
  · simp only [bind_eq_ok, failExpected_ne_ok, false_and, exists_false] at run
  · obtain ⟨rfl, rfl⟩ := pure_eq_ok.mp run
    exact unit_fills (attributes_lays attributesRun) unitRun

end Parser

/-! ### Parsed sources -/

/-- The tokens that a script is read from stand in order. -/
theorem words_of_crosses {source : String} {tokens crossed : List Token} {next : Cursor}
    (split : tokenize source = .ok tokens)
    (crosses : (Cursor.ofTokens tokens).Crosses crossed next) :
    Outline.Words tokens crossed := by
  have tiling := tokenize_tiling split
  have part : crossed.Sublist tokens := by
    have whole : tokens = crossed ++ next.rest := crosses.rest
    rw [whole]
    exact List.sublist_append_left ..
  exact {
    ordered := tiling.ordered.sublist part
    proper := fun token member =>
      tiling.proper token (part.subset member) (crosses.proper token member)
    among := fun token member => ⟨part.subset member, crosses.proper token member⟩ }

/-- In the script that is read from a source, every node stands on whole tokens and holds its
children, which stand one behind the other. -/
theorem parse_nested {source : String} {tokens : List Token} {script : Script}
    (split : tokenize source = .ok tokens) (parsed : parse tokens = .ok script) :
    script.outline.Nested tokens := by
  unfold parse at parsed
  split at parsed
  · next value next run =>
    cases parsed
    obtain ⟨crossed, -, crosses, row⟩ := Parser.script_fills run
    exact row.nested (words_of_crosses split crosses) _ List.mem_cons_self
  · cases parsed

/-- Settings and data words are mixed in this source, and a sum has parentheses in it. -/
def packetText : String :=
  "[ControlPacket(5, a = -(1 + 2) - 3, 7)] sequence S \x7b Wait((4) - 6); \x7d"

/-- A piece of that source, which is one line. -/
def packetSpan (start stop : Nat) : Span := ⟨⟨1, start + 1, start⟩, ⟨1, stop + 1, stop⟩⟩

/-- What is read from that source. A node in parentheses stands without them, and the node around
it with them. -/
def packetScript : Script :=
  .sequence {
    attributes := [⟨.controlPacket {
      settings := [⟨"a", .binary .sub
        (.neg (.binary .add (.number 1 (packetSpan 24 25)) (.number 2 (packetSpan 28 29))
          (packetSpan 24 29)) (packetSpan 22 30))
        (.number 3 (packetSpan 33 34)) (packetSpan 22 34), packetSpan 18 34⟩]
      data := [.number 5 (packetSpan 15 16), .number 7 (packetSpan 36 37)] }, packetSpan 0 39⟩]
    name := "S"
    consts := []
    packs := []
    commands := [⟨0, [.binary .sub (.number 4 (packetSpan 59 60)) (.number 6 (packetSpan 64 65))
      (packetSpan 58 65)], packetSpan 53 67⟩]
    span := packetSpan 0 69 }

theorem parse_nested_packet :
    ∃ tokens, tokenize packetText = .ok tokens ∧ parse tokens = .ok packetScript ∧
      packetScript.outline.Nested tokens := by
  have reads : (tokenize packetText).map parse = .ok (.ok packetScript) := by decide +kernel
  cases split : tokenize packetText with
  | error fault =>
    rw [split] at reads
    cases reads
  | ok tokens =>
    rw [split] at reads
    have parsed := Except.ok.inj reads
    exact ⟨tokens, rfl, parsed, parse_nested split parsed⟩

end BehaviourScript
