/-
This file shows that commands, bodies and control packets which were read from a
binary are written as the same bytes again. What was read holds no expressions
but numbers, and these have their values in every scope, also with a minus sign
in front of them as their text has it.
-/

import BehaviourScript.Proofs.Binary.Format
import BehaviourScript.Proofs.Binary.Words
import BehaviourScript.Proofs.Canonical.Emitted
import BehaviourScript.Proofs.Printed.Kinds

namespace BehaviourScript

open Outcome
open Token (numberBound)

/-! ### Numbers -/

namespace Expr

/-- A number that is small enough to be spelled. -/
def IsWord (expr : Expr) : Prop :=
  ∃ value : Int, value.natAbs < numberBound ∧ expr = Decode.number value

/-- A number has its value also as its text reads, with a minus sign of its own. -/
theorem eval_reread_number (env : Env) {value : Int} (small : value.natAbs < numberBound) :
    env.eval (Decode.number value).reread = .ok value := by
  have confined {span : Span} {given : Int} (near : given.natAbs < numberBound) :
      confine span given = .ok given := by
    refine if_pos ?_
    unfold numberBound at near
    rw [isWord64, Bool.and_eq_true, decide_eq_true_eq, decide_eq_true_eq]
    omega
  show env.eval (if value < 0 then neg (number (-value) .dummy) .dummy else number value .dummy) = _
  split
  · rw [Env.eval, Env.eval, confined (by rwa [Int.natAbs_neg])]
    show confine _ (- -value) = _
    rw [Int.neg_neg, confined small]
  · exact confined small

namespace IsWord

variable {expr : Expr} (word : expr.IsWord)

include word

/-- A number of the binary can be spelled. -/
theorem spellable : expr.Spellable := by
  obtain ⟨value, small, rfl⟩ := word
  exact small

theorem nesting_le : expr.nesting ≤ 1 := by
  obtain ⟨value, small, rfl⟩ := word
  show (if value < 0 then 1 else 0) ≤ 1
  split <;> decide

/-- A number of the binary has a value wherever it stands. -/
theorem hasValue (env : Env) : env.HasValue expr.reread := by
  obtain ⟨value, small, rfl⟩ := word
  exact ⟨value, eval_reread_number env small⟩

end IsWord

end Expr

/-- No quantity of the binary is as large as the bound of numbers in a text. -/
theorem Quantity.natAbs_lt (quantity : Quantity) {value : Int}
    (fits : quantity.holds value = true) : value.natAbs < numberBound := by
  have low : -2 ^ 31 ≤ quantity.min := by cases quantity <;> simp only [min] <;> decide
  have high : quantity.max < 2 ^ 32 := by cases quantity <;> simp only [max] <;> decide
  have bounds := holds_iff.mp fits
  unfold numberBound
  omega

/-- A number that is in range is measured as itself. -/
theorem Quantity.measure_reread (quantity : Quantity) {value : Int}
    (fits : quantity.holds value = true) (env : Env) :
    quantity.measure env (Decode.number value).reread = .ok value :=
  measure_eq_ok.mpr ⟨Expr.eval_reread_number env (quantity.natAbs_lt fits), fits⟩

theorem Quantity.isWord (quantity : Quantity) {value : Int}
    (fits : quantity.holds value = true) : (Decode.number value).IsWord :=
  ⟨value, quantity.natAbs_lt fits, rfl⟩

theorem Quantity.mapM_measure_reread (quantity : Quantity) {values : List Int}
    (fits : ∀ value ∈ values, quantity.holds value = true) (env : Env) :
    ((values.map Decode.number).map Expr.reread).mapM (quantity.measure env) = .ok values := by
  induction values with
  | nil => rfl
  | cons value rest inductionHypothesis =>
    rw [List.forall_mem_cons] at fits
    rw [List.map_cons, List.map_cons, List.mapM_cons, quantity.measure_reread fits.1,
      inductionHypothesis fits.2]
    rfl

/-- A count that is within the range of its quantity. -/
theorem Quantity.fit_count {quantity : Quantity} {count : Nat} (natural : quantity.min = 0)
    (small : (count : Int) ≤ quantity.max) : quantity.fit count = .ok (count : Int) :=
  fit_eq_ok.mpr ⟨holds_iff.mpr ⟨natural ▸ Int.natCast_nonneg _, small⟩, rfl⟩

namespace Restored

variable {env : Env} {bytes : Bytes}

/-! ### Commands and bodies -/

/-- A command is written as it was read. -/
theorem command_encoded {content : Command} {hasNext : Bool}
    (formatted : Format.command bytes (content, hasNext)) :
    Encode.command env hasNext (content.mapExpr Expr.reread) = .ok bytes := by
  cases formatted with
  | @intro id args _ few fits =>
    unfold Encode.command
    simp only [bind_eq_ok, pure_eq_ok]
    refine ⟨args.length, ?_, args, ?_, rfl⟩
    · rw [Command.mapExpr, List.length_map, List.length_map]
      exact Quantity.fit_count rfl (Int.ofNat_le.mpr few)
    · exact (Quantity.argument id).mapM_measure_reread fits env

theorem command_words {content : Command} {hasNext : Bool}
    (formatted : Format.command bytes (content, hasNext)) : ∀ arg ∈ content.args, arg.IsWord := by
  cases formatted with
  | intro _ fits =>
    intro arg member
    obtain ⟨value, given, rfl⟩ := List.mem_map.mp member
    exact Quantity.dataWord.isWord (fits value given)

/-- A row of commands is written as it was read, with the flags that another follows. -/
theorem row_encoded {row : List Command} (formatted : Format.row bytes row) :
    Encode.commands env (row.map (Command.mapExpr Expr.reread)) = .ok bytes := by
  unfold Format.row at formatted
  generalize 0 = index at formatted
  induction formatted with
  | nil => rfl
  | cons first _ inductionHypothesis =>
    rw [List.map_cons, Encode.commands, List.isEmpty_map, command_encoded first,
      inductionHypothesis]
    rfl

theorem row_words {row : List Command} (formatted : Format.row bytes row) :
    ∀ command ∈ row, ∀ arg ∈ command.args, arg.IsWord := by
  unfold Format.row at formatted
  generalize 0 = index at formatted
  induction formatted with
  | nil => exact nofun
  | cons first _ inductionHypothesis =>
    exact List.forall_mem_cons.mpr ⟨command_words first, inductionHypothesis⟩

theorem commands_checked {row : List Command}
    (words : ∀ command ∈ row, ∀ arg ∈ command.args, arg.IsWord) :
    ∀ command ∈ row.map (Command.mapExpr Expr.reread), ∀ arg ∈ command.args, env.HasValue arg := by
  intro command member arg inArgs
  obtain ⟨original, given, rfl⟩ := List.mem_map.mp member
  obtain ⟨expr, inOriginal, rfl⟩ := List.mem_map.mp inArgs
  exact (words original given expr inOriginal).hasValue env

theorem commandPack_encoded {row : List Command} (formatted : Format.commandPack bytes row) :
    Encode.commandPack env (row.map (Command.mapExpr Expr.reread)) = .ok bytes := by
  cases formatted with
  | intro formatted =>
    rw [Encode.commandPack, row_encoded formatted, List.isEmpty_map]
    rfl

theorem commandPack_words {row : List Command} (formatted : Format.commandPack bytes row) :
    ∀ command ∈ row, ∀ arg ∈ command.args, arg.IsWord := by
  cases formatted with
  | intro formatted => exact row_words formatted

/-- A condition is written as it was read. A parameter that is left out is zero. -/
theorem condition_encoded {test : Condition} (formatted : Format.condition bytes test) :
    Encode.condition env (test.mapExpr Expr.reread) = .ok bytes := by
  cases formatted with
  | @intro id negate given fits =>
    rw [Encode.condition_eq, bind_eq_ok]
    refine ⟨given, ?_, rfl⟩
    unfold Encode.parameter Condition.mapExpr
    by_cases zero : given = 0
    · rw [if_pos zero, zero]
      rfl
    · rw [if_neg zero]
      exact (Quantity.conditionParameter id).measure_reread fits env

theorem condition_words {test : Condition} (formatted : Format.condition bytes test) :
    ∀ parameter ∈ test.parameter, parameter.IsWord := by
  cases formatted with
  | @intro id negate given fits =>
    intro parameter member
    rw [Option.mem_def, Option.ite_none_left_eq_some] at member
    cases member.2
    exact Quantity.dataWord.isWord fits

/-- A part that may be missing is written as it was read. -/
theorem optional_encoded {α : Type} {format : Format α} {part : Option α}
    (formatted : format.Optional bytes part) {write : α → Outcome Bytes} {image : α → α}
    (each : ∀ {bytes value}, format bytes value → write (image value) = .ok bytes) :
    Encode.optional write (part.map image) = .ok bytes := by
  cases formatted with
  | absent => rfl
  | present formatted => exact each formatted

theorem optional_forall {α : Type} {format : Format α} {part : Option α}
    (formatted : format.Optional bytes part) : ∀ value ∈ part, ∃ bytes, format bytes value := by
  cases formatted with
  | absent => exact nofun
  | present formatted =>
    rintro value ⟨⟩
    exact ⟨_, formatted⟩

/-- A row is written as it was read if each of its items is. -/
theorem rows_encoded {α β : Type} {format : Format α} {values : List α}
    (rows : format.Rows bytes values) {write : β → Outcome Bytes} {image : α → β}
    (each : ∀ value ∈ values, ∀ {bytes}, format bytes value → write (image value) = .ok bytes) :
    ∃ parts, (values.map image).mapM write = .ok parts ∧ parts.flatten = bytes := by
  induction rows with
  | nil => exact ⟨[], rfl, rfl⟩
  | @cons front behind value values formatted _ inductionHypothesis =>
    rw [List.forall_mem_cons] at each
    obtain ⟨parts, others, rfl⟩ := inductionHypothesis each.2
    refine ⟨front :: parts, ?_, rfl⟩
    rw [List.map_cons]
    exact mapM_eq_ok.mpr (.cons (each.1 formatted) (mapM_eq_ok.mp others))

theorem rows_forall {α : Type} {format : Format α} {values : List α}
    (rows : format.Rows bytes values) : ∀ value ∈ values, ∃ bytes, format bytes value := by
  induction rows with
  | nil => exact nofun
  | cons formatted _ inductionHypothesis =>
    exact List.forall_mem_cons.mpr ⟨⟨_, formatted⟩, inductionHypothesis⟩

section Body

variable {content : StateBody} {target : Option Nat}
  (formatted : Format.body bytes (content, target))

include formatted

/-- A body is written as it was read, if the state that it jumps to is found at its place. -/
theorem body_encoded {states : List State} (placed : ∀ index ∈ target, ∀ position,
      Encode.stateIndex states (Decode.stateName index) position = .ok index) :
    Encode.body env states (content.mapExpr Expr.reread) = .ok bytes := by
  cases formatted with
  | @intro _ test commands testBytes rowBytes near tested row =>
    rw [Encode.body_eq]
    simp only [bind_eq_ok, pure_eq_ok]
    refine ⟨Format.jumpWord target, ?_, testBytes, optional_encoded tested condition_encoded,
      rowBytes, row_encoded row, ?_⟩
    · unfold Encode.jump StateBody.mapExpr
      cases target with
      | none => rfl
      | some index =>
        show Int.ofNat <$> Encode.stateIndex states (Decode.stateName index) _ = _
        rw [placed index rfl]
        rfl
    · unfold StateBody.mapExpr
      rw [Option.isSome_map, List.isEmpty_map]

theorem body_words :
    (∀ test ∈ content.condition, ∀ parameter ∈ test.parameter, parameter.IsWord) ∧
      ∀ command ∈ content.commands, ∀ arg ∈ command.args, arg.IsWord := by
  cases formatted with
  | intro near tested row =>
    refine ⟨fun test given => ?_, row_words row⟩
    obtain ⟨_, formatted⟩ := optional_forall tested test given
    exact condition_words formatted

theorem body_exprs : ∀ expr ∈ content.exprs, expr.IsWord := by
  obtain ⟨tests, commands⟩ := body_words formatted
  refine List.forall_mem_append.mpr ⟨?_, ?_⟩
  · intro expr member
    obtain ⟨test, given, inTest⟩ := List.mem_flatMap.mp member
    exact tests test (Option.mem_toList.mp given) expr (Option.mem_toList.mp inTest)
  · intro expr member
    obtain ⟨command, given, inArgs⟩ := List.mem_flatMap.mp member
    exact commands command given expr inArgs

/-- A body that was read can be spelled. -/
theorem body_spellable : content.Spellable := by
  obtain ⟨tests, commands⟩ := body_words formatted
  refine ⟨fun test given parameter inTest => (tests test given parameter inTest).spellable,
    fun command given arg inArgs => (commands command given arg inArgs).spellable, ?_⟩
  cases formatted with
  | intro =>
    intro name jumped
    obtain ⟨index, _, rfl⟩ := Option.map_eq_some_iff.mp jumped
    exact Decode.isIdentifier_stateName index

/-- A body that was read passes the checks, if the state that it jumps to exists. -/
theorem body_checked {names : List String} (known : ∀ index ∈ target, Decode.stateName index ∈ names) :
    env.checkBody names (content.mapExpr Expr.reread) = .ok () := by
  obtain ⟨tests, commands⟩ := body_words formatted
  refine Env.checkBody_eq_ok.mpr ⟨?_, commands_checked commands, ?_⟩
  · intro test given parameter inTest
    obtain ⟨original, present, rfl⟩ := Option.map_eq_some_iff.mp given
    obtain ⟨expr, inOriginal, rfl⟩ := Option.map_eq_some_iff.mp inTest
    exact (tests original present expr inOriginal).hasValue env
  · cases formatted with
    | intro =>
      intro name jumped
      obtain ⟨index, given, rfl⟩ := Option.map_eq_some_iff.mp jumped
      exact known index given

end Body

end Restored

end BehaviourScript
