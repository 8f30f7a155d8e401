/-
This file shows that the readers of expressions read the expressions of the
grammar, and those of the small phrases made of them. The nesting that a cursor
counts and the levels that the grammar leaves always add up to the limit; the
readers recurse on the levels, and so do the proofs.
-/

import BehaviourScript.Proofs.Reading

namespace BehaviourScript

open Token

/-! ### Nesting -/

namespace Cursor

/-- The same place at another nesting. -/
def atDepth (cursor : Cursor) (depth : Nat) : Cursor := { cursor with depth := depth }

@[simp] theorem depth_atDepth (cursor : Cursor) (depth : Nat) :
    (cursor.atDepth depth).depth = depth := rfl

@[simp] theorem kinds_atDepth (cursor : Cursor) (depth : Nat) :
    (cursor.atDepth depth).kinds = cursor.kinds := rfl

/-- What is passed at another nesting is passed, once the nesting is set back. -/
theorem Passes.atDepth {cursor next : Cursor} {passed : List Kind} {depth : Nat}
    (passes : (cursor.atDepth depth).Passes passed next) :
    cursor.Passes passed (next.atDepth cursor.depth) :=
  ⟨passes.kinds, passes.proper, rfl⟩

end Cursor

namespace Parser

variable {cursor next : Cursor} {room : Nat}

/-- A level of nesting is entered if one is left. -/
theorem enter_eq_ok {value : Unit} :
    enter cursor = .ok value next ↔
      cursor.depth < nestingLimit ∧ cursor.atDepth (cursor.depth + 1) = next := by
  unfold enter
  split
  · next free =>
    rw [EStateM.Result.ok.injEq]
    exact ⟨fun same => ⟨free, same.2⟩, fun same => ⟨rfl, same.2⟩⟩
  · next full => exact iff_of_false nofun (fun free => full free.1)

theorem leave_eq_ok {value : Unit} :
    leave cursor = .ok value next ↔ cursor.atDepth (cursor.depth - 1) = next := by
  rw [leave, EStateM.Result.ok.injEq]
  exact and_iff_right rfl

theorem resetDepth_eq_ok {depth : Nat} {value : Unit} :
    resetDepth depth cursor = .ok value next ↔ cursor.atDepth depth = next := by
  rw [resetDepth, EStateM.Result.ok.injEq]
  exact and_iff_right rfl

/-- A level that is taken is one of those that are left. -/
theorem exists_deeper (deep : cursor.depth + room = nestingLimit)
    (free : cursor.depth < nestingLimit) :
    ∃ deeper, room = deeper + 1 ∧ cursor.depth + 1 + deeper = nestingLimit :=
  ⟨room - 1, by omega, by omega⟩

/-! ### Expressions -/

/-- An operator of a sum is one mark. -/
theorem binOp?_eq_some {kind : Kind} {op : BinOp} :
    binOp? kind = some op ↔ kind = .punct op.mark := by
  unfold binOp?
  split
  · cases op <;> decide
  · cases op <;> decide
  · next notPlus notMinus =>
    refine iff_of_false nofun ?_
    rintro rfl
    cases op
    · exact notPlus rfl
    · exact notMinus rfl

/-- A kind that does not go on with a sum. -/
def endsSum (kind : Kind) : Prop := binOp? kind = none

/-- The readers for what is one level further in, if a level is left. -/
def ReadsInner (room : Nat) (negated inner : Parser Expr) : Prop :=
  ∀ {deeper : Nat}, room = deeper + 1 →
    Reads deeper negated Expr.erase (Grammar.operand deeper) anything ∧
      Reads deeper inner Expr.erase (Grammar.expr deeper) endsSum

/-- An operand that is read is one of the grammar, if what is read one level further in is. -/
theorem operandOver_sound {negated inner : Parser Expr} (reads : ReadsInner room negated inner) :
    Sound room (fun _ => True) (operandOver negated inner) Expr.erase
      (Grammar.operand room) := by
  intro cursor next value _ deep run
  simp only [operandOver, bind_eq_ok, look_eq_ok] at run
  obtain ⟨start, _, ⟨-, rfl⟩, kind, _, ⟨head, rfl⟩, run⟩ := run
  rw [Cursor.kind_eq] at head
  split at run
  · simp only [bind_eq_ok, advance_eq_ok, pure_eq_ok] at run
    obtain ⟨_, _, rfl, rfl, rfl⟩ := run
    exact ⟨_, Cursor.passes_advance head nofun, .number⟩
  · simp only [bind_eq_ok, advance_eq_ok, pure_eq_ok] at run
    obtain ⟨_, _, rfl, rfl, rfl⟩ := run
    exact ⟨_, Cursor.passes_advance head nofun, .const⟩
  · split at run
    · simp only [bind_eq_ok, enter_eq_ok, advance_eq_ok, leave_eq_ok, look_eq_ok, pure_eq_ok] at run
      obtain ⟨_, _, ⟨free, rfl⟩, _, _, rfl, operand, middle, operandRun, _, _, rfl, _, _,
        ⟨-, rfl⟩, rfl, rfl⟩ := run
      obtain ⟨deeper, rfl, innerDeep⟩ := exists_deeper deep free
      have inside : headKind (cursor.atDepth (cursor.depth + 1)).kinds = _ := head
      have mark := Cursor.passes_advance inside nofun
      obtain ⟨passed, passes, spelled⟩ :=
        (reads rfl).1.sound trivial (mark.deep innerDeep) operandRun
      have whole := mark.trans passes
      rw [whole.depth, Cursor.depth_atDepth, Nat.add_sub_cancel]
      exact ⟨_, whole.atDepth, .neg spelled⟩
    · simp only [bind_eq_ok, enter_eq_ok, advance_eq_ok, leave_eq_ok, pure_eq_ok] at run
      obtain ⟨_, _, ⟨free, rfl⟩, _, _, rfl, operand, middle, operandRun, _, _, close, _, _, rfl,
        rfl, rfl⟩ := run
      obtain ⟨deeper, rfl, innerDeep⟩ := exists_deeper deep free
      have inside : headKind (cursor.atDepth (cursor.depth + 1)).kinds = _ := head
      have mark := Cursor.passes_advance inside nofun
      obtain ⟨passed, passes, spelled⟩ :=
        (reads rfl).2.sound trivial (mark.deep innerDeep) operandRun
      have whole := mark.trans (passes.trans (expect_sound close nofun))
      rw [whole.depth, Cursor.depth_atDepth, Nat.add_sub_cancel]
      exact ⟨_, whole.atDepth, .parens spelled⟩
    · exact (failExpected_ne_ok.mp run).elim
  · exact (failExpected_ne_ok.mp run).elim

/-- Every operand of the grammar is read. Each of its forms is known by its first kind. -/
theorem operandOver_complete {negated inner : Parser Expr}
    (reads : ReadsInner room negated inner) :
    Complete room (operandOver negated inner) Expr.erase (Grammar.operand room) anything := by
  intro cursor passed rest value deep spelled start _
  cases spelled with
  | @number _ value =>
    have head : cursor.kind = .number value := by rw [Cursor.kind_eq, start]; rfl
    refine ⟨.number value.toInt cursor.span, cursor.advance, ?_, rfl,
      Cursor.passes_advance (cursor.kind_eq.symm.trans head) fun same => by cases same⟩
    simp only [operandOver, bind_eq_ok, look_eq_ok]
    exact ⟨_, _, ⟨rfl, rfl⟩, _, _, ⟨head, rfl⟩, rfl⟩
  | @const _ name =>
    have head : cursor.kind = .identifier name := by rw [Cursor.kind_eq, start]; rfl
    refine ⟨.const name cursor.span, cursor.advance, ?_, rfl,
      Cursor.passes_advance (cursor.kind_eq.symm.trans head) fun same => by cases same⟩
    simp only [operandOver, bind_eq_ok, look_eq_ok]
    exact ⟨_, _, ⟨rfl, rfl⟩, _, _, ⟨head, rfl⟩, rfl⟩
  | @neg deeper kinds value spelled =>
    have head : cursor.kind = .punct .minus := by rw [Cursor.kind_eq, start]; rfl
    have inside : headKind (cursor.atDepth (cursor.depth + 1)).kinds = _ :=
      cursor.kind_eq.symm.trans head
    have mark := Cursor.passes_advance inside fun same => by cases same
    obtain ⟨result, middle, operandRun, same, passes⟩ :=
      (reads rfl).1.complete (by rw [mark.depth, Cursor.depth_atDepth]; omega) spelled
        (mark.rest start) trivial
    have whole := mark.trans passes
    refine ⟨.neg result ((middle.atDepth cursor.depth).spanFrom cursor.span), _, ?_,
      by rw [Expr.erase, same], whole.atDepth⟩
    have back : middle.depth - 1 = cursor.depth := by
      rw [whole.depth, Cursor.depth_atDepth, Nat.add_sub_cancel]
    simp only [operandOver, bind_eq_ok, look_eq_ok]
    refine ⟨_, _, ⟨rfl, rfl⟩, _, _, ⟨head, rfl⟩, ?_⟩
    simp only [bind_eq_ok, enter_eq_ok, advance_eq_ok, leave_eq_ok, look_eq_ok, pure_eq_ok]
    exact ⟨(), _, ⟨by omega, rfl⟩, (), _, rfl, _, _, operandRun, (), _, rfl, _, _,
      ⟨rfl, rfl⟩, by rw [back], by rw [back]⟩
  | @parens deeper kinds value spelled =>
    have head : cursor.kind = .punct .leftParen := by rw [Cursor.kind_eq, start]; rfl
    have inside : headKind (cursor.atDepth (cursor.depth + 1)).kinds = _ :=
      cursor.kind_eq.symm.trans head
    have mark := Cursor.passes_advance inside fun same => by cases same
    have behind : (cursor.atDepth (cursor.depth + 1)).advance.kinds =
        kinds ++ .punct .rightParen :: rest :=
      (mark.rest start).trans (List.append_assoc kinds _ rest)
    obtain ⟨result, middle, innerRun, same, passes⟩ :=
      (reads rfl).2.complete (by rw [mark.depth, Cursor.depth_atDepth]; omega) spelled behind rfl
    obtain ⟨_, stop, close, closePasses⟩ :=
      expect_complete (passes.rest behind) fun same => by cases same
    have whole := mark.trans (passes.trans closePasses)
    refine ⟨result, _, ?_, same, whole.atDepth⟩
    have back : stop.depth - 1 = cursor.depth := by
      rw [whole.depth, Cursor.depth_atDepth, Nat.add_sub_cancel]
    simp only [operandOver, bind_eq_ok, look_eq_ok]
    refine ⟨_, _, ⟨rfl, rfl⟩, _, _, ⟨head, rfl⟩, ?_⟩
    simp only [bind_eq_ok, enter_eq_ok, advance_eq_ok, leave_eq_ok, pure_eq_ok]
    exact ⟨(), _, ⟨by omega, rfl⟩, (), _, rfl, _, _, innerRun, _, _, close, (), _, rfl, rfl,
      by rw [back]⟩

/-- The readers for the further operands of a sum, which leave the cursor as deep
as the sum is long. -/
structure ReadsChain (room : Nat) (chain : Span → Expr → Parser Expr) : Prop where
  sound {start : Span} {left value : Expr} {cursor next : Cursor} :
    cursor.depth + room = nestingLimit → chain start left cursor = .ok value next →
    ∃ passed, cursor.Passes passed (next.atDepth cursor.depth) ∧
      Grammar.chain room left.erase passed value.erase
  complete (start : Span) (left : Expr) {value : Expr} {cursor : Cursor}
      {passed rest : List Kind} :
    cursor.depth + room = nestingLimit → Grammar.chain room left.erase passed value →
    cursor.kinds = passed ++ rest → endsSum (headKind rest) →
    ∃ result next, chain start left cursor = .ok result next ∧ result.erase = value ∧
      cursor.Passes passed (next.atDepth cursor.depth)

/-- A whole sum is read if its first operand and the further ones are. -/
theorem exprOver_reads {operand : Parser Expr} {chain : Span → Expr → Parser Expr}
    (first : Reads room operand Expr.erase (Grammar.operand room) anything)
    (others : ReadsChain room chain) :
    Reads room (exprOver operand chain) Expr.erase (Grammar.expr room) endsSum where
  sound := by
    intro cursor next value _ deep run
    simp only [exprOver, bind_eq_ok, look_eq_ok, resetDepth_eq_ok, pure_eq_ok] at run
    obtain ⟨_, _, ⟨-, rfl⟩, _, _, ⟨rfl, rfl⟩, left, middle, firstRun, _, stop, othersRun, _, _,
      rfl, rfl, rfl⟩ := run
    obtain ⟨passed, passes, spelled⟩ := first.sound trivial deep firstRun
    obtain ⟨behind, behindPasses, behindSpelled⟩ :=
      others.sound (passes.deep deep) othersRun
    rw [passes.depth] at behindPasses
    exact ⟨_, passes.trans behindPasses, .intro spelled behindSpelled⟩
  complete := by
    intro cursor passed rest value deep spelled start stops
    cases spelled with
    | @intro _ kinds behind left _ spelled behindSpelled =>
      rw [List.append_assoc] at start
      obtain ⟨result, middle, firstRun, rfl, passes⟩ :=
        first.complete deep spelled start trivial
      obtain ⟨whole, stop, othersRun, same, behindPasses⟩ :=
        others.complete _ _ (passes.deep deep) behindSpelled (passes.rest start) stops
      rw [passes.depth] at behindPasses
      refine ⟨whole, stop.atDepth cursor.depth, ?_, same, passes.trans behindPasses⟩
      simp only [exprOver, bind_eq_ok, look_eq_ok, resetDepth_eq_ok, pure_eq_ok]
      exact ⟨_, _, ⟨rfl, rfl⟩, _, _, ⟨rfl, rfl⟩, _, _, firstRun, _, _, othersRun, (), _, rfl,
        rfl, rfl⟩

/-- Without a level left a sum ends with its first operand. -/
theorem chainWithin_zero : ReadsChain 0 (chainWithin 0) where
  sound := by
    intro start left value cursor next deep run
    simp only [chainWithin, bind_eq_ok, look_eq_ok] at run
    obtain ⟨_, _, ⟨rfl, rfl⟩, run⟩ := run
    cases found : binOp? cursor.kind with
    | none =>
      rw [found] at run
      obtain ⟨rfl, rfl⟩ := pure_eq_ok.mp run
      exact ⟨[], .refl cursor, .done⟩
    | some op =>
      rw [found] at run
      exact (fail_ne_ok.mp run).elim
  complete := by
    intro start left value cursor passed rest deep spelled startKinds stops
    cases spelled with
    | done =>
      refine ⟨left, cursor, ?_, rfl, .refl cursor⟩
      simp only [chainWithin, bind_eq_ok, look_eq_ok]
      refine ⟨_, _, ⟨rfl, rfl⟩, ?_⟩
      rw [Cursor.kind_eq, startKinds, List.nil_append, stops]
      rfl

/-- One level more is one more operand that a sum may have. The step of the recursion: the operand
behind an operator is read with the levels that are left, and so is the rest of the sum, with the
sum so far as its left side. -/
theorem chainWithin_succ
    (operand : Reads room (operandWithin room) Expr.erase (Grammar.operand room) anything)
    (others : ReadsChain room (chainWithin room)) :
    ReadsChain (room + 1) (chainWithin (room + 1)) where
  sound := by
    intro start left value cursor next deep run
    simp only [chainWithin, bind_eq_ok, look_eq_ok] at run
    obtain ⟨_, _, ⟨rfl, rfl⟩, run⟩ := run
    cases found : binOp? cursor.kind with
    | none =>
      rw [found] at run
      obtain ⟨rfl, rfl⟩ := pure_eq_ok.mp run
      exact ⟨[], .refl cursor, .done⟩
    | some op =>
      rw [found] at run
      rw [binOp?_eq_some, Cursor.kind_eq] at found
      simp only [bind_eq_ok, enter_eq_ok, advance_eq_ok, look_eq_ok] at run
      obtain ⟨_, _, ⟨-, rfl⟩, _, _, rfl, right, middle, operandRun, span, _, ⟨-, rfl⟩, run⟩ := run
      have inside : headKind (cursor.atDepth (cursor.depth + 1)).kinds = _ := found
      have mark := Cursor.passes_advance inside nofun
      obtain ⟨passed, passes, spelled⟩ :=
        operand.sound trivial (by rw [mark.depth, Cursor.depth_atDepth]; omega) operandRun
      obtain ⟨behind, behindPasses, behindSpelled⟩ :=
        others.sound (by rw [(mark.trans passes).depth, Cursor.depth_atDepth]; omega) run
      exact ⟨.punct op.mark :: (passed ++ behind),
        (mark.trans (passes.trans behindPasses)).atDepth, .more spelled behindSpelled⟩
  complete := by
    intro start left value cursor passed rest deep spelled startKinds stops
    cases spelled with
    | done =>
      refine ⟨left, cursor, ?_, rfl, .refl cursor⟩
      simp only [chainWithin, bind_eq_ok, look_eq_ok]
      refine ⟨_, _, ⟨rfl, rfl⟩, ?_⟩
      rw [Cursor.kind_eq, startKinds, List.nil_append, stops]
      rfl
    | @more _ op _ right _ kinds behind spelled behindSpelled =>
      have found : binOp? cursor.kind = some op := by
        rw [binOp?_eq_some, Cursor.kind_eq, startKinds]
        rfl
      have inside : headKind (cursor.atDepth (cursor.depth + 1)).kinds = .punct op.mark := by
        rw [Cursor.kinds_atDepth, startKinds]
        rfl
      have mark := Cursor.passes_advance inside nofun
      have front : (cursor.atDepth (cursor.depth + 1)).advance.kinds =
          kinds ++ (behind ++ rest) :=
        (mark.rest startKinds).trans (List.append_assoc kinds behind rest)
      obtain ⟨operandResult, middle, operandRun, rfl, passes⟩ :=
        operand.complete (by rw [mark.depth, Cursor.depth_atDepth]; omega) spelled front trivial
      obtain ⟨result, next, othersRun, same, behindPasses⟩ :=
        others.complete start (.binary op left operandResult (middle.spanFrom start))
          (by rw [(mark.trans passes).depth, Cursor.depth_atDepth]; omega)
          behindSpelled (passes.rest front) stops
      refine ⟨result, next, ?_, same, (mark.trans (passes.trans behindPasses)).atDepth⟩
      simp only [chainWithin, bind_eq_ok, look_eq_ok]
      refine ⟨_, _, ⟨rfl, rfl⟩, ?_⟩
      rw [found]
      simp only [bind_eq_ok, enter_eq_ok, advance_eq_ok, look_eq_ok]
      exact ⟨(), _, ⟨by omega, rfl⟩, (), _, rfl, _, _, operandRun, _, _, ⟨rfl, rfl⟩, othersRun⟩

/-- The readers of expressions read the operands and sums that fit into the
levels left. -/
theorem within_reads (room : Nat) :
    Reads room (operandWithin room) Expr.erase (Grammar.operand room) anything ∧
      ReadsChain room (chainWithin room) := by
  induction room with
  | zero =>
    have reads : ReadsInner 0 tooDeep tooDeep := nofun
    exact ⟨⟨operandOver_sound reads, operandOver_complete reads⟩, chainWithin_zero⟩
  | succ room inductionHypothesis =>
    obtain ⟨operand, others⟩ := inductionHypothesis
    have reads : ReadsInner (room + 1) (operandWithin room)
        (exprOver (operandWithin room) (chainWithin room)) := by
      rintro _ ⟨⟩
      exact ⟨operand, exprOver_reads operand others⟩
    exact ⟨⟨operandOver_sound reads, operandOver_complete reads⟩, chainWithin_succ operand others⟩

/-- An expression is read exactly as the grammar has it, with the levels that the cursor has
left. -/
theorem expr_reads (room : Nat) :
    Reads room expr Expr.erase (Grammar.expr room) endsSum := by
  obtain ⟨operand, others⟩ := within_reads room
  have whole := exprOver_reads operand others
  have same {cursor : Cursor} (deep : cursor.depth + room = nestingLimit) :
      expr cursor = exprOver (operandWithin room) (chainWithin room) cursor := by
    have free : nestingLimit - cursor.depth = room := by omega
    show exprOver (operandWithin (nestingLimit - cursor.depth))
      (chainWithin (nestingLimit - cursor.depth)) cursor = _
    rw [free]
  constructor
  · intro cursor next value _ deep run
    exact whole.sound trivial deep ((same deep).symm.trans run)
  · intro cursor passed rest value deep spelled start stops
    rw [same deep]
    exact whole.complete deep spelled start stops

/-- No expression begins with what closes a list, so a list is empty or begins with one. -/
theorem expr_startsWith (room : Nat) :
    StartsWith (Grammar.expr room) (· != .punct .rightParen) := by
  rintro kinds value ⟨spelled, _⟩
  cases spelled <;> exact ⟨List.cons_ne_nil _ _, rfl⟩

/-- A minus sign is passed if a number stands behind it. -/
theorem negative?_sound {found : Option Int64} (run : negative? cursor = .ok found next) :
    (∃ value, found = some (-value) ∧ next = cursor.advance ∧ cursor.kind = .punct .minus ∧
        cursor.advance.kind = .number value) ∨
      found = none ∧ next = cursor := by
  unfold negative? at run
  split at run
  · next there =>
    split at run
    · next value behind =>
      cases run
      exact .inl ⟨value, rfl, rfl, eq_of_beq there, behind⟩
    · cases run
  · cases run
    exact .inr ⟨rfl, rfl⟩

theorem negative?_complete {value : Int64} {rest : List Kind}
    (start : cursor.kinds = .punct .minus :: .number value :: rest) :
    ∃ next, negative? cursor = .ok (some (-value)) next ∧ cursor.Passes [.punct .minus] next := by
  have head : headKind cursor.kinds = .punct .minus := by rw [start]; rfl
  have passes := Cursor.passes_advance head nofun
  have behind : cursor.advance.kind = .number value := by
    rw [Cursor.kind_eq, passes.rest start]
    rfl
  refine ⟨cursor.advance, ?_, passes⟩
  rw [negative?, if_pos (Cursor.isAt_iff.mpr head), behind]

theorem negative?_other (other : headKind cursor.kinds ≠ .punct .minus) :
    negative? cursor = .ok none cursor :=
  if_neg fun there => other (Cursor.isAt_iff.mp there)

/-- A reference is read as the grammar has it: a name, a number or a negative one. -/
theorem reference_reads (room : Nat) :
    Reads room reference id Grammar.reference anything where
  sound := by
    intro cursor next value _ deep run
    rw [reference, bind_eq_ok] at run
    obtain ⟨found, middle, taken, run⟩ := run
    rcases negative?_sound taken with ⟨value, rfl, rfl, minus, behind⟩ | ⟨rfl, rfl⟩
    · rw [Cursor.kind_eq] at minus behind
      have passes := Cursor.passes_advance minus nofun
      simp only [bind_eq_ok, advance_eq_ok, pure_eq_ok] at run
      obtain ⟨_, _, rfl, rfl, rfl⟩ := run
      exact ⟨_, passes.trans (Cursor.passes_advance behind nofun), .negative⟩
    · simp only [bind_eq_ok, look_eq_ok] at run
      obtain ⟨kind, _, ⟨head, rfl⟩, run⟩ := run
      rw [Cursor.kind_eq] at head
      split at run
      · simp only [bind_eq_ok, advance_eq_ok, pure_eq_ok] at run
        obtain ⟨_, _, rfl, rfl, rfl⟩ := run
        exact ⟨_, Cursor.passes_advance head nofun, .number⟩
      · simp only [bind_eq_ok, advance_eq_ok, pure_eq_ok] at run
        obtain ⟨_, _, rfl, rfl, rfl⟩ := run
        exact ⟨_, Cursor.passes_advance head nofun, .name⟩
      · exact (failExpected_ne_ok.mp run).elim
  complete := by
    intro cursor passed rest value deep spelled start _
    cases spelled with
    | @number value =>
      have head : headKind cursor.kinds = .number value := by rw [start]; rfl
      refine ⟨.literal value.toInt, cursor.advance, ?_, rfl, Cursor.passes_advance head nofun⟩
      rw [reference, bind_eq_ok]
      refine ⟨_, _, negative?_other (by rw [head]; exact nofun), ?_⟩
      simp only [bind_eq_ok, look_eq_ok]
      exact ⟨_, _, ⟨cursor.kind_eq.trans head, rfl⟩, rfl⟩
    | @negative value =>
      obtain ⟨middle, taken, passes⟩ := negative?_complete start
      have head : headKind middle.kinds = .number value := by rw [passes.rest start]; rfl
      refine ⟨.literal (-value).toInt, middle.advance, ?_, rfl,
        passes.trans (Cursor.passes_advance head nofun)⟩
      rw [reference, bind_eq_ok]
      exact ⟨_, _, taken, rfl⟩
    | @name name =>
      have head : headKind cursor.kinds = .identifier name := by rw [start]; rfl
      refine ⟨.symbol name, cursor.advance, ?_, rfl, Cursor.passes_advance head nofun⟩
      rw [reference, bind_eq_ok]
      refine ⟨_, _, negative?_other (by rw [head]; exact nofun), ?_⟩
      simp only [bind_eq_ok, look_eq_ok]
      exact ⟨_, _, ⟨cursor.kind_eq.trans head, rfl⟩, rfl⟩

theorem reference_startsWith : StartsWith Grammar.reference (· != .punct .rightParen) := by
  intro kinds value spelled
  cases spelled <;> exact ⟨List.cons_ne_nil _ _, rfl⟩

/-- A named value is a name, an equals sign and an expression. -/
theorem assign_reads (room : Nat) :
    Reads room assign (Assign.mapExpr Expr.erase) (Grammar.assign room) endsSum where
  sound := by
    intro cursor next value _ deep run
    simp only [assign, bind_eq_ok, look_eq_ok, pure_eq_ok, Prod.exists] at run
    obtain ⟨name, _, _, nameRun, _, _, equalsRun, value, _, valueRun, _, _, ⟨-, rfl⟩, rfl, rfl⟩ :=
      run
    have front := (identifier_sound nameRun).trans (expect_sound equalsRun nofun)
    obtain ⟨passed, passes, spelled⟩ := (expr_reads room).sound trivial (front.deep deep) valueRun
    exact ⟨_, front.trans passes, .intro spelled⟩
  complete := by
    intro cursor passed rest value deep spelled start stops
    cases spelled with
    | @intro name kinds value spelled =>
      obtain ⟨span, _, nameRun, namePasses⟩ := identifier_complete start
      obtain ⟨_, _, equalsRun, equalsPasses⟩ := expect_complete (namePasses.rest start) nofun
      have front := namePasses.trans equalsPasses
      obtain ⟨result, next, valueRun, rfl, passes⟩ :=
        (expr_reads room).complete (front.deep deep) spelled (front.rest start) stops
      refine ⟨⟨name, result, next.spanFrom span⟩, next, ?_, rfl, front.trans passes⟩
      simp only [assign, bind_eq_ok, look_eq_ok, pure_eq_ok, Prod.exists]
      exact ⟨_, _, _, nameRun _, _, _, equalsRun, _, _, valueRun, _, _, ⟨rfl, rfl⟩, rfl, rfl⟩

end Parser

end BehaviourScript
