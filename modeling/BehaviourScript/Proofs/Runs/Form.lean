/-
This file follows readers move by move. A plan says how a reader is put together:
from readers that make one move at most, from loops, and from the readers of
operands, sums and expressions, which call each other. A run of a plan goes through
it and lists the cursors that it visits. Nothing in a run counts: a loop goes on as
long as its test holds, and a call is answered by running what is called. So there
is a run only if the reader comes to an end by itself. If overflow is checked, it
also does not come to an end at a minus sign in front of the least number, which
has no negative, so there a checked run does not go on.

A run gives what the reader gives, it never goes back, and it never nests deeper
than the limit. And there is a run from every cursor, or from every one that has
no such number ahead if overflow is checked: a loop ends because every round
passes a token, and the calls end because each is one level further in.
-/

import BehaviourScript.Proofs.Parsing.Expr

namespace BehaviourScript

open Token

/-! ### Moves of a cursor -/

namespace Cursor

/-- The tokens that lie between two cursors. The end mark is never passed. -/
structure Crosses (cursor : Cursor) (tokens : List Token) (next : Cursor) : Prop where
  rest : cursor.rest = tokens ++ next.rest
  passed : next.passed = tokens.reverse ++ cursor.passed
  proper : ∀ token ∈ tokens, token.kind ≠ .eof

theorem Crosses.refl (cursor : Cursor) : cursor.Crosses [] cursor :=
  ⟨rfl, rfl, List.forall_mem_nil _⟩

/-- Crossing tokens and then more crosses them all. -/
theorem Crosses.trans {first second third : Cursor} {left right : List Token}
    (before : first.Crosses left second) (behind : second.Crosses right third) :
    first.Crosses (left ++ right) third where
  rest := by rw [before.rest, behind.rest, List.append_assoc]
  passed := by rw [behind.passed, before.passed, List.reverse_append, List.append_assoc]
  proper := List.forall_mem_append.mpr ⟨before.proper, behind.proper⟩

/-- A cursor is not behind another one. -/
def Forward (cursor next : Cursor) : Prop := ∃ tokens, cursor.Crosses tokens next

theorem Forward.trans {first second third : Cursor} (before : first.Forward second)
    (behind : second.Forward third) : first.Forward third := by
  obtain ⟨left, leftCrosses⟩ := before
  obtain ⟨right, rightCrosses⟩ := behind
  exact ⟨left ++ right, leftCrosses.trans rightCrosses⟩

/-- A step from a token that is no end mark crosses that token. -/
theorem crosses_advance {cursor : Cursor} (proper : cursor.kind ≠ .eof) :
    ∃ token, cursor.Crosses [token] cursor.advance ∧ token.kind = cursor.kind ∧
      token.span = cursor.span := by
  unfold kind at proper ⊢
  unfold span advance
  split
  · next token rest shape =>
    simp only [shape] at proper ⊢
    refine ⟨token, ?_, rfl, rfl⟩
    rw [if_neg proper]
    exact ⟨shape, rfl, List.forall_mem_singleton.mpr proper⟩
  · next shape =>
    simp only [shape] at proper
    exact absurd rfl proper

/-- No step leads past an end mark. -/
theorem advance_of_eof {cursor : Cursor} (ended : cursor.kind = .eof) :
    cursor.advance = cursor := by
  unfold kind at ended
  unfold advance
  split
  · next token rest shape =>
    simp only [shape] at ended
    exact if_pos ended
  · rfl

theorem forward_advance (cursor : Cursor) : cursor.Forward cursor.advance := by
  by_cases ended : cursor.kind = .eof
  · rw [advance_of_eof ended]
    exact ⟨[], .refl cursor⟩
  · obtain ⟨token, crosses, -, -⟩ := crosses_advance ended
    exact ⟨[token], crosses⟩

@[simp] theorem depth_advance (cursor : Cursor) : cursor.advance.depth = cursor.depth := by
  unfold advance
  split
  · split <;> rfl
  · rfl

/-- A minus sign comes next and then the least number, whose negative has no room in 64 bits. -/
def Overflows (cursor : Cursor) : Prop :=
  cursor.kind = .punct .minus ∧ cursor.advance.kind = .number Int64.minValue

/-- Nowhere ahead stands a minus sign in front of the least number. -/
def Clear (cursor : Cursor) : Prop := ∀ later, cursor.Forward later → ¬later.Overflows

/-- Where no number overflows ahead, none does further on. -/
theorem Clear.forward {cursor next : Cursor} (clear : cursor.Clear)
    (forward : cursor.Forward next) : next.Clear :=
  fun later behind => clear later (forward.trans behind)

theorem Clear.not_overflows {cursor : Cursor} (clear : cursor.Clear) : ¬cursor.Overflows :=
  clear cursor ⟨[], .refl cursor⟩

/-- What a reader may do in one step. -/
inductive Move : Cursor → Cursor → Prop
  | stay {cursor : Cursor} : Move cursor cursor
  | advance {cursor : Cursor} : Move cursor cursor.advance
  | enter {cursor : Cursor} :
      cursor.depth < nestingLimit → Move cursor (cursor.atDepth (cursor.depth + 1))
  | leave {cursor : Cursor} : Move cursor (cursor.atDepth (cursor.depth - 1))

/-- No move goes back. -/
theorem Move.forward {cursor next : Cursor} (move : cursor.Move next) : cursor.Forward next := by
  cases move with
  | stay => exact ⟨[], .refl cursor⟩
  | advance => exact cursor.forward_advance
  | enter _ => exact ⟨[], rfl, rfl, List.forall_mem_nil _⟩
  | leave => exact ⟨[], rfl, rfl, List.forall_mem_nil _⟩

/-- No move goes over the limit of nesting. -/
theorem Move.depth_le {cursor next : Cursor} (move : cursor.Move next)
    (bounded : cursor.depth ≤ nestingLimit) : next.depth ≤ nestingLimit := by
  cases move with
  | stay => exact bounded
  | advance => rwa [depth_advance]
  | enter free => exact free
  | leave => exact Nat.le_trans (Nat.sub_le ..) bounded

end Cursor

namespace Parser

variable {α β : Type} {cursor next : Cursor}

/-! ### Expressions without levels -/

/-- Reads an operand with the levels that the cursor has left. -/
def operand : Parser Expr := fun cursor => operandWithin (nestingLimit - cursor.depth) cursor

/-- Reads the further operands of a sum with the levels that the cursor has left. -/
def chain (start : Span) (left : Expr) : Parser Expr := fun cursor =>
  chainWithin (nestingLimit - cursor.depth) start left cursor

/-- Reads the further operands of a sum, given the readers for the next operand and for those
behind it. -/
def chainOver (operand : Parser Expr) (chain : Span → Expr → Parser Expr) (start : Span)
    (left : Expr) : Parser Expr := do
  match binOp? (← look Cursor.kind) with
  | none => return left
  | some op =>
    enter
    advance
    let right ← operand
    let span ← look (·.spanFrom start)
    chain start (.binary op left right span)

/-- Reads on and sets the nesting back in the end. -/
def restoring (reader : Parser α) : Parser α := do
  let depth ← look Cursor.depth
  let value ← reader
  resetDepth depth
  return value

/-- Readers that agree here may be replaced here, with what follows them. -/
theorem bind_congr_at {reader other : Parser α} {continuation changed : α → Parser β}
    (first : reader cursor = other cursor)
    (behind : ∀ value next, reader cursor = .ok value next →
      continuation value next = changed value next) :
    (reader >>= continuation) cursor = (other >>= changed) cursor := by
  show EStateM.bind reader continuation cursor = EStateM.bind other changed cursor
  unfold EStateM.bind
  rw [← first]
  cases outcome : reader cursor with
  | ok value next => exact behind value next outcome
  | error error stop => rfl

/-- Behind a sign only the cursors one level further in matter, if there is a level left. -/
theorem inward_congr {reader other : Parser α}
    (same : cursor.depth < nestingLimit → ∀ deeper : Cursor, deeper.depth = cursor.depth + 1 →
      reader deeper = other deeper) :
    (enter >>= fun _ => advance >>= fun _ => reader) cursor =
      (enter >>= fun _ => advance >>= fun _ => other) cursor := by
  refine bind_congr_at rfl fun _ _ entered => ?_
  obtain ⟨free, rfl⟩ := enter_eq_ok.mp entered
  refine bind_congr_at rfl fun _ _ moved => ?_
  rw [advance_eq_ok] at moved
  subst moved
  exact same free _ (Cursor.depth_advance _)

/-- Only what is read one level further in matters, and nothing is if there is no level left. -/
theorem operandOver_congr {negated otherNegated inner otherInner : Parser Expr}
    (same : cursor.depth < nestingLimit → ∀ deeper : Cursor, deeper.depth = cursor.depth + 1 →
      negated deeper = otherNegated deeper ∧ inner deeper = otherInner deeper) :
    operandOver negated inner cursor = operandOver otherNegated otherInner cursor := by
  unfold operandOver
  refine bind_congr_at rfl fun start _ found => ?_
  obtain ⟨-, rfl⟩ := look_eq_ok.mp found
  refine bind_congr_at rfl fun kind _ found => ?_
  obtain ⟨-, rfl⟩ := look_eq_ok.mp found
  split
  · rfl
  · rfl
  · split
    · exact inward_congr fun free deeper depth =>
        bind_congr_at (same free deeper depth).1 fun _ _ _ => rfl
    · exact inward_congr fun free deeper depth =>
        bind_congr_at (same free deeper depth).2 fun _ _ _ => rfl
    · rfl
  · rfl

/-- An operand that is read leaves the nesting as it was. -/
theorem operand_depth {value : Expr} (bounded : cursor.depth ≤ nestingLimit)
    (run : operand cursor = .ok value next) : next.depth = cursor.depth := by
  obtain ⟨_, passes, _⟩ := (within_reads (nestingLimit - cursor.depth)).1.sound trivial
    (Nat.add_sub_of_le bounded) run
  exact passes.depth

/-- An operand is read by itself: the levels that are left need not be handed on, since the cursor
has them. -/
theorem operand_eq (cursor : Cursor) : operand cursor = operandOver operand expr cursor := by
  unfold operand
  cases levels : nestingLimit - cursor.depth with
  | zero => exact operandOver_congr fun free => by omega
  | succ room =>
    refine operandOver_congr fun free deeper depth => ?_
    have left : nestingLimit - deeper.depth = room := by omega
    constructor
    · show _ = operandWithin (nestingLimit - deeper.depth) deeper
      rw [left]
    · show _ = exprOver (operandWithin (nestingLimit - deeper.depth))
        (chainWithin (nestingLimit - deeper.depth)) deeper
      rw [left]

/-- The further operands of a sum are read by themselves, without levels. -/
theorem chain_eq (start : Span) (left : Expr) (cursor : Cursor) :
    chain start left cursor = chainOver operand chain start left cursor := by
  rw [chain]
  cases levels : nestingLimit - cursor.depth with
  | zero =>
    unfold chainWithin chainOver
    refine bind_congr_at rfl fun kind _ found => ?_
    obtain ⟨-, rfl⟩ := look_eq_ok.mp found
    cases binOp? kind with
    | none => rfl
    | some op =>
      -- no level is left, so entering one fails as the refusal does
      have full : enter cursor = .error (.nestingTooDeep cursor.position) cursor :=
        if_neg (by omega)
      show _ = EStateM.bind enter _ cursor
      unfold EStateM.bind
      rw [full]
      rfl
  | succ room =>
    unfold chainWithin chainOver
    refine bind_congr_at rfl fun kind _ found => ?_
    obtain ⟨-, rfl⟩ := look_eq_ok.mp found
    cases binOp? kind with
    | none => rfl
    | some op =>
      refine inward_congr fun free deeper depth => ?_
      have levelsThere : nestingLimit - deeper.depth = room := by omega
      have sameOperand : operandWithin room deeper = operand deeper := by
        rw [operand, levelsThere]
      refine bind_congr_at sameOperand fun right middle read => ?_
      refine bind_congr_at rfl fun span _ found => ?_
      obtain ⟨-, rfl⟩ := look_eq_ok.mp found
      rw [sameOperand] at read
      rw [chain, operand_depth (by omega) read, levelsThere]

/-- An expression is read by itself, without levels, and leaves the nesting as it was. -/
theorem expr_eq (bounded : cursor.depth ≤ nestingLimit) :
    expr cursor =
      (look Cursor.span >>= fun start => restoring (operand >>= chain start)) cursor := by
  show exprOver (operandWithin (nestingLimit - cursor.depth))
    (chainWithin (nestingLimit - cursor.depth)) cursor = _
  unfold exprOver restoring
  simp only [bind_assoc]
  refine bind_congr_at rfl fun start _ found => ?_
  obtain ⟨-, rfl⟩ := look_eq_ok.mp found
  refine bind_congr_at rfl fun depth _ found => ?_
  obtain ⟨-, rfl⟩ := look_eq_ok.mp found
  refine bind_congr_at rfl fun first middle read => ?_
  refine bind_congr_at ?_ fun _ _ _ => rfl
  rw [chain, operand_depth bounded read]

/-! ### Plans -/

/-- What a reader gives, and the cursor it has got to. -/
abbrev Outcome (α : Type) : Type := EStateM.Result ParseError Cursor α

namespace Outcome

/-- The cursor that a reader has got to. -/
def reached : Outcome α → Cursor
  | .ok _ next => next
  | .error _ next => next

/-- A value in front of those that are read next. -/
def cons (value : α) : Outcome (List α) → Outcome (List α)
  | .ok values next => .ok (value :: values) next
  | .error error next => .error error next

/-- What was read, with the nesting set back. An error leaves the nesting as it is. -/
def restored (depth : Nat) : Outcome α → Outcome α
  | .ok value next => .ok value (next.atDepth depth)
  | .error error next => .error error next

end Outcome

theorem restoring_eq (reader : Parser α) (cursor : Cursor) :
    restoring reader cursor = Outcome.restored cursor.depth (reader cursor) := by
  show EStateM.bind reader _ cursor = _
  unfold EStateM.bind
  cases reader cursor <;> rfl

/-- A reader that passes a token wherever a loop goes on with it. -/
def Advances (more : Cursor → Bool) (item : Parser α) : Prop :=
  ∀ ⦃cursor next : Cursor⦄ ⦃value : α⦄, cursor.depth ≤ nestingLimit → more cursor = true →
    item cursor = .ok value next → next.remaining < cursor.remaining

/-- How a reader is put together. -/
inductive Plan : {α : Type} → Parser α → Type 1
  | move {α : Type} {reader : Parser α} :
      (∀ cursor : Cursor, cursor.Move (Outcome.reached (reader cursor))) → Plan reader
  | bind {α β : Type} {reader : Parser α} {continuation : α → Parser β} :
      Plan reader → ((value : α) → Plan (continuation value)) → Plan (reader >>= continuation)
  | negate : Plan negative?
  | restore {α : Type} {reader : Parser α} : Plan reader → Plan (restoring reader)
  | loop {α : Type} {item : Parser α} {more : Cursor → Bool} :
      Plan item → Advances more item → Plan (many more item)
  | operand : Plan operand
  | chain (start : Span) (left : Expr) : Plan (chain start left)
  | expr : Plan expr

namespace Plan

def look (view : Cursor → α) : Plan (Parser.look view) := .move fun _ => .stay

def give (value : α) : Plan (pure value) := .move fun _ => .stay

def fail (error : Cursor → ParseError) : Plan (Parser.fail error : Parser α) :=
  .move fun _ => .stay

def advance : Plan Parser.advance := .move fun _ => .advance

def enter : Plan Parser.enter := .move fun cursor => by
  unfold Parser.enter
  split
  · next free => exact .enter free
  · exact .stay

def leave : Plan Parser.leave := .move fun _ => .leave

def eat (kind : Kind) : Plan (Parser.eat kind) := .move fun cursor => by
  unfold Parser.eat
  split
  · exact .advance
  · exact .stay

def expect (kind : Kind) : Plan (Parser.expect kind) := .move fun cursor => by
  unfold Parser.expect
  split
  · exact .advance
  · exact .stay

def identifier (what : String) : Plan (Parser.identifier what) := .move fun cursor => by
  unfold Parser.identifier
  split
  · exact .advance
  · exact .stay

/-- How the reader of an operand is put together. -/
def operandBody : Plan (operandOver Parser.operand Parser.expr) :=
  .bind (look _) fun _ => .bind (look _) fun
    | .number _ | .identifier _ => .bind advance fun _ => give _
    | .punct .minus =>
      .bind enter fun _ => .bind advance fun _ => .bind operand fun _ => .bind leave fun _ =>
        .bind (look _) fun _ => give _
    | .punct .leftParen =>
      .bind enter fun _ => .bind advance fun _ => .bind expr fun _ => .bind (expect _) fun _ =>
        .bind leave fun _ => give _
    | .keyword _ | .eof | .punct .plus | .punct .equals | .punct .rightParen
    | .punct .leftBracket | .punct .rightBracket | .punct .leftBrace | .punct .rightBrace
    | .punct .comma | .punct .semicolon => fail _

/-- How the reader of the further operands of a sum is put together. -/
def chainBody (start : Span) (left : Expr) :
    Plan (chainOver Parser.operand Parser.chain start left) :=
  .bind (look _) fun kind => match binOp? kind with
    | none => give _
    | some _ => .bind enter fun _ => .bind advance fun _ => .bind operand fun _ =>
        .bind (look _) fun _ => chain _ _

/-- How the reader of an expression is put together. -/
def exprBody : Plan (Parser.look Cursor.span >>= fun start =>
    restoring (Parser.operand >>= Parser.chain start)) :=
  .bind (look _) fun start => .restore (.bind operand (chain start))

end Plan

/-! ### Runs -/

/-- Going through a plan, with the cursors that are visited in turn. If overflow is checked, there
is no going on where a number has no negative. -/
inductive Plan.Run (checked : Bool) : {α : Type} → {reader : Parser α} → Plan reader → Cursor →
    List Cursor → Outcome α → Prop
  | move {α : Type} {reader : Parser α} {cursor : Cursor}
      {single : ∀ cursor : Cursor, cursor.Move (Outcome.reached (reader cursor))} :
      Run checked (.move single) cursor [Outcome.reached (reader cursor)] (reader cursor)
  | negate {cursor : Cursor} : (checked = true → ¬cursor.Overflows) →
      Run checked .negate cursor [Outcome.reached (negative? cursor)] (negative? cursor)
  | bind {α β : Type} {reader : Parser α} {continuation : α → Parser β} {first : Plan reader}
      {behind : (value : α) → Plan (continuation value)} {cursor middle : Cursor} {value : α}
      {visited others : List Cursor} {outcome : Outcome β} :
      Run checked first cursor visited (.ok value middle) →
      Run checked (behind value) middle others outcome →
      Run checked (.bind first behind) cursor (visited ++ others) outcome
  | bindError {α β : Type} {reader : Parser α} {continuation : α → Parser β}
      {first : Plan reader} {behind : (value : α) → Plan (continuation value)}
      {cursor stop : Cursor} {error : ParseError} {visited : List Cursor} :
      Run checked first cursor visited (.error error stop) →
      Run checked (.bind first behind) cursor visited (.error error stop)
  | restore {α : Type} {reader : Parser α} {inner : Plan reader} {cursor : Cursor}
      {visited : List Cursor} {outcome : Outcome α} :
      Run checked inner cursor visited outcome →
      Run checked (.restore inner) cursor (visited ++ [(outcome.restored cursor.depth).reached])
        (outcome.restored cursor.depth)
  | loopEnd {α : Type} {reader : Parser α} {more : Cursor → Bool} {item : Plan reader}
      {advances : Advances more reader} {cursor : Cursor} :
      more cursor = false → Run checked (.loop item advances) cursor [] (.ok [] cursor)
  | loopError {α : Type} {reader : Parser α} {more : Cursor → Bool} {item : Plan reader}
      {advances : Advances more reader} {cursor stop : Cursor} {error : ParseError}
      {visited : List Cursor} :
      more cursor = true → Run checked item cursor visited (.error error stop) →
      Run checked (.loop item advances) cursor visited (.error error stop)
  | loopNext {α : Type} {reader : Parser α} {more : Cursor → Bool} {item : Plan reader}
      {advances : Advances more reader} {cursor middle : Cursor} {value : α}
      {visited others : List Cursor} {outcome : Outcome (List α)} :
      more cursor = true → Run checked item cursor visited (.ok value middle) →
      Run checked (.loop item advances) middle others outcome →
      Run checked (.loop item advances) cursor (visited ++ others) (outcome.cons value)
  | operand {cursor : Cursor} {visited : List Cursor} {outcome : Outcome Expr} :
      Run checked operandBody cursor visited outcome → Run checked .operand cursor visited outcome
  | chain {start : Span} {left : Expr} {cursor : Cursor} {visited : List Cursor}
      {outcome : Outcome Expr} :
      Run checked (chainBody start left) cursor visited outcome →
      Run checked (.chain start left) cursor visited outcome
  | expr {cursor : Cursor} {visited : List Cursor} {outcome : Outcome Expr} :
      Run checked exprBody cursor visited outcome → Run checked .expr cursor visited outcome

/-- A walk over cursors. It never goes back, it never passes the end mark, and nowhere does it
nest deeper than the limit. -/
inductive Walk : Cursor → List Cursor → Cursor → Prop
  | nil {cursor : Cursor} : Walk cursor [] cursor
  | cons {cursor next last : Cursor} {visited : List Cursor} :
      cursor.Forward next → next.depth ≤ nestingLimit → Walk next visited last →
      Walk cursor (next :: visited) last

namespace Walk

variable {last : Cursor} {visited others : List Cursor}

theorem single (forward : cursor.Forward next) (bounded : next.depth ≤ nestingLimit) :
    Walk cursor [next] next := .cons forward bounded .nil

/-- A walk may go on with a walk. -/
theorem append (before : Walk cursor visited next) (behind : Walk next others last) :
    Walk cursor (visited ++ others) last := by
  induction before with
  | nil => exact behind
  | cons forward bounded _ inductionHypothesis =>
    exact .cons forward bounded (inductionHypothesis behind)

theorem depth_le (walk : Walk cursor visited last) (bounded : cursor.depth ≤ nestingLimit) :
    last.depth ≤ nestingLimit := by
  induction walk with
  | nil => exact bounded
  | cons _ there _ inductionHypothesis => exact inductionHypothesis there

end Walk

/-- A walk does not go back. -/
theorem Walk.forward {last : Cursor} {visited : List Cursor} (walk : Walk cursor visited last) :
    cursor.Forward last := by
  induction walk with
  | nil => exact ⟨[], .refl _⟩
  | cons forward _ _ inductionHypothesis => exact forward.trans inductionHypothesis

theorem negative?_move (cursor : Cursor) :
    cursor.Move (Outcome.reached (negative? cursor)) := by
  unfold negative?
  split
  · split
    · exact .advance
    · exact .advance
  · exact .stay

/-- Setting the nesting back to what it was keeps within the limit. -/
theorem walk_restored {outcome : Outcome α} (bounded : cursor.depth ≤ nestingLimit)
    (inside : outcome.reached.depth ≤ nestingLimit) :
    Walk outcome.reached [(outcome.restored cursor.depth).reached]
      (outcome.restored cursor.depth).reached := by
  cases outcome with
  | ok value stop => exact .single ⟨[], rfl, rfl, List.forall_mem_nil _⟩ bounded
  | error error stop => exact .single ⟨[], .refl stop⟩ inside

theorem bind_of_ok {reader : Parser α} {continuation : α → Parser β} {value : α}
    (first : .ok value next = reader cursor) :
    (reader >>= continuation) cursor = continuation value next := by
  show EStateM.bind reader continuation cursor = _
  unfold EStateM.bind
  rw [← first]

theorem bind_of_error {reader : Parser α} {continuation : α → Parser β} {error : ParseError}
    (first : .error error next = reader cursor) :
    (reader >>= continuation) cursor = .error error next := by
  show EStateM.bind reader continuation cursor = _
  unfold EStateM.bind
  rw [← first]

/-- A loop that reads one item goes on behind it, as the item has passed a token. -/
theorem many_of_ok {item : Parser α} {more : Cursor → Bool} {value : α}
    (advances : Advances more item) (bounded : cursor.depth ≤ nestingLimit)
    (going : more cursor = true) (first : .ok value next = item cursor) :
    many more item cursor = Outcome.cons value (many more item next) := by
  have progress := advances bounded going first.symm
  rw [many, if_pos going, ← first]
  simp only [if_pos progress]
  cases many more item next <;> rfl

theorem many_of_error {item : Parser α} {more : Cursor → Bool} {error : ParseError}
    (going : more cursor = true) (first : .error error next = item cursor) :
    many more item cursor = .error error next := by
  rw [many, if_pos going, ← first]

theorem many_of_end {item : Parser α} {more : Cursor → Bool} (finished : more cursor = false) :
    many more item cursor = .ok [] cursor := by
  rw [many, if_neg (by simp [finished])]

/-- A run gives what the reader gives, and the cursors it visits are a walk. -/
theorem Plan.Run.safe {checked : Bool} {reader : Parser α} {plan : Plan reader}
    {visited : List Cursor} {outcome : Outcome α} (run : plan.Run checked cursor visited outcome)
    (bounded : cursor.depth ≤ nestingLimit) :
    outcome = reader cursor ∧ Walk cursor visited outcome.reached := by
  induction run with
  | @move _ reader cursor single =>
    exact ⟨rfl, .single (single cursor).forward ((single cursor).depth_le bounded)⟩
  | @negate cursor _ =>
    exact ⟨rfl, .single (negative?_move cursor).forward ((negative?_move cursor).depth_le bounded)⟩
  | bind _ _ firstHypothesis behindHypothesis =>
    obtain ⟨first, before⟩ := firstHypothesis bounded
    obtain ⟨second, behind⟩ := behindHypothesis (before.depth_le bounded)
    exact ⟨second.trans (bind_of_ok first).symm, before.append behind⟩
  | bindError _ inductionHypothesis =>
    obtain ⟨first, walk⟩ := inductionHypothesis bounded
    exact ⟨(bind_of_error first).symm, walk⟩
  | @restore _ reader _ cursor _ outcome _ inductionHypothesis =>
    obtain ⟨same, walk⟩ := inductionHypothesis bounded
    rw [restoring_eq, ← same]
    exact ⟨rfl, walk.append (walk_restored bounded (walk.depth_le bounded))⟩
  | loopEnd finished => exact ⟨(many_of_end finished).symm, .nil⟩
  | loopError going _ inductionHypothesis =>
    obtain ⟨first, walk⟩ := inductionHypothesis bounded
    exact ⟨(many_of_error going first).symm, walk⟩
  | @loopNext _ reader more _ advances _ _ _ _ _ outcome going _ _ itemHypothesis
      othersHypothesis =>
    obtain ⟨first, before⟩ := itemHypothesis bounded
    obtain ⟨second, behind⟩ := othersHypothesis (before.depth_le bounded)
    rw [many_of_ok advances bounded going first, ← second]
    refine ⟨rfl, ?_⟩
    cases outcome with
    | ok values stop => exact before.append behind
    | error error stop => exact before.append behind
  | operand _ inductionHypothesis =>
    rw [operand_eq]
    exact inductionHypothesis bounded
  | chain _ inductionHypothesis =>
    rw [chain_eq]
    exact inductionHypothesis bounded
  | expr _ inductionHypothesis =>
    rw [expr_eq bounded]
    exact inductionHypothesis bounded

/-! ### Every reader comes to an end -/

/-- There is a run of a plan, which then gives what the reader gives. -/
def Plan.Returns {reader : Parser α} (plan : Plan reader) (checked : Bool) (cursor : Cursor) :
    Prop :=
  ∃ visited, plan.Run checked cursor visited (reader cursor)

namespace Plan.Returns

variable {checked : Bool} {reader : Parser α}

theorem single {move : ∀ cursor : Cursor, cursor.Move (Outcome.reached (reader cursor))} :
    (Plan.move move).Returns checked cursor := ⟨_, .move⟩

/-- A plan that returns leads forward and keeps within the limit of nesting. -/
theorem onward {plan : Plan reader} {value : α} (returns : plan.Returns checked cursor)
    (bounded : cursor.depth ≤ nestingLimit) (read : reader cursor = .ok value next) :
    next.depth ≤ nestingLimit ∧ cursor.Forward next := by
  obtain ⟨visited, run⟩ := returns
  have walk := (run.safe bounded).2
  rw [read] at walk
  exact ⟨walk.depth_le bounded, walk.forward⟩

/-- A plan in two parts returns if the first does, and the second does wherever the first leads. -/
theorem bind {continuation : α → Parser β} {first : Plan reader}
    {behind : (value : α) → Plan (continuation value)} (returns : first.Returns checked cursor)
    (onward : ∀ value next, reader cursor = .ok value next → (behind value).Returns checked next) :
    (Plan.bind first behind).Returns checked cursor := by
  obtain ⟨visited, run⟩ := returns
  cases outcome : reader cursor with
  | ok value next =>
    rw [outcome] at run
    obtain ⟨others, further⟩ := onward value next outcome
    refine ⟨visited ++ others, ?_⟩
    rw [bind_of_ok outcome.symm]
    exact .bind run further
  | error error stop =>
    rw [outcome] at run
    refine ⟨visited, ?_⟩
    rw [bind_of_error outcome.symm]
    exact .bindError run

/-- Setting the nesting back is no obstacle. -/
theorem restore {inner : Plan reader} (returns : inner.Returns checked cursor) :
    (Plan.restore inner).Returns checked cursor := by
  obtain ⟨visited, run⟩ := returns
  unfold Returns
  rw [restoring_eq]
  exact ⟨_, .restore run⟩

/-- A loop ends because there are fewer tokens left in every round. -/
theorem loop {more : Cursor → Bool} {item : Plan reader} (advances : Advances more reader)
    {cursor : Cursor} (bounded : cursor.depth ≤ nestingLimit)
    (returns : ∀ later : Cursor, later.depth ≤ nestingLimit → cursor.Forward later →
      item.Returns checked later) :
    (Plan.loop item advances).Returns checked cursor := by
  induction left : cursor.remaining using Nat.strongRecOn generalizing cursor with
  | _ remaining inductionHypothesis =>
    cases going : more cursor with
    | false =>
      refine ⟨[], ?_⟩
      rw [many_of_end going]
      exact .loopEnd going
    | true =>
      obtain ⟨visited, run⟩ := returns cursor bounded ⟨[], .refl cursor⟩
      cases outcome : reader cursor with
      | error error stop =>
        rw [outcome] at run
        refine ⟨visited, ?_⟩
        rw [many_of_error going outcome.symm]
        exact .loopError going run
      | ok value next =>
        obtain ⟨inside, forward⟩ := onward ⟨visited, run⟩ bounded outcome
        have fewer : next.remaining < remaining := left ▸ advances bounded going outcome
        obtain ⟨others, further⟩ := inductionHypothesis _ fewer inside
          (fun later deep behind => returns later deep (forward.trans behind)) rfl
        rw [outcome] at run
        refine ⟨visited ++ others, ?_⟩
        rw [many_of_ok advances bounded going outcome.symm]
        exact .loopNext going run further

end Plan.Returns

/-- Behind a sign a reader starts one level further in. -/
theorem Plan.Returns.inward {checked : Bool} {reader : Parser α} {plan : Plan reader}
    (returns : cursor.depth < nestingLimit → ∀ deeper : Cursor,
      deeper.depth = cursor.depth + 1 → plan.Returns checked deeper) :
    (Plan.bind Plan.enter fun _ => Plan.bind Plan.advance fun _ => plan).Returns checked cursor := by
  refine .bind .single fun _ _ entered => ?_
  obtain ⟨free, rfl⟩ := enter_eq_ok.mp entered
  refine .bind .single fun _ _ moved => ?_
  rw [advance_eq_ok] at moved
  subst moved
  exact returns free _ (Cursor.depth_advance _)

/-- At a nesting depth, the readers that call each other come to an end. -/
structure CallsReturn (checked : Bool) (depth : Nat) : Prop where
  operand : ∀ cursor : Cursor, cursor.depth = depth → Plan.operand.Returns checked cursor
  chain : ∀ (cursor : Cursor) (start : Span) (left : Expr), cursor.depth = depth →
    (Plan.chain start left).Returns checked cursor
  expr : ∀ cursor : Cursor, cursor.depth = depth → Plan.expr.Returns checked cursor

section Calls

variable {checked : Bool}
variable (deeper : cursor.depth < nestingLimit → CallsReturn checked (cursor.depth + 1))

include deeper

/-- An operand returns if the calls one level further in do. -/
theorem operandBody_returns : Plan.operandBody.Returns checked cursor := by
  refine .bind .single fun start _ found => ?_
  obtain ⟨-, rfl⟩ := look_eq_ok.mp found
  refine .bind .single fun kind _ found => ?_
  obtain ⟨-, rfl⟩ := look_eq_ok.mp found
  -- only a minus sign and a parenthesis call anything, both one level further in
  cases kind with
  | number value => exact .bind .single fun _ _ _ => .single
  | identifier name => exact .bind .single fun _ _ _ => .single
  | keyword word => exact .single
  | eof => exact .single
  | punct sign =>
    cases sign with
    | minus =>
      refine .inward fun free inner depth => .bind ((deeper free).operand inner depth) ?_
      exact fun _ _ _ => .bind .single fun _ _ _ => .bind .single fun _ _ _ => .single
    | leftParen =>
      refine .inward fun free inner depth => .bind ((deeper free).expr inner depth) ?_
      exact fun _ _ _ => .bind .single fun _ _ _ => .bind .single fun _ _ _ => .single
    | _ => exact .single

/-- A chain returns if the calls one level further in do. -/
theorem chainBody_returns (start : Span) (left : Expr) :
    (Plan.chainBody start left).Returns checked cursor := by
  refine .bind .single fun kind _ found => ?_
  obtain ⟨-, rfl⟩ := look_eq_ok.mp found
  cases binOp? kind with
  | none => exact .single
  | some op =>
    refine .inward fun free inner depth => ?_
    refine .bind ((deeper free).operand inner depth) fun right behind read => ?_
    refine .bind .single fun span _ found => ?_
    obtain ⟨-, rfl⟩ := look_eq_ok.mp found
    exact (deeper free).chain behind _ _ ((operand_depth (by omega) read).trans depth)

end Calls

/-- The readers come to an end where those one level further in do, if there is such a level. -/
theorem callsReturn_of_deeper {checked : Bool} {depth : Nat} (bounded : depth ≤ nestingLimit)
    (deeper : depth < nestingLimit → CallsReturn checked (depth + 1)) :
    CallsReturn checked depth := by
  have operand : ∀ cursor : Cursor, cursor.depth = depth → Plan.operand.Returns checked cursor := by
    rintro cursor rfl
    obtain ⟨visited, run⟩ := operandBody_returns deeper
    exact ⟨visited, operand_eq cursor ▸ .operand run⟩
  have chain : ∀ (cursor : Cursor) (start : Span) (left : Expr), cursor.depth = depth →
      (Plan.chain start left).Returns checked cursor := by
    rintro cursor start left rfl
    obtain ⟨visited, run⟩ := chainBody_returns deeper start left
    exact ⟨visited, chain_eq start left cursor ▸ .chain run⟩
  refine ⟨operand, chain, ?_⟩
  rintro cursor rfl
  have body : Plan.exprBody.Returns checked cursor := by
    refine .bind .single fun start _ found => .restore ?_
    obtain ⟨-, rfl⟩ := look_eq_ok.mp found
    exact .bind (operand cursor rfl) fun first next read =>
      chain next start first (operand_depth bounded read)
  obtain ⟨visited, run⟩ := body
  exact ⟨visited, expr_eq bounded ▸ .expr run⟩

/-- The calls of expressions return from every cursor of a depth. The induction goes up to the
limit of nesting, where nothing is called. -/
theorem callsReturn {checked : Bool} {depth : Nat} (bounded : depth ≤ nestingLimit) :
    CallsReturn checked depth :=
  callsReturn_of_deeper bounded fun free => callsReturn free
termination_by nestingLimit - depth
decreasing_by omega

/-- A plan without the negative of a number. -/
def Plan.Plain : {α : Type} → {reader : Parser α} → Plan reader → Prop
  | _, _, .negate => False
  | _, _, .bind first behind => first.Plain ∧ ∀ value, (behind value).Plain
  | _, _, .restore inner => inner.Plain
  | _, _, .loop item _ => item.Plain
  | _, _, _ => True

/-- From every cursor that does not nest too deep already, a reader with a plan comes to an end. If
overflow is checked, there must be no number ahead without a negative, or no negative in the
plan. -/
theorem Plan.returns {checked : Bool} {reader : Parser α} (plan : Plan reader)
    (bounded : cursor.depth ≤ nestingLimit)
    (safe : checked = true → plan.Plain ∨ cursor.Clear) : plan.Returns checked cursor := by
  induction plan generalizing cursor with
  | move single => exact .single
  | negate =>
    exact ⟨_, .negate fun checks => ((safe checks).resolve_left id).not_overflows⟩
  | bind first behind firstHypothesis behindHypothesis =>
    have returns := firstHypothesis bounded fun checks => (safe checks).imp_left And.left
    refine .bind returns fun value next read => ?_
    obtain ⟨inside, forward⟩ := returns.onward bounded read
    exact behindHypothesis value inside fun checks =>
      (safe checks).imp (fun plain => plain.2 value) fun clear => clear.forward forward
  | restore inner inductionHypothesis => exact (inductionHypothesis bounded safe).restore
  | loop item advances inductionHypothesis =>
    exact .loop advances bounded fun later inside forward => inductionHypothesis inside
      fun checks => (safe checks).imp_right fun clear => clear.forward forward
  | operand => exact (callsReturn bounded).operand cursor rfl
  | chain start left => exact (callsReturn bounded).chain cursor start left rfl
  | expr => exact (callsReturn bounded).expr cursor rfl

end Parser

end BehaviourScript
