/-
This file follows printed expressions back through the grammar. The kinds of an
expression are those of its printed text, and its nesting counts the levels that
reading this text takes: one for a minus sign and for a pair of parentheses, and
one for every operator that stands to the left in the same sum. A printed
expression spells its tree exactly if that many levels are left, and no row of
kinds that spells the tree is shorter.
-/

import BehaviourScript.Proofs.Grammar
import BehaviourScript.Proofs.Spelling
import BehaviourScript.Proofs.Tree
import BehaviourScript.Script.Printer

namespace BehaviourScript

open Token

/-- The kinds of a printed integer. -/
def signedKinds (value : Int) : List Kind :=
  if value < 0 then [.punct .minus, .number (.ofNat value.natAbs)]
  else [.number (.ofNat value.natAbs)]

namespace Expr

/-- The kinds of a printed operand: sums and differences need parentheses. -/
def wrapKinds (operand : Expr) (kinds : List Kind) : List Kind :=
  if operand.isBinary then .punct .leftParen :: (kinds ++ [.punct .rightParen]) else kinds

/-- The kinds of a printed expression. -/
def kinds : Expr → List Kind
  | number value _ => signedKinds value
  | const name _ => [.identifier name]
  | neg operand _ => .punct .minus :: operand.wrapKinds operand.kinds
  | binary op left right _ => left.kinds ++ .punct op.mark :: right.wrapKinds right.kinds

/-- The operators of a sum, without those in its operands. -/
def spine : Expr → Nat
  | binary _ left _ _ => left.spine + 1
  | _ => 0

/-- The levels of a printed operand: parentheses take one. -/
def wrapNesting (operand : Expr) (levels : Nat) : Nat :=
  if operand.isBinary then levels + 1 else levels

/-- The levels of nesting that a printed expression takes. -/
def nesting : Expr → Nat
  | number value _ => if value < 0 then 1 else 0
  | const _ _ => 0
  | neg operand _ => operand.wrapNesting operand.nesting + 1
  | binary _ left right _ =>
    max left.nesting (left.spine + 1 + right.wrapNesting right.nesting)

/-- The names in an expression are identifiers and its numbers fit into 64 bits. -/
def Spellable : Expr → Prop
  | number value _ => value.natAbs < numberBound
  | const name _ => isIdentifier name = true
  | neg operand _ => operand.Spellable
  | binary _ left right _ => left.Spellable ∧ right.Spellable

instance decideSpellable : (expr : Expr) → Decidable expr.Spellable
  | number value _ => inferInstanceAs (Decidable (value.natAbs < numberBound))
  | const name _ => inferInstanceAs (Decidable (isIdentifier name = true))
  | neg operand _ => decideSpellable operand
  | binary _ left right _ => @instDecidableAnd _ _ (decideSpellable left) (decideSpellable right)

/-- Reading a print back does not lengthen the chain of a sum. -/
theorem spine_reread (expr : Expr) : expr.reread.spine = expr.spine := by
  induction expr with
  | number value span =>
    rw [reread]
    split <;> rfl
  | const name span => rfl
  | neg operand span _ => rfl
  | binary op left right span leftHypothesis _ => rw [reread, spine, spine, leftHypothesis]

/-! ### Printed expressions spell their trees -/

/-- A sum takes one more operand at its end, if the levels go that far. -/
theorem chain_snoc {op : BinOp} {right : Expr} {others : List Kind} {deeper : Nat}
    (operand : Grammar.operand deeper others right) {room : Nat} {left value : Expr}
    {row : List Kind} (spelled : Grammar.chain room left row value)
    (levels : left.spine + room = value.spine + deeper + 1) :
    Grammar.chain room left (row ++ .punct op.mark :: others)
      (.binary op value right .dummy) := by
  induction room generalizing left row with
  | zero =>
    cases spelled
    omega
  | succ room inductionHypothesis =>
    cases spelled with
    | done =>
      obtain rfl : deeper = room := by omega
      rw [List.nil_append, ← List.append_nil others]
      exact .more operand .done
    | more first behind =>
      rw [List.cons_append, List.append_assoc]
      refine .more first (inductionHypothesis behind ?_)
      rw [spine]
      omega

/-- An expression as a first operand and the rest of a sum. -/
def Chained (room : Nat) (kinds : List Kind) (value : Expr) : Prop :=
  ∃ first front behind, kinds = front ++ behind ∧ first.spine = 0 ∧
    Grammar.operand room front first ∧ Grammar.chain room first behind value

/-- A chain is an expression. -/
theorem Chained.expr {room : Nat} {kinds : List Kind} {value : Expr}
    (chained : Chained room kinds value) : Grammar.expr room kinds value := by
  obtain ⟨first, front, behind, rfl, _, operand, chain⟩ := chained
  exact .intro operand chain

/-- An operand is a chain without operators. -/
theorem Chained.ofOperand {room : Nat} {kinds : List Kind} {value : Expr}
    (operand : Grammar.operand room kinds value) (single : value.spine = 0) :
    Chained room kinds value :=
  ⟨value, kinds, [], (List.append_nil kinds).symm, single, operand, .done⟩

/-- A chain with one more operand is a chain of one operator more, and takes one level more. -/
theorem Chained.snoc {room deeper : Nat} {op : BinOp} {kinds others : List Kind}
    {left right : Expr} (chained : Chained room kinds left)
    (operand : Grammar.operand deeper others right) (levels : room = left.spine + deeper + 1) :
    Chained room (kinds ++ .punct op.mark :: others) (.binary op left right .dummy) := by
  obtain ⟨first, front, behind, rfl, single, start, chain⟩ := chained
  refine ⟨first, front, behind ++ .punct op.mark :: others, List.append_assoc _ _ _, single,
    start, chain_snoc operand chain ?_⟩
  omega

/-- A number is an operand. A negative one is a minus sign with a number and takes a level. -/
theorem operand_number {room : Nat} {value : Int} {span : Span}
    (small : value.natAbs < numberBound) (fits : (number value span).nesting ≤ room) :
    Grammar.operand room (signedKinds value) (number value span).reread := by
  rw [signedKinds, reread]
  rw [nesting] at fits
  split
  · next negative =>
    rw [if_pos negative] at fits
    obtain ⟨deeper, rfl⟩ : ∃ deeper, room = deeper + 1 := ⟨room - 1, by omega⟩
    obtain ⟨magnitude, rfl⟩ : ∃ magnitude : Nat, value = -magnitude :=
      ⟨value.natAbs, by omega⟩
    rw [Int.natAbs_neg, Int.natAbs_natCast] at small
    rw [Int.neg_neg, Int.natAbs_neg, Int.natAbs_natCast, ← toInt_ofNat small]
    exact .neg .number
  · next natural =>
    obtain ⟨magnitude, rfl⟩ : ∃ magnitude : Nat, value = magnitude := ⟨value.natAbs, by omega⟩
    rw [Int.natAbs_natCast] at small
    rw [Int.natAbs_natCast, ← toInt_ofNat small]
    exact .number

/-- A printed expression is a sum, and with the parentheses that it needs an operand. -/
theorem spells {expr : Expr} (spellable : expr.Spellable) :
    (∀ room, expr.nesting ≤ room → Chained room expr.kinds expr.reread) ∧
      ∀ room, expr.wrapNesting expr.nesting ≤ room →
        Grammar.operand room (expr.wrapKinds expr.kinds) expr.reread := by
  induction expr with
  | number value span =>
    refine ⟨fun room fits => .ofOperand (operand_number spellable fits) ?_,
      fun room => operand_number spellable⟩
    rw [spine_reread]
    rfl
  | const name span => exact ⟨fun room _ => .ofOperand .const rfl, fun room _ => .const⟩
  | neg operand span inductionHypothesis =>
    have spelled (room : Nat) (fits : (neg operand span).nesting ≤ room) :
        Grammar.operand room (neg operand span).kinds (neg operand span).reread := by
      rw [nesting] at fits
      obtain ⟨deeper, rfl⟩ : ∃ deeper, room = deeper + 1 := ⟨room - 1, by omega⟩
      exact .neg ((inductionHypothesis spellable).2 deeper (by omega))
    exact ⟨fun room fits => .ofOperand (spelled room fits) rfl, spelled⟩
  | binary op left right span leftHypothesis rightHypothesis =>
    have spelled (room : Nat) (fits : (binary op left right span).nesting ≤ room) :
        Chained room (binary op left right span).kinds (binary op left right span).reread := by
      rw [nesting] at fits
      have operand := (rightHypothesis spellable.2).2 (room - left.spine - 1) (by omega)
      refine ((leftHypothesis spellable.1).1 room (by omega)).snoc operand ?_
      rw [spine_reread]
      omega
    refine ⟨spelled, fun room fits => ?_⟩
    obtain ⟨deeper, rfl⟩ : ∃ deeper, room = deeper + 1 :=
      ⟨room - 1, by rw [wrapNesting, isBinary, if_pos rfl] at fits; omega⟩
    exact .parens (spelled deeper (Nat.le_of_succ_le_succ fits)).expr

/-- A printed expression spells its tree if enough levels are left. -/
theorem expr_spelled {room : Nat} {expr : Expr} (spellable : expr.Spellable)
    (fits : expr.nesting ≤ room) : Grammar.expr room expr.kinds expr.reread :=
  ((spells spellable).1 room fits).expr

/-! ### Nothing shorter spells them -/

/-- Only the parentheses around a sum are printed. -/
theorem length_wrapKinds (operand : Expr) (kinds : List Kind) :
    (operand.wrapKinds kinds).length = kinds.length + if operand.isBinary then 2 else 0 := by
  unfold wrapKinds
  split
  · rw [List.length_cons, List.length_append, List.length_singleton]
  · rfl

theorem spine_eq_zero {expr : Expr} (single : ¬expr.isBinary = true) : expr.spine = 0 := by
  cases expr with
  | binary op left right span => exact absurd rfl single
  | _ => rfl

/-- What is known of an expression that proper kinds spell: its own kinds are no
more than those, and if they are as many then the levels left are enough. -/
structure Faithful (room : Nat) (row : List Kind) (expr : Expr) : Prop where
  spellable : expr.Spellable
  natural : expr.Natural
  shortest : expr.kinds.length ≤ row.length
  fits : expr.kinds.length = row.length → expr.nesting ≤ room

/-- The same of an operand, with its parentheses. -/
structure FaithfulOperand (room : Nat) (row : List Kind) (expr : Expr) : Prop where
  spellable : expr.Spellable
  natural : expr.Natural
  shortest : (expr.wrapKinds expr.kinds).length ≤ row.length
  fits : (expr.wrapKinds expr.kinds).length = row.length → expr.wrapNesting expr.nesting ≤ room

/-- The same of a sum behind its first operands. -/
structure FaithfulChain (room : Nat) (left : Expr) (row : List Kind) (expr : Expr) : Prop where
  spellable : left.Spellable → expr.Spellable
  natural : left.Natural → expr.Natural
  shortest : expr.kinds.length ≤ left.kinds.length + row.length
  fits : expr.kinds.length = left.kinds.length + row.length →
    expr.nesting ≤ max left.nesting (left.spine + room)

/-- A minus sign is printed as it is spelled. -/
theorem FaithfulOperand.neg {room : Nat} {row : List Kind} {expr : Expr}
    (operand : FaithfulOperand room row expr) :
    FaithfulOperand (room + 1) (.punct .minus :: row) (.neg expr .dummy) where
  spellable := operand.spellable
  natural := operand.natural
  shortest := Nat.succ_le_succ operand.shortest
  fits same := Nat.succ_le_succ (operand.fits (Nat.succ.inj same))

/-- Parentheses may be dropped in the print. If they are kept, nothing inside was dropped. -/
theorem FaithfulOperand.parens {room : Nat} {row : List Kind} {expr : Expr}
    (inner : Faithful room row expr) :
    FaithfulOperand (room + 1) (.punct .leftParen :: (row ++ [.punct .rightParen])) expr := by
  have := inner.shortest
  refine ⟨inner.spellable, inner.natural, ?_, fun same => ?_⟩
  · rw [length_wrapKinds, List.length_cons, List.length_append, List.length_singleton]
    split <;> omega
  · rw [length_wrapKinds, List.length_cons, List.length_append, List.length_singleton] at same
    unfold wrapNesting
    -- without parentheses of its own the expression is shorter than what spells it
    split at same
    · next sum =>
      rw [if_pos sum]
      exact Nat.succ_le_succ (inner.fits (by omega))
    · omega

/-- A further operand of a sum is printed where it is spelled, and not with more parentheses. -/
theorem FaithfulChain.more {room : Nat} {op : BinOp} {left right value : Expr}
    {row others : List Kind} (operand : FaithfulOperand room row right)
    (behind : FaithfulChain room (.binary op left right .dummy) others value) :
    FaithfulChain (room + 1) left (.punct op.mark :: (row ++ others)) value := by
  have long : (binary op left right .dummy).kinds.length =
      left.kinds.length + (right.wrapKinds right.kinds).length + 1 := by
    rw [kinds, List.length_append, List.length_cons, Nat.add_assoc]
  have := operand.shortest
  have := behind.shortest
  refine ⟨fun good => behind.spellable ⟨good, operand.spellable⟩,
    fun good => behind.natural ⟨good, operand.natural⟩, ?_, fun same => ?_⟩
  · rw [List.length_cons, List.length_append]
    omega
  · rw [List.length_cons, List.length_append] at same
    have inner := operand.fits (by omega)
    have outer := behind.fits (by omega)
    rw [nesting, spine] at outer
    omega

/-- The print of a sum is not longer than the row that spells it, and if it is as long, it nests no
deeper. -/
theorem Faithful.intro {room : Nat} {front behind : List Kind} {first value : Expr}
    (operand : FaithfulOperand room front first)
    (chain : FaithfulChain room first behind value) :
    Faithful room (front ++ behind) value := by
  have := operand.shortest
  have := chain.shortest
  have wrapped := length_wrapKinds first first.kinds
  refine ⟨chain.spellable operand.spellable, chain.natural operand.natural, ?_, fun same => ?_⟩
  · rw [List.length_append]
    omega
  · rw [List.length_append] at same
    -- a sum in parentheses could lose them as a first operand
    have single : ¬first.isBinary = true := by
      intro sum
      rw [if_pos sum] at wrapped
      omega
    rw [if_neg single] at wrapped
    have inner := operand.fits (by omega)
    have outer := chain.fits (by omega)
    rw [wrapNesting, if_neg single] at inner
    rw [spine_eq_zero single] at outer
    omega

/-- Operands and sums over so many levels are faithful to the proper kinds that spell them. -/
theorem within_faithful (room : Nat) :
    (∀ row value, Grammar.operand room row value → (∀ kind ∈ row, kind.Lexical) →
      FaithfulOperand room row value) ∧
    ∀ left row value, Grammar.chain room left row value → (∀ kind ∈ row, kind.Lexical) →
      FaithfulChain room left row value := by
  have number (room : Nat) (value : Int64)
      (lexical : ∀ kind ∈ [Kind.number value], kind.Lexical) :
      FaithfulOperand room [.number value] (.number value.toInt .dummy) := by
    have unsigned : 0 ≤ value.toInt := lexical _ List.mem_cons_self
    have positive : ¬value.toInt < 0 := Int.not_lt.mpr unsigned
    refine ⟨?_, unsigned, ?_, fun _ => ?_⟩
    · obtain ⟨number, small, rfl⟩ := exists_ofNat unsigned
      rw [Spellable, toInt_ofNat small, Int.natAbs_natCast]
      exact small
    · show (signedKinds value.toInt).length ≤ 1
      rw [signedKinds, if_neg positive]
      exact Nat.le_refl _
    · show (if value.toInt < 0 then 1 else 0) ≤ room
      rw [if_neg positive]
      exact Nat.zero_le _
  have const (room : Nat) (name : String)
      (lexical : ∀ kind ∈ [Kind.identifier name], kind.Lexical) :
      FaithfulOperand room [.identifier name] (.const name .dummy) :=
    ⟨lexical _ List.mem_cons_self, trivial, Nat.le_refl _, fun _ => Nat.zero_le _⟩
  have done (room : Nat) (left : Expr) : FaithfulChain room left [] left :=
    ⟨id, id, Nat.le_refl _, fun _ => Nat.le_max_left _ _⟩
  induction room with
  | zero =>
    refine ⟨fun row value spelled lexical => ?_, fun left row value spelled _ => ?_⟩
    · cases spelled with
      | number => exact number 0 _ lexical
      | const => exact const 0 _ lexical
    · cases spelled
      exact done 0 left
  | succ room inductionHypothesis =>
    obtain ⟨operands, chains⟩ := inductionHypothesis
    refine ⟨fun row value spelled lexical => ?_, fun left row value spelled lexical => ?_⟩
    · cases spelled with
      | number => exact number _ _ lexical
      | const => exact const _ _ lexical
      | neg spelled => exact (operands _ _ spelled (List.forall_mem_cons.mp lexical).2).neg
      | parens spelled =>
        rw [List.forall_mem_cons, List.forall_mem_append] at lexical
        cases spelled with
        | intro first behind =>
          rw [List.forall_mem_append] at lexical
          exact .parens (.intro (operands _ _ first lexical.2.1.1)
            (chains _ _ _ behind lexical.2.1.2))
    · cases spelled with
      | done => exact done _ left
      | more right behind =>
        rw [List.forall_mem_cons, List.forall_mem_append] at lexical
        exact .more (operands _ _ right lexical.2.1) (chains _ _ _ behind lexical.2.2)

/-- Proper kinds that spell an expression are no fewer than its own. -/
theorem expr_faithful {room : Nat} {row : List Kind} {value : Expr}
    (spelled : Grammar.expr room row value) (lexical : ∀ kind ∈ row, kind.Lexical) :
    Faithful room row value := by
  obtain ⟨operands, chains⟩ := within_faithful room
  cases spelled with
  | intro first behind =>
    rw [List.forall_mem_append] at lexical
    exact .intro (operands _ _ first lexical.1) (chains _ _ _ behind lexical.2)

end Expr

end BehaviourScript
