/-
This file shows that the grammar is not ambiguous: a row of kinds has at most one
derivation. What is shown of each rule is that two derivations of it with
anything behind them, that give the same row in all, are the same and have the
same behind them. A rule that may go on needs to know that what is behind does
not go on, which is a condition on the kind that comes next.
-/

import BehaviourScript.Proofs.Derivation.Form
import BehaviourScript.Proofs.Parsing.Expr

namespace BehaviourScript

open Token

namespace Derivation

open BehaviourScript.Parser (anything endsSum)

/-! ### Rows that can be told apart -/

/-- A row says which derivation it starts with and where that ends. -/
def Readable {δ : Type} (kinds : δ → List Kind) (follow : Kind → Prop) : Prop :=
  ∀ ⦃first second : δ⦄ ⦃left right : List Kind⦄, kinds first ++ left = kinds second ++ right →
    follow (headKind left) → follow (headKind right) → first = second ∧ left = right

/-- Every row starts with a kind that passes a test. -/
def Opens {δ : Type} (kinds : δ → List Kind) (test : Kind → Prop) : Prop :=
  ∀ derivation, ∃ kind rest, kinds derivation = kind :: rest ∧ test kind

section Rows

variable {δ : Type} {kinds : δ → List Kind} {follow starts : Kind → Prop}

/-- What stands behind a row of derivations starts another one, or is behind them all. -/
theorem headKind_flatMap (opens : Opens kinds starts) (derivations : List δ) (rest : List Kind) :
    starts (headKind (derivations.flatMap kinds ++ rest)) ∨
      derivations = [] ∧ headKind (derivations.flatMap kinds ++ rest) = headKind rest := by
  cases derivations with
  | nil => exact .inr ⟨rfl, rfl⟩
  | cons first others =>
    obtain ⟨kind, behind, same, passes⟩ := opens first
    rw [List.flatMap_cons, same]
    exact .inl passes

/-- A row of items begins with an item or with what follows it. -/
theorem headKind_flatMap_ne {kind : Kind} (opens : Opens kinds starts) (derivations : List δ)
    {rest : List Kind} (item : ¬starts kind) (behind : headKind rest ≠ kind) :
    headKind (derivations.flatMap kinds ++ rest) ≠ kind := by
  rintro rfl
  rcases headKind_flatMap opens derivations rest with starting | ⟨_, same⟩
  · exact item starting
  · exact behind same.symm

/-- A row of derivations ends where no other one starts. -/
theorem Readable.many (item : Readable kinds follow) (opens : Opens kinds starts)
    (goesOn : ∀ kind, starts kind → follow kind) :
    Readable (List.flatMap kinds) (fun kind => follow kind ∧ ¬starts kind) := by
  intro first second left right same leftEnds rightEnds
  induction first generalizing second with
  | nil =>
    cases second with
    | nil => exact ⟨rfl, same⟩
    | cons other others =>
      obtain ⟨kind, behind, shape, passes⟩ := opens other
      rw [List.flatMap_nil, List.nil_append, List.flatMap_cons, shape] at same
      rw [same] at leftEnds
      exact absurd passes leftEnds.2
  | cons one rest inductionHypothesis =>
    have next (derivations : List δ) {behind : List Kind}
        (ends : follow (headKind behind) ∧ ¬starts (headKind behind)) :
        follow (headKind (derivations.flatMap kinds ++ behind)) := by
      rcases headKind_flatMap opens derivations behind with starting | ⟨_, same⟩
      · exact goesOn _ starting
      · rw [same]
        exact ends.1
    cases second with
    | nil =>
      obtain ⟨kind, behind, shape, passes⟩ := opens one
      rw [List.flatMap_nil, List.nil_append, List.flatMap_cons, shape] at same
      rw [← same] at rightEnds
      exact absurd passes rightEnds.2
    | cons other others =>
      rw [List.flatMap_cons, List.flatMap_cons, List.append_assoc, List.append_assoc] at same
      obtain ⟨rfl, behind⟩ := item same (next rest leftEnds) (next others rightEnds)
      obtain ⟨rfl, last⟩ := inductionHypothesis behind
      exact ⟨rfl, last⟩

/-- The same for derivations that anything may stand behind. -/
theorem Readable.row (item : Readable kinds anything) (opens : Opens kinds starts) :
    Readable (List.flatMap kinds) (fun kind => ¬starts kind) := by
  intro first second left right same leftEnds rightEnds
  exact item.many opens (fun _ _ => trivial) same ⟨trivial, leftEnds⟩ ⟨trivial, rightEnds⟩

/-- What may be absent is there if its first kind is. -/
theorem Readable.given {mark : Kind} {row : Option δ → List Kind} (item : Readable kinds anything)
    (absent : row none = [])
    (present : ∀ derivation, row (some derivation) = mark :: kinds derivation) :
    Readable row (· ≠ mark) := by
  intro first second left right same leftEnds rightEnds
  cases first with
  | none =>
    cases second with
    | none =>
      rw [absent] at same
      exact ⟨rfl, same⟩
    | some other =>
      rw [absent, present, List.nil_append] at same
      rw [same] at leftEnds
      exact absurd rfl leftEnds
  | some one =>
    cases second with
    | none =>
      rw [absent, present, List.nil_append] at same
      rw [← same] at rightEnds
      exact absurd rfl rightEnds
    | some other =>
      rw [present, present, List.cons_append, List.cons_append, List.cons.injEq] at same
      obtain ⟨rfl, last⟩ := item same.2 trivial trivial
      exact ⟨rfl, last⟩

/-- What may be empty ends with the parenthesis that closes it, if it does not start with one. -/
theorem Readable.closed (empty : δ) (absent : kinds empty = [])
    (opens : ∀ derivation, derivation ≠ empty →
      ∃ kind rest, kinds derivation = kind :: rest ∧ kind ≠ .punct .rightParen)
    (present : ∀ ⦃first second : δ⦄ ⦃left right : List Kind⦄, first ≠ empty → second ≠ empty →
      kinds first ++ .punct .rightParen :: left = kinds second ++ .punct .rightParen :: right →
      first = second ∧ left = right) :
    Readable (fun derivation => kinds derivation ++ [.punct .rightParen]) anything := by
  intro first second left right same _ _
  simp only [List.append_assoc, List.cons_append, List.nil_append] at same
  by_cases firstEmpty : first = empty
  · subst firstEmpty
    by_cases secondEmpty : second = first
    · subst secondEmpty
      rw [absent, List.nil_append, List.nil_append] at same
      exact ⟨rfl, (List.cons.inj same).2⟩
    · obtain ⟨kind, rest, shape, different⟩ := opens second secondEmpty
      rw [absent, shape] at same
      exact absurd (List.cons.inj same).1.symm different
  · by_cases secondEmpty : second = empty
    · subst secondEmpty
      obtain ⟨kind, rest, shape, different⟩ := opens first firstEmpty
      rw [absent, shape] at same
      exact absurd (List.cons.inj same).1 different
    · exact present firstEmpty secondEmpty same

/-- A list in parentheses ends with the parenthesis that closes it. -/
theorem Readable.listed (item : Readable kinds follow)
    (opens : Opens kinds (· ≠ .punct .rightParen)) (comma : follow (.punct .comma))
    (close : follow (.punct .rightParen)) :
    Readable (fun derivations : List δ => listedKinds (derivations.map kinds)) anything := by
  have afterComma : Readable (fun derivation => .punct .comma :: kinds derivation) follow := by
    intro first second left right same leftEnds rightEnds
    exact item (List.cons.inj same).2 leftEnds rightEnds
  have starts : Opens (fun derivation => .punct .comma :: kinds derivation)
      (· = .punct .comma) := fun derivation => ⟨_, _, rfl, rfl⟩
  have goesOn : ∀ kind, kind = .punct .comma → follow kind := fun _ same => same ▸ comma
  have next (derivations : List δ) (rest : List Kind) : follow (headKind
      (derivations.flatMap (fun derivation => .punct .comma :: kinds derivation) ++
        .punct .rightParen :: rest)) := by
    rcases headKind_flatMap starts derivations (.punct .rightParen :: rest) with
      starting | ⟨_, same⟩
    · exact goesOn _ starting
    · rw [same]
      exact close
  refine Readable.closed [] rfl ?_ ?_
  · rintro (_ | ⟨one, rest⟩) nonempty
    · exact absurd rfl nonempty
    · obtain ⟨kind, behind, shape, different⟩ := opens one
      exact ⟨kind, _, by rw [List.map_cons, commaKinds, shape, List.cons_append], different⟩
  · rintro (_ | ⟨one, rest⟩) (_ | ⟨other, others⟩) left right firstNonempty secondNonempty same
    · exact absurd rfl firstNonempty
    · exact absurd rfl firstNonempty
    · exact absurd rfl secondNonempty
    simp only [List.map_cons, commaKinds, List.flatMap_map, List.append_assoc] at same
    obtain ⟨rfl, behind⟩ := item same (next rest left) (next others right)
    have stops (rest : List Kind) :
        headKind (.punct .rightParen :: rest) ≠ .punct .comma := fun same => by cases same
    obtain ⟨rfl, last⟩ := afterComma.many starts goesOn behind ⟨close, stops left⟩
      ⟨close, stops right⟩
    exact ⟨rfl, (List.cons.inj last).2⟩

/-- What may stand in front of a parenthesis is told by the parenthesis. -/
theorem Readable.optional (item : Readable kinds follow)
    (opens : Opens kinds (· ≠ .punct .rightParen)) (close : follow (.punct .rightParen)) :
    Readable (fun derivation : Option δ => optionalKinds (derivation.map kinds)) anything := by
  refine Readable.closed none rfl ?_ ?_
  · rintro (_ | one) given
    · exact absurd rfl given
    · exact opens one
  · rintro (_ | one) (_ | other) left right firstGiven secondGiven same
    · exact absurd rfl firstGiven
    · exact absurd rfl firstGiven
    · exact absurd rfl secondGiven
    obtain ⟨rfl, last⟩ := item same close close
    exact ⟨rfl, (List.cons.inj last).2⟩

end Rows

/-! ### Sums -/

theorem mark_injective {first second : BinOp} (same : first.mark = second.mark) :
    first = second := by
  cases first with
  | add =>
    cases second with
    | add => rfl
    | sub => cases same
  | sub =>
    cases second with
    | add => cases same
    | sub => rfl

mutual

/-- An operand is told by its kinds, whatever follows it. The recursion is on the operand, together
with that of sums and chains. -/
theorem Unary.kinds_readable : (first second : Unary) → {left right : List Kind} →
    first.kinds ++ left = second.kinds ++ right → first = second ∧ left = right
  | .neg operand, second, left, right, same => by
    cases second with
    | neg other =>
      simp only [Unary.kinds, List.cons_append, List.cons.injEq, true_and] at same
      obtain ⟨rfl, last⟩ := operand.kinds_readable other same
      exact ⟨rfl, last⟩
    | _ => simp [Unary.kinds] at same
  | .number value, second, left, right, same => by
    cases second with
    | number other =>
      simp only [Unary.kinds, List.cons_append, List.nil_append, List.cons.injEq,
        Kind.number.injEq] at same
      exact ⟨by rw [same.1], same.2⟩
    | _ => simp [Unary.kinds] at same
  | .const name, second, left, right, same => by
    cases second with
    | const other =>
      simp only [Unary.kinds, List.cons_append, List.nil_append, List.cons.injEq,
        Kind.identifier.injEq] at same
      exact ⟨by rw [same.1], same.2⟩
    | _ => simp [Unary.kinds] at same
  | .parens operand others, second, left, right, same => by
    cases second with
    | parens other behind =>
      simp only [Unary.kinds, List.cons_append, List.append_assoc, List.nil_append,
        List.cons.injEq, true_and] at same
      obtain ⟨rfl, afterFirst⟩ := operand.kinds_readable other same
      obtain ⟨rfl, last⟩ := others.kinds_readable behind afterFirst rfl rfl
      exact ⟨rfl, (List.cons.inj last).2⟩
    | _ => simp [Unary.kinds] at same

/-- The further operands of a sum are told by their kinds, if what follows them does not go on with
the sum. -/
theorem Chain.kinds_readable : (first second : Chain) → {left right : List Kind} →
    first.kinds ++ left = second.kinds ++ right → endsSum (headKind left) →
    endsSum (headKind right) → first = second ∧ left = right
  | .done, second, left, right, same, leftEnds, rightEnds => by
    cases second with
    | done => exact ⟨rfl, same⟩
    | more op operand others =>
      rw [Chain.kinds, Chain.kinds, List.nil_append, List.cons_append] at same
      rw [same] at leftEnds
      cases op <;> exact nomatch leftEnds
  | .more op operand others, second, left, right, same, leftEnds, rightEnds => by
    cases second with
    | done =>
      rw [Chain.kinds, Chain.kinds, List.nil_append, List.cons_append] at same
      rw [← same] at rightEnds
      cases op <;> exact nomatch rightEnds
    | more other operand' others' =>
      simp only [Chain.kinds, List.cons_append, List.append_assoc, List.cons.injEq,
        Kind.punct.injEq] at same
      obtain ⟨mark, same⟩ := same
      obtain rfl := mark_injective mark
      obtain ⟨rfl, afterOperand⟩ := operand.kinds_readable operand' same
      obtain ⟨rfl, last⟩ := others.kinds_readable others' afterOperand leftEnds rightEnds
      exact ⟨rfl, last⟩

end

/-- A sum is told by its kinds, if what follows it does not go on with it. -/
theorem Sum.kinds_readable : Readable Sum.kinds endsSum := by
  rintro ⟨first, others⟩ ⟨second, behind⟩ left right same leftEnds rightEnds
  rw [Sum.kinds, Sum.kinds, List.append_assoc, List.append_assoc] at same
  obtain ⟨rfl, afterFirst⟩ := first.kinds_readable second same
  obtain ⟨rfl, last⟩ := others.kinds_readable behind afterFirst leftEnds rightEnds
  exact ⟨rfl, last⟩

theorem Unary.kinds_opens : Opens Unary.kinds (· ≠ .punct .rightParen) := by
  intro unary
  cases unary <;>
    rw [Unary.kinds] <;>
    exact ⟨_, _, rfl, nofun⟩

theorem Sum.kinds_opens : Opens Sum.kinds (· ≠ .punct .rightParen) := by
  intro sum
  obtain ⟨kind, rest, same, passes⟩ := Unary.kinds_opens sum.first
  exact ⟨kind, rest ++ sum.others.kinds, by rw [Sum.kinds, same, List.cons_append], passes⟩

/-! ### Attributes -/

/-- A reference is told by its kinds. -/
theorem Reference.kinds_readable : Readable Reference.kinds anything := by
  intro first second left right same _ _
  cases first <;> cases second <;>
    simp only [Reference.kinds, List.cons_append, List.nil_append, List.cons.injEq, true_and,
      Kind.number.injEq, Kind.identifier.injEq, reduceCtorEq, false_and] at same
  all_goals
    obtain ⟨rfl, last⟩ := same
    exact ⟨rfl, last⟩

theorem Reference.kinds_opens : Opens Reference.kinds (· ≠ .punct .rightParen) := by
  intro reference
  cases reference <;> exact ⟨_, _, rfl, nofun⟩

theorem Assign.kinds_readable : Readable Assign.kinds endsSum := by
  rintro ⟨name, value⟩ ⟨other, value'⟩ left right same leftEnds rightEnds
  simp only [Assign.kinds, List.cons_append, List.cons.injEq, true_and, Kind.identifier.injEq]
    at same
  obtain ⟨rfl, same⟩ := same
  obtain ⟨rfl, last⟩ := Sum.kinds_readable same leftEnds rightEnds
  exact ⟨rfl, last⟩

theorem Assign.kinds_opens : Opens Assign.kinds (· ≠ .punct .rightParen) :=
  fun _ => ⟨_, _, rfl, nofun⟩

/-- A kind that does not go on with a sum and does not make an assignment of a name. -/
def endsArgument (kind : Kind) : Prop := endsSum kind ∧ kind ≠ .punct .equals

/-- A sum that starts with a name does not go on like an assignment. -/
theorem Sum.kinds_ne_assign {sum : Sum} {name : String} {left right : List Kind}
    (ends : headKind left ≠ .punct .equals) :
    sum.kinds ++ left ≠ .identifier name :: .punct .equals :: right := by
  obtain ⟨first, others⟩ := sum
  intro same
  cases first with
  | const other =>
    simp only [Sum.kinds, Unary.kinds, List.cons_append, List.nil_append, List.cons.injEq] at same
    cases others with
    | done =>
      rw [Chain.kinds, List.nil_append] at same
      rw [same.2] at ends
      exact ends rfl
    | more op operand others =>
      simp only [Chain.kinds, List.cons_append, List.cons.injEq, Kind.punct.injEq] at same
      cases op <;> exact nomatch same.2.1
  | _ => simp [Sum.kinds, Unary.kinds] at same

/-- A named value is told from an expression by its second kind. -/
theorem Argument.kinds_readable : Readable Argument.kinds endsArgument := by
  intro first second left right same leftEnds rightEnds
  cases first with
  | named assign =>
    cases second with
    | named other =>
      obtain ⟨rfl, last⟩ := Assign.kinds_readable same leftEnds.1 rightEnds.1
      exact ⟨rfl, last⟩
    | plain other => exact absurd same.symm (Sum.kinds_ne_assign rightEnds.2)
  | plain value =>
    cases second with
    | named other => exact absurd same (Sum.kinds_ne_assign leftEnds.2)
    | plain other =>
      obtain ⟨rfl, last⟩ := Sum.kinds_readable same leftEnds.1 rightEnds.1
      exact ⟨rfl, last⟩

theorem Argument.kinds_opens : Opens Argument.kinds (· ≠ .punct .rightParen) := by
  intro argument
  cases argument with
  | named assign => exact Assign.kinds_opens assign
  | plain value => exact Sum.kinds_opens value

theorem Attribute.argumentKinds_readable :
    Readable Attribute.argumentKinds (· ≠ .punct .leftParen) := by
  have listed := Argument.kinds_readable.listed Argument.kinds_opens ⟨rfl, nofun⟩ ⟨rfl, nofun⟩
  exact listed.given rfl fun _ => rfl

/-- An attribute is told by its kinds. -/
theorem Attribute.kinds_readable : Readable Attribute.kinds anything := by
  rintro ⟨name, arguments⟩ ⟨other, arguments'⟩ left right same _ _
  simp only [Attribute.kinds, List.cons_append, List.append_assoc, List.nil_append,
    List.cons.injEq, true_and, Kind.identifier.injEq] at same
  obtain ⟨rfl, same⟩ := same
  obtain ⟨rfl, last⟩ := Attribute.argumentKinds_readable same nofun nofun
  exact ⟨rfl, (List.cons.inj last).2⟩

theorem Attribute.kinds_opens : Opens Attribute.kinds (· = .punct .leftBracket) :=
  fun _ => ⟨_, _, rfl, rfl⟩

theorem attributes_readable :
    Readable (List.flatMap Attribute.kinds) (· ≠ .punct .leftBracket) :=
  Attribute.kinds_readable.row Attribute.kinds_opens

/-- What has attributes in front starts with a bracket or with itself. -/
theorem attributes_opens {attributes : List Attribute} (kind : Kind) (rest : List Kind) :
    ∃ first behind, attributes.flatMap Attribute.kinds ++ kind :: rest = first :: behind ∧
      (first = .punct .leftBracket ∨ first = kind) := by
  cases attributes with
  | nil => exact ⟨_, _, rfl, .inr rfl⟩
  | cons attr others => exact ⟨_, _, rfl, .inl rfl⟩

/-! ### Commands and states -/

theorem ConstDecl.kinds_readable : Readable ConstDecl.kinds anything := by
  rintro ⟨name, value⟩ ⟨other, value'⟩ left right same _ _
  simp only [ConstDecl.kinds, List.cons_append, List.append_assoc, List.nil_append,
    List.cons.injEq, true_and, Kind.identifier.injEq] at same
  obtain ⟨rfl, same⟩ := same
  obtain ⟨rfl, last⟩ := Sum.kinds_readable same rfl rfl
  exact ⟨rfl, (List.cons.inj last).2⟩

theorem consts_readable : Readable (List.flatMap ConstDecl.kinds) (· ≠ .keyword .const) :=
  ConstDecl.kinds_readable.row fun _ => ⟨_, _, rfl, rfl⟩

/-- A command is told by its kinds. -/
theorem Command.kinds_readable : Readable Command.kinds anything := by
  have listed := Sum.kinds_readable.listed Sum.kinds_opens rfl rfl
  rintro ⟨name, args⟩ ⟨other, args'⟩ left right same _ _
  simp only [Command.kinds, List.cons_append, List.append_assoc, List.nil_append,
    List.cons.injEq, true_and, Kind.identifier.injEq] at same
  obtain ⟨rfl, same⟩ := same
  obtain ⟨rfl, last⟩ := listed same trivial trivial
  exact ⟨rfl, (List.cons.inj last).2⟩

theorem Command.kinds_opens : Opens Command.kinds (fun kind => ∃ name, kind = .identifier name) :=
  fun command => ⟨_, _, rfl, command.name, rfl⟩

theorem commands_readable :
    Readable (List.flatMap Command.kinds) (fun kind => ¬∃ name, kind = .identifier name) :=
  Command.kinds_readable.row Command.kinds_opens

/-- A condition is told by its kinds. -/
theorem Condition.kinds_readable : Readable Condition.kinds anything := by
  have optional := Sum.kinds_readable.optional Sum.kinds_opens rfl
  rintro ⟨negated, name, parameter⟩ ⟨otherNegated, other, otherParameter⟩ left right same _ _
  obtain rfl : negated = otherNegated := by
    cases negated with
    | true =>
      cases otherNegated with
      | true => rfl
      | false => cases same
    | false =>
      cases otherNegated with
      | true => cases same
      | false => rfl
  simp only [Condition.kinds, List.append_assoc, List.append_cancel_left_eq, List.cons_append,
    List.cons.injEq, true_and, Kind.identifier.injEq] at same
  obtain ⟨rfl, same⟩ := same
  obtain ⟨rfl, last⟩ := optional same trivial trivial
  exact ⟨rfl, last⟩

theorem Body.guardKinds_readable : Readable Body.guardKinds anything := by
  intro first second left right same _ _
  cases first with
  | none =>
    cases second with
    | none => exact ⟨rfl, (List.cons.inj same).2⟩
    | some condition => exact nomatch same
  | some condition =>
    cases second with
    | none => exact nomatch same
    | some other =>
      obtain ⟨rfl, last⟩ := Condition.kinds_readable (List.cons.inj same).2 trivial trivial
      exact ⟨rfl, last⟩

theorem jumpKinds_readable : Readable StateBody.jumpKinds (· ≠ .keyword .goto) := by
  have target : Readable (fun state => [.identifier state, .punct .semicolon]) anything := by
    intro first second left right same _ _
    cases same
    exact ⟨rfl, rfl⟩
  exact target.given rfl fun _ => rfl

/-- A body is told by its kinds. -/
theorem Body.kinds_readable : Readable Body.kinds anything := by
  have word (jump : Option String) (rest : List Kind) : ¬∃ name,
      headKind (StateBody.jumpKinds jump ++ .punct .rightBrace :: rest) = .identifier name := by
    cases jump <;> rintro ⟨_, ⟨⟩⟩
  rintro ⟨condition, commands, jump⟩ ⟨condition', commands', jump'⟩ left right same _ _
  simp only [Body.kinds, List.cons_append, List.append_assoc, List.nil_append] at same
  obtain ⟨rfl, afterGuard⟩ := Body.guardKinds_readable same trivial trivial
  obtain ⟨rfl, afterCommands⟩ := commands_readable (List.cons.inj afterGuard).2
    (word jump left) (word jump' right)
  obtain ⟨rfl, last⟩ := jumpKinds_readable afterCommands nofun nofun
  exact ⟨rfl, (List.cons.inj last).2⟩

theorem Body.kinds_opens :
    Opens Body.kinds (fun kind => kind = .keyword .if ∨ kind = .keyword .do) := by
  rintro ⟨condition, commands, jump⟩
  cases condition with
  | none => exact ⟨_, _, rfl, .inr rfl⟩
  | some condition => exact ⟨_, _, rfl, .inl rfl⟩

/-- A state is told by its kinds. -/
theorem State.kinds_readable : Readable State.kinds anything := by
  have optional := Reference.kinds_readable.optional Reference.kinds_opens trivial
  rintro ⟨attributes, name, target, bodies⟩ ⟨attributes', other, target', bodies'⟩ left right same
    _ _
  simp only [State.kinds, List.cons_append, List.append_assoc, List.nil_append] at same
  obtain ⟨rfl, afterAttributes⟩ := attributes_readable same nofun nofun
  simp only [List.cons.injEq, true_and, Kind.identifier.injEq] at afterAttributes
  obtain ⟨rfl, afterName⟩ := afterAttributes
  obtain ⟨rfl, afterTarget⟩ := optional afterName trivial trivial
  obtain ⟨rfl, last⟩ := Body.kinds_readable.row Body.kinds_opens (List.cons.inj afterTarget).2
    (by nofun) (by nofun)
  exact ⟨rfl, (List.cons.inj last).2⟩

theorem State.kinds_opens :
    Opens State.kinds (fun kind => kind = .punct .leftBracket ∨ kind = .keyword .state) :=
  fun _ => attributes_opens _ _

/-! ### Whole scripts -/

theorem Assigner.fieldKinds_readable : Readable Assigner.fieldKinds (· ≠ .punct .leftParen) := by
  have listed := Assign.kinds_readable.listed Assign.kinds_opens rfl rfl
  intro first second left right same leftEnds rightEnds
  cases first with
  | nil =>
    cases second with
    | nil => exact ⟨rfl, same⟩
    | cons field others =>
      cases same
      exact absurd rfl leftEnds
  | cons field others =>
    cases second with
    | nil =>
      cases same
      exact absurd rfl rightEnds
    | cons other behind => exact listed (List.cons.inj same).2 trivial trivial

theorem Assigner.kinds_readable : Readable Assigner.kinds anything := by
  rintro ⟨object, fields⟩ ⟨object', fields'⟩ left right same _ _
  simp only [Assigner.kinds, List.cons_append, List.append_assoc, List.nil_append,
    List.cons.injEq, true_and] at same
  obtain ⟨rfl, afterObject⟩ := Reference.kinds_readable same trivial trivial
  obtain ⟨rfl, last⟩ := Assigner.fieldKinds_readable afterObject nofun nofun
  exact ⟨rfl, (List.cons.inj last).2⟩

/-- A starter is told by its kinds. -/
theorem Starter.kinds_readable : Readable Starter.kinds anything := by
  have opens : Opens Assigner.kinds (· = .keyword .assign) := fun _ => ⟨_, _, rfl, rfl⟩
  rintro ⟨row⟩ ⟨row'⟩ left right same _ _
  simp only [Starter.kinds, List.cons_append, List.append_assoc, List.nil_append,
    List.cons.injEq, true_and] at same
  obtain ⟨rfl, last⟩ := Assigner.kinds_readable.row opens same nofun nofun
  exact ⟨rfl, (List.cons.inj last).2⟩

theorem Starter.kinds_opens : Opens Starter.kinds (· = .keyword .starter) :=
  fun _ => ⟨_, _, rfl, rfl⟩

theorem setup_readable :
    Readable (fun starter : Option Starter => starter.toList.flatMap Starter.kinds)
      (· ≠ .keyword .starter) := by
  intro first second left right same leftEnds rightEnds
  obtain ⟨starters, last⟩ := Starter.kinds_readable.row Starter.kinds_opens same leftEnds rightEnds
  exact ⟨by simpa using congrArg List.head? starters, last⟩

/-- The states of a behaviour end its starter. -/
theorem headKind_states (states : List State) (rest : List Kind) :
    headKind (states.flatMap State.kinds ++ .punct .rightBrace :: rest) ≠ .keyword .starter :=
  headKind_flatMap_ne State.kinds_opens states (by nofun) (by nofun)

/-- The starter and the states of a behaviour end its constants. -/
theorem headKind_setup (starter : Option Starter) (states : List State) (rest : List Kind) :
    headKind (starter.toList.flatMap Starter.kinds ++
      (states.flatMap State.kinds ++ .punct .rightBrace :: rest)) ≠ .keyword .const :=
  headKind_flatMap_ne Starter.kinds_opens starter.toList (by nofun)
    (headKind_flatMap_ne State.kinds_opens states (by nofun) (by nofun))

theorem Behaviour.bodyKinds_readable {first second : Behaviour} {left right : List Kind}
    (attributes : first.attributes = second.attributes)
    (same : first.bodyKinds ++ left = second.bodyKinds ++ right) :
    first = second ∧ left = right := by
  obtain ⟨row, name, consts, starter, state, states⟩ := first
  obtain ⟨row', name', consts', starter', state', states'⟩ := second
  obtain rfl : row = row' := attributes
  simp only [Behaviour.bodyKinds, List.cons_append, List.append_assoc, List.nil_append,
    List.cons.injEq, true_and, Kind.identifier.injEq] at same
  obtain ⟨rfl, same⟩ := same
  obtain ⟨rfl, afterConsts⟩ := consts_readable same (headKind_setup starter (state :: states) _)
    (headKind_setup starter' (state' :: states') _)
  obtain ⟨rfl, afterStarter⟩ := setup_readable afterConsts (headKind_states (state :: states) _)
    (headKind_states (state' :: states') _)
  obtain ⟨sameStates, last⟩ := State.kinds_readable.row State.kinds_opens afterStarter
    (by nofun) (by nofun)
  obtain ⟨rfl, rfl⟩ := List.cons.inj sameStates
  exact ⟨rfl, (List.cons.inj last).2⟩

/-- A behaviour is told by its kinds. -/
theorem Behaviour.kinds_readable : Readable Behaviour.kinds anything := by
  intro first second left right same _ _
  rw [Behaviour.kinds, Behaviour.kinds, List.append_assoc, List.append_assoc] at same
  obtain ⟨attributes, body⟩ := attributes_readable same nofun nofun
  exact Behaviour.bodyKinds_readable attributes body

theorem Behaviour.kinds_opens :
    Opens Behaviour.kinds (fun kind => kind = .punct .leftBracket ∨ kind = .keyword .behaviour) :=
  fun _ => attributes_opens _ _

/-- A library is told by its kinds, behind its attributes. -/
theorem Library.bodyKinds_injective {first second : Library}
    (attributes : first.attributes = second.attributes)
    (same : first.bodyKinds = second.bodyKinds) : first = second := by
  have next (row : List Behaviour) :
      headKind (row.flatMap Behaviour.kinds ++ [.punct .rightBrace]) ≠ .keyword .const :=
    headKind_flatMap_ne Behaviour.kinds_opens row (by nofun) (by nofun)
  obtain ⟨row, name, consts, content⟩ := first
  obtain ⟨row', name', consts', content'⟩ := second
  obtain rfl : row = row' := attributes
  simp only [Library.bodyKinds, List.cons.injEq, true_and, Kind.identifier.injEq] at same
  obtain ⟨rfl, same⟩ := same
  obtain ⟨rfl, afterConsts⟩ := consts_readable same (next content) (next content')
  obtain ⟨rfl, _⟩ := Behaviour.kinds_readable.row Behaviour.kinds_opens afterConsts (by nofun)
    (by nofun)
  rfl

theorem Pack.kinds_readable : Readable Pack.kinds anything := by
  rintro ⟨script, commands⟩ ⟨script', commands'⟩ left right same _ _
  simp only [Pack.kinds, List.cons_append, List.append_assoc, List.nil_append, List.cons.injEq,
    true_and] at same
  obtain ⟨rfl, afterScript⟩ := Reference.kinds_readable same trivial trivial
  simp only [List.cons.injEq, true_and] at afterScript
  obtain ⟨rfl, last⟩ := commands_readable afterScript (by nofun) (by nofun)
  exact ⟨rfl, (List.cons.inj last).2⟩

/-- A sequence is told by its kinds, behind its attributes. -/
theorem Sequence.bodyKinds_injective {first second : Sequence}
    (attributes : first.attributes = second.attributes)
    (same : first.bodyKinds = second.bodyKinds) : first = second := by
  have opens : Opens Pack.kinds (· = .keyword .pack) := fun _ => ⟨_, _, rfl, rfl⟩
  have afterPacks (row : List Command) :
      headKind (row.flatMap Command.kinds ++ [.punct .rightBrace]) ≠ .keyword .pack :=
    headKind_flatMap_ne Command.kinds_opens row (by nofun) (by nofun)
  have afterConsts (row : List Pack) (commands : List Command) :
      headKind (row.flatMap Pack.kinds ++
        (commands.flatMap Command.kinds ++ [.punct .rightBrace])) ≠ .keyword .const :=
    headKind_flatMap_ne opens row (by nofun)
      (headKind_flatMap_ne Command.kinds_opens commands (by nofun) (by nofun))
  obtain ⟨row, name, consts, content, commands⟩ := first
  obtain ⟨row', name', consts', content', commands'⟩ := second
  obtain rfl : row = row' := attributes
  simp only [Sequence.bodyKinds, List.cons.injEq, true_and, Kind.identifier.injEq] at same
  obtain ⟨rfl, same⟩ := same
  obtain ⟨rfl, samePacks⟩ := consts_readable same (afterConsts content commands)
    (afterConsts content' commands')
  obtain ⟨rfl, sameCommands⟩ := Pack.kinds_readable.row opens samePacks (afterPacks commands)
    (afterPacks commands')
  obtain ⟨rfl, _⟩ := commands_readable sameCommands (by nofun) (by nofun)
  rfl

/-- A row of kinds has one derivation at most. -/
theorem Root.kinds_injective {first second : Root} (same : first.kinds = second.kinds) :
    first = second := by
  have next (root : Root) : headKind root.bodyKinds ≠ .punct .leftBracket := by
    cases root <;> exact nofun
  obtain ⟨attributes, body⟩ := attributes_readable same (next first) (next second)
  cases first with
  | library content =>
    cases second with
    | library other => rw [Library.bodyKinds_injective attributes body]
    | behaviour other => exact nomatch body
    | sequence other => exact nomatch body
  | behaviour content =>
    cases second with
    | library other => exact nomatch body
    | behaviour other =>
      rw [(Behaviour.bodyKinds_readable attributes (congrArg (· ++ []) body)).1]
    | sequence other => exact nomatch body
  | sequence content =>
    cases second with
    | library other => exact nomatch body
    | behaviour other => exact nomatch body
    | sequence other => rw [Sequence.bodyKinds_injective attributes body]

end Derivation

end BehaviourScript
