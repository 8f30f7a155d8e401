/-
This file relates readers of tokens to phrases of the grammar. A reader reads a
phrase if it gives a value exactly for the rows of kinds that spell the value:
what it gives, up to spans, is spelled by what it passed, and from a cursor that
stands in front of a spelling it passes that spelling and no more. A reader that
goes on as long as it can needs to know that what follows does not go on, which
is the condition on the kind that comes next.

The small readers come first, then those that repeat others.
-/

import BehaviourScript.Proofs.Grammar
import BehaviourScript.Proofs.Tree

namespace BehaviourScript

open Token

/-! ### The kinds to come -/

/-- The kind at the front of a row; an empty row counts as the end mark. -/
def headKind : List Kind → Kind
  | [] => .eof
  | kind :: _ => kind

@[simp] theorem headKind_cons (kind : Kind) (rest : List Kind) :
    headKind (kind :: rest) = kind := rfl

/-- What comes next is found in front of what follows. -/
theorem headKind_append {kinds : List Kind} (nonempty : kinds ≠ []) (rest : List Kind) :
    headKind (kinds ++ rest) = headKind kinds := by
  cases kinds with
  | nil => exact absurd rfl nonempty
  | cons kind others => rfl

namespace Cursor

/-- The kinds of the tokens to come. -/
def kinds (cursor : Cursor) : List Kind := cursor.rest.map Token.kind

theorem kind_eq (cursor : Cursor) : cursor.kind = headKind cursor.kinds := by
  unfold kind kinds
  cases cursor.rest with
  | nil => rfl
  | cons token rest => rfl

theorem nextKind_eq (cursor : Cursor) : cursor.nextKind = headKind cursor.kinds.tail := by
  unfold nextKind kinds
  split
  · next shape => rw [shape]; rfl
  · next short =>
    match shape : cursor.rest with
    | [] => rfl
    | [token] => rfl
    | first :: second :: others => exact (short first second others shape).elim

theorem remaining_eq (cursor : Cursor) : cursor.remaining = cursor.kinds.length := by
  rw [cursor.counted, kinds, List.length_map]

theorem isAt_iff {cursor : Cursor} {kind : Kind} :
    cursor.isAt kind = true ↔ headKind cursor.kinds = kind := by
  rw [isAt, beq_iff_eq, kind_eq]

/-- The kinds that lie between two cursors at the same nesting. The end mark is
never passed. -/
structure Passes (cursor : Cursor) (passed : List Kind) (next : Cursor) : Prop where
  kinds : cursor.kinds = passed ++ next.kinds
  proper : .eof ∉ passed
  depth : next.depth = cursor.depth

theorem Passes.refl (cursor : Cursor) : cursor.Passes [] cursor := ⟨rfl, nofun, rfl⟩

/-- Passing one row of kinds and then another passes both. -/
theorem Passes.trans {first second third : Cursor} {left right : List Kind}
    (before : first.Passes left second) (behind : second.Passes right third) :
    first.Passes (left ++ right) third where
  kinds := by rw [before.kinds, behind.kinds, List.append_assoc]
  proper := by
    rw [List.mem_append]
    exact fun marked => marked.elim before.proper behind.proper
  depth := behind.depth.trans before.depth

/-- Behind the kinds that are passed stands the rest. -/
theorem Passes.rest {cursor next : Cursor} {passed rest : List Kind}
    (passes : cursor.Passes passed next) (start : cursor.kinds = passed ++ rest) :
    next.kinds = rest :=
  List.append_cancel_left (passes.kinds.symm.trans start)

/-- The levels of nesting that are left stay the same. -/
theorem Passes.deep {cursor next : Cursor} {passed : List Kind} {room : Nat}
    (passes : cursor.Passes passed next) (deep : cursor.depth + room = nestingLimit) :
    next.depth + room = nestingLimit := by
  rw [passes.depth]
  exact deep

/-- A token that is not the end mark is passed. -/
theorem passes_advance {cursor : Cursor} {kind : Kind} (head : headKind cursor.kinds = kind)
    (proper : kind ≠ .eof) : cursor.Passes [kind] cursor.advance := by
  unfold kinds at head
  unfold advance
  split
  · next token rest shape =>
    rw [shape] at head
    have same : token.kind = kind := head
    rw [if_neg (by rw [same]; exact proper)]
    refine ⟨?_, fun marked => proper (List.mem_singleton.mp marked).symm, rfl⟩
    show cursor.rest.map Token.kind = [kind] ++ rest.map Token.kind
    rw [shape, List.map_cons, same]
    rfl
  · next shape =>
    rw [shape] at head
    exact absurd head.symm proper

end Cursor

namespace Parser

/-! ### Running readers -/

variable {α β : Type} {cursor next : Cursor}

/-- Two readers in turn succeed if the first does and the second does where the first has
stopped. -/
theorem bind_eq_ok {reader : Parser α} {continuation : α → Parser β} {value : β} :
    (reader >>= continuation) cursor = .ok value next ↔
      ∃ first middle, reader cursor = .ok first middle ∧
        continuation first middle = .ok value next := by
  show EStateM.bind reader continuation cursor = _ ↔ _
  unfold EStateM.bind
  cases outcome : reader cursor with
  | ok first middle =>
    constructor
    · intro run
      exact ⟨first, middle, rfl, run⟩
    · rintro ⟨_, _, ⟨⟩, run⟩
      exact run
  | error error middle =>
    constructor
    · intro run
      cases run
    · rintro ⟨_, _, ⟨⟩, _⟩

theorem map_eq_ok {reader : Parser α} {change : α → β} {value : β} :
    (change <$> reader) cursor = .ok value next ↔
      ∃ first, reader cursor = .ok first next ∧ change first = value := by
  show EStateM.map change reader cursor = _ ↔ _
  unfold EStateM.map
  cases outcome : reader cursor with
  | ok first middle =>
    constructor
    · rintro ⟨⟩
      exact ⟨first, rfl, rfl⟩
    · rintro ⟨_, ⟨⟩, rfl⟩
      rfl
  | error error middle =>
    constructor
    · intro run
      cases run
    · rintro ⟨_, ⟨⟩, _⟩

theorem seqRight_eq_ok {reader : Parser α} {second : Parser β} {value : β} :
    (reader *> second) cursor = .ok value next ↔
      ∃ first middle, reader cursor = .ok first middle ∧ second middle = .ok value next :=
  bind_eq_ok

theorem pure_eq_ok {first value : α} :
    (pure first : Parser α) cursor = .ok value next ↔ first = value ∧ cursor = next := by
  show EStateM.Result.ok first cursor = _ ↔ _
  rw [EStateM.Result.ok.injEq]

theorem look_eq_ok {view : Cursor → α} {value : α} :
    look view cursor = .ok value next ↔ view cursor = value ∧ cursor = next := by
  rw [look, EStateM.Result.ok.injEq]

theorem fail_ne_ok {error : Cursor → ParseError} {value : α} :
    fail error cursor = .ok value next ↔ False := by
  rw [fail]
  exact iff_of_false nofun id

theorem failExpected_ne_ok {what : String} {value : α} :
    failExpected what cursor = .ok value next ↔ False :=
  fail_ne_ok

theorem lift_eq_ok {outcome : Except ParseError α} {value : α} :
    lift outcome cursor = .ok value next ↔ outcome = .ok value ∧ cursor = next := by
  cases outcome with
  | ok first =>
    rw [lift, EStateM.Result.ok.injEq, Except.ok.injEq]
  | error error =>
    rw [lift]
    exact iff_of_false nofun nofun

/-- A choice between readers is made before what follows them is read. -/
theorem ite_bind (test : Prop) [Decidable test] (yes no : Parser α)
    (continuation : α → Parser β) :
    (if test then yes else no) >>= continuation =
      if test then yes >>= continuation else no >>= continuation := by
  split <;> rfl

/-! ### Single tokens -/

theorem advance_eq_ok {value : Unit} :
    advance cursor = .ok value next ↔ cursor.advance = next := by
  rw [advance, EStateM.Result.ok.injEq]
  exact and_iff_right rfl

/-- A kind that is expected and found is passed. -/
theorem expect_sound {kind : Kind} {span : Span} (run : expect kind cursor = .ok span next)
    (proper : kind ≠ .eof) : cursor.Passes [kind] next := by
  unfold expect at run
  split at run
  · next there =>
    cases run
    exact Cursor.passes_advance (Cursor.isAt_iff.mp there) proper
  · cases run

/-- A kind that stands next is passed. -/
theorem expect_complete {kind : Kind} {rest : List Kind} (start : cursor.kinds = kind :: rest)
    (proper : kind ≠ .eof) :
    ∃ span next, expect kind cursor = .ok span next ∧ cursor.Passes [kind] next := by
  have there : cursor.isAt kind = true := by
    rw [Cursor.isAt_iff, start, headKind_cons]
  have run : expect kind cursor = .ok cursor.span cursor.advance := if_pos there
  exact ⟨_, _, run, expect_sound run proper⟩

theorem identifier_sound {what name : String} {span : Span}
    (run : identifier what cursor = .ok (name, span) next) :
    cursor.Passes [.identifier name] next := by
  unfold identifier at run
  split at run
  · next found head =>
    rw [Cursor.kind_eq] at head
    cases run
    exact Cursor.passes_advance head nofun
  · cases run

theorem identifier_complete {name : String} {rest : List Kind}
    (start : cursor.kinds = .identifier name :: rest) :
    ∃ span next, (∀ what, identifier what cursor = .ok (name, span) next) ∧
      cursor.Passes [.identifier name] next := by
  have run (what : String) : identifier what cursor = .ok (name, cursor.span) cursor.advance := by
    rw [identifier, Cursor.kind_eq, start]
    rfl
  exact ⟨_, _, run, identifier_sound (run "")⟩

/-- A kind that may stand next is passed if it does, and nothing is passed if it does not. -/
theorem eat_sound {kind : Kind} {found : Bool} (run : eat kind cursor = .ok found next)
    (proper : kind ≠ .eof) :
    cursor.Passes (if found then [kind] else []) next ∧
      (found = false → headKind cursor.kinds ≠ kind) := by
  unfold eat at run
  split at run
  · next there =>
    cases run
    exact ⟨Cursor.passes_advance (Cursor.isAt_iff.mp there) proper, nofun⟩
  · next elsewhere =>
    cases run
    exact ⟨.refl cursor, fun _ head => elsewhere (Cursor.isAt_iff.mpr head)⟩

theorem eat_complete {kind : Kind} {rest : List Kind} (start : cursor.kinds = kind :: rest)
    (proper : kind ≠ .eof) :
    ∃ next, eat kind cursor = .ok true next ∧ cursor.Passes [kind] next := by
  have there : cursor.isAt kind = true := by
    rw [Cursor.isAt_iff, start, headKind_cons]
  have run : eat kind cursor = .ok true cursor.advance := if_pos there
  exact ⟨_, run, (eat_sound run proper).1⟩

theorem eat_other {kind : Kind} (other : headKind cursor.kinds ≠ kind) :
    eat kind cursor = .ok false cursor :=
  if_neg fun there => other (Cursor.isAt_iff.mp there)

/-! ### Reading phrases -/

/-- What a reader gives is spelled by what it passed. The cursor must be one that
the reader is started at, with some levels of nesting left. -/
def Sound (room : Nat) (started : Cursor → Prop) (reader : Parser α) (view : α → α)
    (phrase : Grammar.Phrase α) : Prop :=
  ∀ {cursor next : Cursor} {value : α}, started cursor → cursor.depth + room = nestingLimit →
    reader cursor = .ok value next →
    ∃ passed, cursor.Passes passed next ∧ phrase passed (view value)

/-- A reader passes what spells a value and gives that value, if what follows is
allowed to. -/
def Complete (room : Nat) (reader : Parser α) (view : α → α) (phrase : Grammar.Phrase α)
    (follow : Kind → Prop) : Prop :=
  ∀ {cursor : Cursor} {passed rest : List Kind} {value : α},
    cursor.depth + room = nestingLimit → phrase passed value →
    cursor.kinds = passed ++ rest → follow (headKind rest) →
    ∃ result next, reader cursor = .ok result next ∧ view result = value ∧
      cursor.Passes passed next

/-- A reader gives a value exactly for the rows of kinds that spell it. Values
are compared through a view that drops their spans, and `follow` says which
kinds may come next. -/
structure Reads (room : Nat) (reader : Parser α) (view : α → α) (phrase : Grammar.Phrase α)
    (follow : Kind → Prop) : Prop where
  sound : Sound room (fun _ => True) reader view phrase
  complete : Complete room reader view phrase follow

/-- Anything may come next. -/
def anything : Kind → Prop := fun _ => True

/-- A phrase starts with a kind that passes a test, and so is not empty. -/
def StartsWith (phrase : Grammar.Phrase α) (test : Kind → Bool) : Prop :=
  ∀ (kinds : List Kind) (value : α), phrase kinds value →
    kinds ≠ [] ∧ test (headKind kinds) = true

theorem StartsWith.mono {phrase : Grammar.Phrase α} {test other : Kind → Bool}
    (starts : StartsWith phrase test) (weaker : ∀ kind, test kind = true → other kind = true) :
    StartsWith phrase other := fun kinds value spelled =>
  ⟨(starts kinds value spelled).1, weaker _ (starts kinds value spelled).2⟩

/-! ### Rows of phrases -/

variable {room : Nat} {reader : Parser α} {view : α → α} {phrase : Grammar.Phrase α}
  {follow : Kind → Prop}

/-- A row that is read is a row of what is read one by one. The induction is on the tokens that are
left. -/
theorem many_sound {more : Cursor → Bool}
    (item : Sound room (fun cursor => more cursor = true) reader view phrase) {values : List α}
    (deep : cursor.depth + room = nestingLimit)
    (run : many more reader cursor = .ok values next) :
    ∃ passed, cursor.Passes passed next ∧ Grammar.many phrase passed (values.map view) := by
  fun_induction many more reader cursor generalizing values with
  | case1 => cases run
  | case2 => cases run
  | case3 cursor going value middle itemRun _ others stop othersRun inductionHypothesis =>
    cases run
    obtain ⟨passed, passes, spelled⟩ := item going deep itemRun
    obtain ⟨behind, behindPasses, behindSpelled⟩ :=
      inductionHypothesis (passes.deep deep) othersRun
    exact ⟨_, passes.trans behindPasses, .cons spelled behindSpelled⟩
  | case4 cursor going value middle itemRun _ =>
    cases run
    obtain ⟨passed, passes, spelled⟩ := item going deep itemRun
    refine ⟨passed, passes, ?_⟩
    rw [← List.append_nil passed]
    exact .cons spelled .nil
  | case5 cursor _ =>
    cases run
    exact ⟨[], .refl _, .nil⟩

/-- A row of phrases is read to its end if the first kind of a phrase tells that another one comes,
and what follows the row tells that none does. -/
theorem many_complete {more : Cursor → Bool} (test : Kind → Bool)
    (agrees : ∀ cursor : Cursor, more cursor = test cursor.kind)
    (item : Complete room reader view phrase follow) (starts : StartsWith phrase test)
    (goesOn : ∀ kind, test kind = true → follow kind) :
    Complete room (many more reader) (List.map view) (Grammar.many phrase)
      (fun kind => test kind = false ∧ follow kind) := by
  intro cursor passed rest values deep spelled start stops
  induction spelled generalizing cursor with
  | nil =>
    have finished : more cursor = false := by
      rw [agrees, Cursor.kind_eq, start]
      exact stops.1
    refine ⟨[], cursor, ?_, rfl, .refl cursor⟩
    rw [many, finished]
    rfl
  | @cons kinds others value values itemSpelled othersSpelled inductionHypothesis =>
    obtain ⟨nonempty, first⟩ := starts _ _ itemSpelled
    rw [List.append_assoc] at start
    have going : more cursor = true := by
      rw [agrees, Cursor.kind_eq, start, headKind_append nonempty]
      exact first
    -- What follows an item is another item or what follows the whole row.
    have following : follow (headKind (others ++ rest)) := by
      cases othersSpelled with
      | nil => exact stops.2
      | cons nextSpelled _ =>
        obtain ⟨nextNonempty, nextFirst⟩ := starts _ _ nextSpelled
        rw [List.append_assoc, headKind_append nextNonempty]
        exact goesOn _ nextFirst
    obtain ⟨result, middle, run, same, passes⟩ := item deep itemSpelled start following
    obtain ⟨results, stop, othersRun, othersSame, othersPasses⟩ :=
      inductionHypothesis (passes.deep deep) (passes.rest start)
    have shorter : middle.remaining < cursor.remaining := by
      have positive := List.length_pos_iff.mpr nonempty
      rw [cursor.remaining_eq, middle.remaining_eq, passes.kinds, List.length_append]
      omega
    refine ⟨result :: results, stop, ?_, ?_, passes.trans othersPasses⟩
    · rw [many, going, if_pos rfl, run]
      simp only [if_pos shorter, othersRun]
    · rw [List.map_cons, same, othersSame]

/-- Items that may stand side by side are read until something else comes. -/
theorem Reads.many (item : Reads room reader view phrase anything) {more : Cursor → Bool}
    (test : Kind → Bool) (agrees : ∀ cursor : Cursor, more cursor = test cursor.kind)
    (starts : StartsWith phrase test) :
    Reads room (Parser.many more reader) (List.map view) (Grammar.many phrase)
      (fun kind => test kind = false) where
  sound _ deep run := many_sound (fun _ deep run => item.sound trivial deep run) deep run
  complete deep spelled start stops :=
    many_complete test agrees item.complete starts (fun _ _ => trivial) deep spelled start
      ⟨stops, trivial⟩

/-- An item behind a comma. The reader itself passes any token there, so it must
be started at a comma. -/
theorem Reads.afterComma_sound (item : Reads room reader view phrase follow) :
    Sound room (fun cursor => cursor.isAt (.punct .comma) = true) (advance *> reader) view
      (Grammar.afterComma phrase) := by
  intro cursor next value there deep run
  obtain ⟨_, middle, moved, itemRun⟩ := seqRight_eq_ok.mp run
  rw [advance_eq_ok] at moved
  subst moved
  have comma := Cursor.passes_advance (Cursor.isAt_iff.mp there) nofun
  obtain ⟨passed, passes, spelled⟩ :=
    item.sound trivial (comma.deep deep) itemRun
  exact ⟨_, comma.trans passes, .intro spelled⟩

/-- A further item of a list stands behind its comma. -/
theorem Reads.afterComma_complete (item : Reads room reader view phrase follow) :
    Complete room (advance *> reader) view (Grammar.afterComma phrase) follow := by
  intro cursor passed rest value deep spelled start stops
  cases spelled with
  | @intro kinds value spelled =>
    have head : headKind cursor.kinds = .punct .comma := by rw [start]; rfl
    have comma := Cursor.passes_advance head nofun
    obtain ⟨result, next, run, same, passes⟩ :=
      item.complete (comma.deep deep) spelled (comma.rest start) stops
    exact ⟨result, next, seqRight_eq_ok.mpr ⟨(), _, rfl, run⟩, same, comma.trans passes⟩

/-- Items with commas between them, if a comma may follow an item. -/
theorem Reads.separated (item : Reads room reader view phrase follow)
    (endsAtComma : follow (.punct .comma)) :
    Reads room (Parser.separated reader) (List.map view) (Grammar.separated phrase)
      (fun kind => kind ≠ .punct .comma ∧ follow kind) where
  sound := by
    intro cursor next values _ deep run
    simp only [Parser.separated, bind_eq_ok, pure_eq_ok] at run
    obtain ⟨first, middle, firstRun, others, stop, othersRun, rfl, rfl⟩ := run
    obtain ⟨passed, passes, spelled⟩ := item.sound trivial deep firstRun
    obtain ⟨behind, behindPasses, behindSpelled⟩ :=
      many_sound item.afterComma_sound (passes.deep deep) othersRun
    exact ⟨_, passes.trans behindPasses, .intro spelled behindSpelled⟩
  complete := by
    intro cursor passed rest values deep spelled start stops
    cases spelled with
    | @intro kinds others value values spelled othersSpelled =>
      rw [List.append_assoc] at start
      have starts : StartsWith (Grammar.afterComma phrase) (· == .punct .comma) := by
        rintro _ _ ⟨_⟩
        exact ⟨List.cons_ne_nil _ _, rfl⟩
      have following : follow (headKind (others ++ rest)) := by
        cases othersSpelled with
        | nil => exact stops.2
        | cons nextSpelled _ =>
          cases nextSpelled
          exact endsAtComma
      obtain ⟨first, middle, firstRun, firstSame, firstPasses⟩ :=
        item.complete deep spelled start following
      obtain ⟨results, next, othersRun, othersSame, othersPasses⟩ :=
        many_complete (· == .punct .comma) (fun _ => rfl) item.afterComma_complete starts
          (fun kind comma => by rw [eq_of_beq comma]; exact endsAtComma)
          (firstPasses.deep deep) othersSpelled (firstPasses.rest start)
          ⟨beq_eq_false_iff_ne.mpr stops.1, stops.2⟩
      refine ⟨first :: results, next, ?_, ?_, firstPasses.trans othersPasses⟩
      · simp only [Parser.separated, bind_eq_ok, pure_eq_ok]
        exact ⟨_, _, firstRun, _, _, othersRun, rfl, rfl⟩
      · rw [List.map_cons, firstSame, othersSame]

theorem Reads.separated_startsWith {test : Kind → Bool} (starts : StartsWith phrase test) :
    StartsWith (Grammar.separated phrase) test := by
  rintro _ _ ⟨spelled, _⟩
  obtain ⟨nonempty, first⟩ := starts _ _ spelled
  rw [headKind_append nonempty]
  exact ⟨List.append_ne_nil_of_left_ne_nil nonempty _, first⟩

/-! ### Phrases up to a parenthesis -/

/-- Reads something up to a closing parenthesis, which may come at once. -/
def closing (absent : α) (inner : Parser α) : Parser α := do
  let value ← if ← look (·.isAt (.punct .rightParen)) then pure absent else inner
  let _ ← expect (.punct .rightParen)
  return value

/-- A phrase is read up to a parenthesis, if the parenthesis may follow it and does not start
it. The whole is the phrase with the parenthesis behind it, or the parenthesis alone. -/
theorem Reads.closing {absent : α} {whole : Grammar.Phrase α}
    (inner : Reads room reader view phrase follow) (plain : view absent = absent)
    (endsAtParen : follow (.punct .rightParen))
    (starts : StartsWith phrase (· != .punct .rightParen))
    (shape : ∀ kinds value, whole kinds value ↔ kinds = [.punct .rightParen] ∧ value = absent ∨
      ∃ front, phrase front value ∧ kinds = front ++ [.punct .rightParen]) :
    Reads room (closing absent reader) view whole anything where
  sound := by
    intro cursor next value _ deep run
    simp only [Parser.closing, bind_eq_ok, look_eq_ok] at run
    obtain ⟨closed, _, ⟨rfl, rfl⟩, run⟩ := run
    split at run
    · simp only [bind_eq_ok, pure_eq_ok] at run
      obtain ⟨_, _, ⟨rfl, rfl⟩, _, _, close, rfl, rfl⟩ := run
      exact ⟨_, expect_sound close nofun, (shape _ _).mpr (.inl ⟨rfl, plain⟩)⟩
    · simp only [bind_eq_ok, pure_eq_ok] at run
      obtain ⟨value, middle, innerRun, _, _, close, rfl, rfl⟩ := run
      obtain ⟨passed, passes, spelled⟩ := inner.sound trivial deep innerRun
      exact ⟨_, passes.trans (expect_sound close nofun),
        (shape _ _).mpr (.inr ⟨passed, spelled, rfl⟩)⟩
  complete := by
    intro cursor passed rest value deep given start _
    simp only [Parser.closing, bind_eq_ok, look_eq_ok]
    rcases (shape _ _).mp given with ⟨rfl, rfl⟩ | ⟨front, spelled, rfl⟩
    · have closed : cursor.isAt (.punct .rightParen) = true := by
        rw [Cursor.isAt_iff, start]
        rfl
      obtain ⟨_, next, close, passes⟩ := expect_complete start nofun
      refine ⟨value, next, ⟨_, _, ⟨rfl, rfl⟩, ?_⟩, plain, passes⟩
      rw [if_pos closed]
      simp only [bind_eq_ok, pure_eq_ok]
      exact ⟨_, _, ⟨rfl, rfl⟩, _, _, close, rfl, rfl⟩
    · rw [List.append_assoc] at start
      have opened : ¬cursor.isAt (.punct .rightParen) = true := by
        obtain ⟨nonempty, first⟩ := starts _ _ spelled
        rw [Cursor.isAt_iff, start, headKind_append nonempty]
        exact bne_iff_ne.mp first
      obtain ⟨result, middle, run, same, passes⟩ :=
        inner.complete deep spelled start endsAtParen
      obtain ⟨_, next, close, closePasses⟩ := expect_complete (passes.rest start) nofun
      refine ⟨result, next, ⟨_, _, ⟨rfl, rfl⟩, ?_⟩, same, passes.trans closePasses⟩
      rw [if_neg opened]
      simp only [bind_eq_ok, pure_eq_ok]
      exact ⟨_, _, run, _, _, close, rfl, rfl⟩

/-- Items with commas between them up to a parenthesis, if a comma and the
parenthesis may follow an item and no item starts with the parenthesis. -/
theorem Reads.listed (item : Reads room reader view phrase follow)
    (endsAtComma : follow (.punct .comma)) (endsAtParen : follow (.punct .rightParen))
    (starts : StartsWith phrase (· != .punct .rightParen)) :
    Reads room (Parser.listed reader) (List.map view) (Grammar.listed phrase) anything := by
  refine (item.separated endsAtComma).closing List.map_nil ⟨nofun, endsAtParen⟩
    (separated_startsWith starts) fun kinds values => ⟨?_, ?_⟩
  · rintro (_ | spelled)
    · exact .inl ⟨rfl, rfl⟩
    · exact .inr ⟨_, spelled, rfl⟩
  · rintro (⟨rfl, rfl⟩ | ⟨_, spelled, rfl⟩)
    · exact .none
    · exact .some spelled

/-- Reads what stands in parentheses, if they are there. -/
def inParens (inner : Parser (List α)) : Parser (List α) := do
  if ← eat (.punct .leftParen) then inner else pure []

/-- A list in parentheses may be left out as a whole. -/
theorem Reads.inParens {inner : Parser (List α)} {phrase : Grammar.Phrase (List α)}
    (reads : Reads room inner (List.map view) phrase anything) :
    Reads room (inParens inner) (List.map view) (Grammar.inParens phrase)
      (· ≠ .punct .leftParen) where
  sound := by
    intro cursor next values _ deep run
    simp only [Parser.inParens, bind_eq_ok] at run
    obtain ⟨found, _, eaten, run⟩ := run
    have front := (eat_sound eaten nofun).1
    cases found with
    | true =>
      obtain ⟨passed, passes, spelled⟩ := reads.sound trivial (front.deep deep) run
      exact ⟨_, front.trans passes, .given spelled⟩
    | false =>
      obtain ⟨rfl, rfl⟩ := pure_eq_ok.mp run
      exact ⟨_, front, .absent⟩
  complete := by
    intro cursor passed rest values deep spelled start stops
    simp only [Parser.inParens, bind_eq_ok]
    cases spelled with
    | absent =>
      rw [List.nil_append] at start
      exact ⟨[], cursor, ⟨_, _, eat_other (by rw [start]; exact stops), rfl⟩, rfl, .refl cursor⟩
    | given spelled =>
      obtain ⟨_, eaten, front⟩ := eat_complete start nofun
      obtain ⟨results, next, run, same, passes⟩ :=
        reads.complete (front.deep deep) spelled (front.rest start) trivial
      exact ⟨results, next, ⟨_, _, eaten, run⟩, same, front.trans passes⟩

/-- A part that is there is read as itself. -/
theorem Reads.present (item : Reads room reader view phrase follow) :
    Reads room (some <$> reader) (Option.map view)
      (fun kinds value => ∃ given, phrase kinds given ∧ value = some given) follow where
  sound := by
    intro cursor next value started deep run
    obtain ⟨value, itemRun, rfl⟩ := map_eq_ok.mp run
    obtain ⟨passed, passes, spelled⟩ := item.sound started deep itemRun
    exact ⟨passed, passes, _, spelled, rfl⟩
  complete := by
    rintro cursor passed rest _ deep ⟨value, spelled, rfl⟩ start stops
    obtain ⟨result, next, run, same, passes⟩ := item.complete deep spelled start stops
    exact ⟨result, next, map_eq_ok.mpr ⟨result, run, rfl⟩, congrArg some same, passes⟩

/-- An item or none up to a parenthesis, under the same conditions. -/
theorem Reads.optional (item : Reads room reader view phrase follow)
    (endsAtParen : follow (.punct .rightParen))
    (starts : StartsWith phrase (· != .punct .rightParen)) :
    Reads room (Parser.optional reader) (Option.map view) (Grammar.optional phrase)
      anything := by
  refine item.present.closing (Option.map_none view) endsAtParen ?_ fun kinds value => ⟨?_, ?_⟩
  · rintro _ _ ⟨_, spelled, rfl⟩
    exact starts _ _ spelled
  · rintro (_ | spelled)
    · exact .inl ⟨rfl, rfl⟩
    · exact .inr ⟨_, ⟨_, spelled, rfl⟩, rfl⟩
  · rintro (⟨rfl, rfl⟩ | ⟨_, ⟨_, spelled, rfl⟩, rfl⟩)
    · exact .none
    · exact .some spelled

end Parser

end BehaviourScript
