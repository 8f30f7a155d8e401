/-
This file shows that the parser accepts exactly the scripts of the grammar: a
row of tokens is read as a script if and only if its kinds spell that script.
-/

import BehaviourScript.Proofs.Parsing.State

namespace BehaviourScript

open Token

namespace Parser

variable {cursor next : Cursor} {room : Nat}

/-! ### Behaviours -/

/-- Reads the fields of an assigner and the parenthesis that closes them. -/
def fieldList : Parser (List Assign) := do
  let fields ← separated assign
  let _ ← expect (.punct .rightParen)
  return fields

/-- The fields of an assigner stand with commas between them, and there is one at least. -/
theorem fieldList_reads (room : Nat) :
    Reads room fieldList (List.map (Assign.mapExpr Expr.erase)) (Grammar.fieldList room)
      anything where
  sound := by
    intro cursor next values _ deep run
    simp only [fieldList, bind_eq_ok, pure_eq_ok] at run
    obtain ⟨fields, _, fieldsRun, _, _, closeRun, rfl, rfl⟩ := run
    obtain ⟨passed, passes, spelled⟩ :=
      ((assign_reads room).separated rfl).sound trivial deep fieldsRun
    exact ⟨_, passes.trans (expect_sound closeRun nofun), .intro spelled⟩
  complete := by
    intro cursor passed rest values deep spelled start _
    cases spelled with
    | intro spelled =>
      rw [List.append_assoc] at start
      obtain ⟨fields, _, fieldsRun, same, passes⟩ :=
        ((assign_reads room).separated rfl).complete deep spelled start ⟨nofun, rfl⟩
      obtain ⟨_, next, closeRun, closePasses⟩ := expect_complete (passes.rest start) nofun
      refine ⟨fields, next, ?_, same, passes.trans closePasses⟩
      simp only [fieldList, bind_eq_ok, pure_eq_ok]
      exact ⟨_, _, fieldsRun, _, _, closeRun, rfl, rfl⟩

theorem assigner_eq :
    assigner = do
      let start ← expect (.keyword .assign)
      let object ← reference
      let fields ← inParens fieldList
      let _ ← expect (.punct .semicolon)
      return ⟨object, fields, ← look (·.spanFrom start)⟩ := by
  unfold assigner inParens fieldList
  simp only [bind_assoc, ite_bind]

/-- An assigner is an object with fields. -/
theorem assigner_reads (room : Nat) :
    Reads room assigner (Assigner.mapExpr Expr.erase) (Grammar.assigner room) anything where
  sound := by
    intro cursor next value _ deep run
    simp only [assigner_eq, bind_eq_ok, look_eq_ok, pure_eq_ok] at run
    obtain ⟨_, _, wordRun, object, _, objectRun, fields, _, fieldsRun, _, _, endRun, _, _,
      ⟨-, rfl⟩, rfl, rfl⟩ := run
    have word := expect_sound wordRun nofun
    obtain ⟨name, namePasses, nameSpelled⟩ :=
      (reference_reads room).sound trivial (word.deep deep) objectRun
    obtain ⟨passed, passes, spelled⟩ :=
      (fieldList_reads room).inParens.sound trivial ((word.trans namePasses).deep deep) fieldsRun
    exact ⟨_, word.trans (namePasses.trans (passes.trans (expect_sound endRun nofun))),
      .intro nameSpelled spelled⟩
  complete := by
    intro cursor passed rest value deep spelled start _
    cases spelled with
    | @intro name kinds object values nameSpelled spelled =>
      have start : cursor.kinds =
          .keyword .assign :: (name ++ (kinds ++ .punct .semicolon :: rest)) := by
        simpa only [List.append_assoc, List.cons_append, List.nil_append] using start
      obtain ⟨opening, _, wordRun, word⟩ := expect_complete start nofun
      have afterWord := word.rest start
      obtain ⟨object, _, objectRun, rfl, namePasses⟩ :=
        (reference_reads room).complete (word.deep deep) nameSpelled afterWord trivial
      have afterName := namePasses.rest afterWord
      obtain ⟨fields, _, fieldsRun, rfl, passes⟩ :=
        (fieldList_reads room).inParens.complete ((word.trans namePasses).deep deep) spelled
          afterName nofun
      obtain ⟨_, next, endRun, endPasses⟩ := expect_complete (passes.rest afterName) nofun
      refine ⟨⟨object, fields, next.spanFrom opening⟩, next, ?_, rfl,
        word.trans (namePasses.trans (passes.trans endPasses))⟩
      simp only [assigner_eq, bind_eq_ok, look_eq_ok, pure_eq_ok]
      exact ⟨_, _, wordRun, _, _, objectRun, _, _, fieldsRun, _, _, endRun, _, _, ⟨rfl, rfl⟩,
        rfl, rfl⟩

theorem assigner_startsWith (room : Nat) :
    StartsWith (Grammar.assigner room) (· == .keyword .assign) := by
  rintro kinds value ⟨_⟩
  exact ⟨List.cons_ne_nil _ _, rfl⟩

theorem assigners_reads (room : Nat) :
    Reads room (many (·.isAt (.keyword .assign)) assigner)
      (List.map (Assigner.mapExpr Expr.erase)) (Grammar.many (Grammar.assigner room))
      (fun kind => (kind == .keyword .assign) = false) :=
  (assigner_reads room).many (· == .keyword .assign) (fun _ => rfl) (assigner_startsWith room)

/-- A starter is a row of assigners in braces. -/
theorem starter_reads (room : Nat) :
    Reads room starter (Starter.mapExpr Expr.erase) (Grammar.starter room) anything where
  sound := by
    intro cursor next value _ deep run
    simp only [starter, bind_eq_ok, look_eq_ok, pure_eq_ok] at run
    obtain ⟨_, _, wordRun, _, _, openRun, assigners, _, assignersRun, _, _, closeRun, _, _,
      ⟨-, rfl⟩, rfl, rfl⟩ := run
    have front := (expect_sound wordRun nofun).trans (expect_sound openRun nofun)
    obtain ⟨passed, passes, spelled⟩ :=
      (assigners_reads room).sound trivial (front.deep deep) assignersRun
    exact ⟨_, front.trans (passes.trans (expect_sound closeRun nofun)), .intro spelled⟩
  complete := by
    intro cursor passed rest value deep spelled start _
    cases spelled with
    | @intro kinds assigners spelled =>
      obtain ⟨opening, _, wordRun, word⟩ := expect_complete start nofun
      have afterWord := word.rest start
      obtain ⟨_, _, openRun, openPasses⟩ := expect_complete afterWord nofun
      have front := word.trans openPasses
      have inside := (openPasses.rest afterWord).trans (List.append_assoc kinds _ rest)
      obtain ⟨assigners, _, assignersRun, rfl, passes⟩ :=
        (assigners_reads room).complete (front.deep deep) spelled inside rfl
      obtain ⟨_, next, closeRun, closePasses⟩ := expect_complete (passes.rest inside) nofun
      refine ⟨⟨assigners, next.spanFrom opening⟩, next, ?_, rfl,
        front.trans (passes.trans closePasses)⟩
      simp only [starter, bind_eq_ok, look_eq_ok, pure_eq_ok]
      exact ⟨_, _, wordRun, _, _, openRun, _, _, assignersRun, _, _, closeRun, _, _, ⟨rfl, rfl⟩,
        rfl, rfl⟩

/-- Reads the starter of a behaviour, if there is one. -/
def setup : Parser (Option Starter) := do
  if ← look (·.isAt (.keyword .starter)) then some <$> starter else pure none

theorem setup_reads (room : Nat) :
    Reads room setup (Option.map (Starter.mapExpr Expr.erase)) (Grammar.setup room)
      (· ≠ .keyword .starter) where
  sound := by
    intro cursor next value _ deep run
    simp only [setup, bind_eq_ok, look_eq_ok] at run
    obtain ⟨_, _, ⟨rfl, rfl⟩, run⟩ := run
    split at run
    · obtain ⟨starter, starterRun, rfl⟩ := map_eq_ok.mp run
      obtain ⟨passed, passes, spelled⟩ := (starter_reads room).sound trivial deep starterRun
      exact ⟨passed, passes, .given spelled⟩
    · obtain ⟨rfl, rfl⟩ := pure_eq_ok.mp run
      exact ⟨[], .refl cursor, .absent⟩
  complete := by
    intro cursor passed rest value deep spelled start stops
    simp only [setup, bind_eq_ok, look_eq_ok]
    cases spelled with
    | absent =>
      have elsewhere : ¬cursor.isAt (.keyword .starter) = true := by
        rw [Cursor.isAt_iff, start]
        exact stops
      refine ⟨none, cursor, ⟨_, _, ⟨rfl, rfl⟩, ?_⟩, rfl, .refl cursor⟩
      rw [if_neg elsewhere]
      rfl
    | given spelled =>
      have there : cursor.isAt (.keyword .starter) = true := by
        rw [Cursor.isAt_iff, start]
        cases spelled
        rfl
      obtain ⟨starter, next, starterRun, rfl, passes⟩ :=
        (starter_reads room).complete deep spelled start trivial
      refine ⟨some starter, next, ⟨_, _, ⟨rfl, rfl⟩, ?_⟩, rfl, passes⟩
      rw [if_pos there]
      exact map_eq_ok.mpr ⟨_, starterRun, rfl⟩

theorem behaviour_eq (attributes : List Attribute) (start : Span) :
    behaviour attributes start = do
      let _ ← expect (.keyword .behaviour)
      let (name, _) ← identifier "behaviour name"
      let _ ← expect (.punct .leftBrace)
      let consts ← consts
      let initial ← setup
      let first ← state
      let others ← many isAtState state
      let _ ← expect (.punct .rightBrace)
      return ⟨attributes, name, consts, initial, first :: others, ← look (·.spanFrom start)⟩ := by
  unfold behaviour setup
  simp only [bind_assoc, ite_bind]

variable {attributes : List Attribute} {opening : Span}

/-- A behaviour that is read is one of the grammar. The attributes in front of it were read
before. -/
theorem behaviour_sound :
    Sound room (fun _ => True) (behaviour attributes opening) (Behaviour.mapExpr Expr.erase)
      (Grammar.behaviour room (attributes.map (Attribute.mapExpr Expr.erase))) := by
  intro cursor next value _ deep run
  simp only [behaviour_eq, bind_eq_ok, look_eq_ok, pure_eq_ok, Prod.exists] at run
  obtain ⟨_, _, wordRun, name, _, _, nameRun, _, _, openRun, consts, _, constsRun, initial, _,
    initialRun, first, _, firstRun, others, _, othersRun, _, _, closeRun, _, _, ⟨-, rfl⟩, rfl,
    rfl⟩ := run
  have title := (expect_sound wordRun nofun).trans
    ((identifier_sound nameRun).trans (expect_sound openRun nofun))
  obtain ⟨front, frontPasses, frontSpelled⟩ :=
    (consts_reads room).sound trivial (title.deep deep) constsRun
  obtain ⟨middle, middlePasses, middleSpelled⟩ :=
    (setup_reads room).sound trivial ((title.trans frontPasses).deep deep) initialRun
  have head := title.trans (frontPasses.trans middlePasses)
  obtain ⟨firstKinds, firstPasses, firstSpelled⟩ :=
    (state_reads room).sound trivial (head.deep deep) firstRun
  obtain ⟨otherKinds, othersPasses, othersSpelled⟩ :=
    (states_reads room).sound trivial ((head.trans firstPasses).deep deep) othersRun
  have whole := title.trans (frontPasses.trans (middlePasses.trans
    ((firstPasses.trans othersPasses).trans (expect_sound closeRun nofun))))
  exact ⟨_, whole, .intro frontSpelled middleSpelled (.cons firstSpelled othersSpelled)
    (List.cons_ne_nil _ _)⟩

theorem startsState_ne {kind : Kind} (starts : startsState kind = true) (other : Kind)
    (apart : startsState other = false) : kind ≠ other := by
  rintro rfl
  rw [starts] at apart
  cases apart

/-- Every behaviour of the grammar is read. It has a state at least, so the reader looks for a
further one only behind the first. -/
theorem behaviour_complete :
    Complete room (behaviour attributes opening) (Behaviour.mapExpr Expr.erase)
      (Grammar.behaviour room (attributes.map (Attribute.mapExpr Expr.erase))) anything := by
  intro cursor passed rest value deep spelled start _
  cases spelled with
  | @intro name front middle row consts initial states frontSpelled middleSpelled rowSpelled
      inhabited =>
    cases rowSpelled with
    | nil => exact absurd rfl inhabited
    | @cons firstKinds otherKinds first others firstSpelled othersSpelled =>
      have start : cursor.kinds = .keyword .behaviour :: .identifier name :: .punct .leftBrace ::
          (front ++ (middle ++ (firstKinds ++ (otherKinds ++ .punct .rightBrace :: rest)))) := by
        simpa only [List.append_assoc, List.cons_append, List.nil_append] using start
      obtain ⟨nonempty, firstStarts⟩ := state_startsWith room _ _ firstSpelled
      have rowHead : startsState
          (headKind (firstKinds ++ (otherKinds ++ .punct .rightBrace :: rest))) = true := by
        rw [headKind_append nonempty]
        exact firstStarts
      have middleHead : (headKind (middle ++ (firstKinds ++
          (otherKinds ++ .punct .rightBrace :: rest))) == .keyword .const) = false := by
        cases middleSpelled with
        | absent => exact beq_eq_false_iff_ne.mpr (startsState_ne rowHead _ rfl)
        | given spelled =>
          cases spelled
          rfl
      obtain ⟨_, _, wordRun, word⟩ := expect_complete start nofun
      have afterWord := word.rest start
      obtain ⟨_, _, nameRun, namePasses⟩ := identifier_complete afterWord
      have afterName := namePasses.rest afterWord
      obtain ⟨_, _, openRun, openPasses⟩ := expect_complete afterName nofun
      have afterOpen := openPasses.rest afterName
      have title := word.trans (namePasses.trans openPasses)
      obtain ⟨consts, _, constsRun, rfl, frontPasses⟩ :=
        (consts_reads room).complete (title.deep deep) frontSpelled afterOpen middleHead
      have afterFront := frontPasses.rest afterOpen
      obtain ⟨initial, _, initialRun, rfl, middlePasses⟩ :=
        (setup_reads room).complete ((title.trans frontPasses).deep deep) middleSpelled afterFront
          (startsState_ne rowHead _ rfl)
      have afterMiddle := middlePasses.rest afterFront
      have head := title.trans (frontPasses.trans middlePasses)
      obtain ⟨first, _, firstRun, rfl, firstPasses⟩ :=
        (state_reads room).complete (head.deep deep) firstSpelled afterMiddle trivial
      have afterFirst := firstPasses.rest afterMiddle
      obtain ⟨others, _, othersRun, rfl, othersPasses⟩ :=
        (states_reads room).complete ((head.trans firstPasses).deep deep) othersSpelled afterFirst
          rfl
      obtain ⟨_, next, closeRun, closePasses⟩ :=
        expect_complete (othersPasses.rest afterFirst) nofun
      refine ⟨⟨attributes, name, consts, initial, first :: others, next.spanFrom opening⟩, next, ?_,
        rfl,
        title.trans (frontPasses.trans (middlePasses.trans
          ((firstPasses.trans othersPasses).trans closePasses)))⟩
      simp only [behaviour_eq, bind_eq_ok, look_eq_ok, pure_eq_ok, Prod.exists]
      exact ⟨_, _, wordRun, _, _, _, nameRun _, _, _, openRun, _, _, constsRun, _, _, initialRun,
        _, _, firstRun, _, _, othersRun, _, _, closeRun, _, _, ⟨rfl, rfl⟩, rfl, rfl⟩

/-! ### Units -/

/-- A behaviour of a library is read with the attributes in front of it. -/
theorem libraryBehaviour_reads (room : Nat) :
    Reads room libraryBehaviour (Behaviour.mapExpr Expr.erase) (Grammar.libraryBehaviour room)
      anything where
  sound := by
    intro cursor next value _ deep run
    simp only [libraryBehaviour, bind_eq_ok, look_eq_ok] at run
    obtain ⟨_, _, ⟨-, rfl⟩, attributes, middle, attributesRun, _, _, ⟨rfl, rfl⟩, run⟩ := run
    split at run
    · simp only [bind_eq_ok, failExpected_ne_ok, false_and, exists_false] at run
    · obtain ⟨front, frontPasses, frontSpelled⟩ :=
        (attributes_reads room).sound trivial deep attributesRun
      obtain ⟨passed, passes, spelled⟩ := behaviour_sound trivial (frontPasses.deep deep) run
      exact ⟨_, frontPasses.trans passes, .intro frontSpelled spelled⟩
  complete := by
    intro cursor passed rest value deep spelled start _
    cases spelled with
    | @intro front kinds attributes value frontSpelled spelled =>
      rw [List.append_assoc] at start
      have head : headKind (kinds ++ rest) = .keyword .behaviour := by
        cases spelled
        rfl
      obtain ⟨attributes, middle, attributesRun, rfl, frontPasses⟩ :=
        (attributes_reads room).complete deep frontSpelled start (by rw [head]; rfl)
      have behind := frontPasses.rest start
      have there : middle.isAt (.keyword .behaviour) = true := by
        rw [Cursor.isAt_iff, behind, head]
      obtain ⟨result, next, run, same, passes⟩ :=
        behaviour_complete (frontPasses.deep deep) spelled behind trivial
      refine ⟨result, next, ?_, same, frontPasses.trans passes⟩
      simp only [libraryBehaviour, bind_eq_ok, look_eq_ok]
      refine ⟨_, _, ⟨rfl, rfl⟩, _, _, attributesRun, _, _, ⟨rfl, rfl⟩, ?_⟩
      rw [there, Bool.not_true, if_neg Bool.false_ne_true]
      exact run

theorem libraryBehaviour_startsWith (room : Nat) :
    StartsWith (Grammar.libraryBehaviour room)
      (fun kind => kind == .punct .leftBracket || kind == .keyword .behaviour) := by
  rintro kinds value ⟨front, spelled⟩
  cases front with
  | nil =>
    cases spelled
    exact ⟨List.cons_ne_nil _ _, rfl⟩
  | cons first _ =>
    cases first
    exact ⟨List.cons_ne_nil _ _, rfl⟩

theorem behaviours_reads (room : Nat) :
    Reads room (many (!·.isAt (.punct .rightBrace)) libraryBehaviour)
      (List.map (Behaviour.mapExpr Expr.erase)) (Grammar.many (Grammar.libraryBehaviour room))
      (fun kind => (kind != .punct .rightBrace) = false) := by
  refine (libraryBehaviour_reads room).many (· != .punct .rightBrace) (fun _ => rfl)
    ((libraryBehaviour_startsWith room).mono fun kind starts => bne_iff_ne.mpr ?_)
  rintro rfl
  cases starts

/-- A library that is read is one of the grammar. -/
theorem library_sound :
    Sound room (fun _ => True) (library attributes opening) (Library.mapExpr Expr.erase)
      (Grammar.library room (attributes.map (Attribute.mapExpr Expr.erase))) := by
  intro cursor next value _ deep run
  simp only [library, bind_eq_ok, look_eq_ok, pure_eq_ok, Prod.exists] at run
  obtain ⟨_, _, wordRun, name, _, _, nameRun, _, _, openRun, consts, _, constsRun, behaviours, _,
    behavioursRun, _, _, closeRun, _, _, ⟨-, rfl⟩, rfl, rfl⟩ := run
  have title := (expect_sound wordRun nofun).trans
    ((identifier_sound nameRun).trans (expect_sound openRun nofun))
  obtain ⟨front, frontPasses, frontSpelled⟩ :=
    (consts_reads room).sound trivial (title.deep deep) constsRun
  obtain ⟨row, rowPasses, rowSpelled⟩ :=
    (behaviours_reads room).sound trivial ((title.trans frontPasses).deep deep) behavioursRun
  exact ⟨_, title.trans (frontPasses.trans (rowPasses.trans (expect_sound closeRun nofun))),
    .intro frontSpelled rowSpelled⟩

/-- Every library of the grammar is read. -/
theorem library_complete :
    Complete room (library attributes opening) (Library.mapExpr Expr.erase)
      (Grammar.library room (attributes.map (Attribute.mapExpr Expr.erase))) anything := by
  intro cursor passed rest value deep spelled start _
  cases spelled with
  | @intro name front row consts behaviours frontSpelled rowSpelled =>
    have start : cursor.kinds = .keyword .library :: .identifier name :: .punct .leftBrace ::
        (front ++ (row ++ .punct .rightBrace :: rest)) := by
      simpa only [List.append_assoc, List.cons_append, List.nil_append] using start
    have rowHead : (headKind (row ++ .punct .rightBrace :: rest) == .keyword .const) = false := by
      refine beq_eq_false_iff_ne.mpr fun head => ?_
      have starts := head_many (libraryBehaviour_startsWith room) (.punct .rightBrace :: rest)
        rowSpelled
      rw [head] at starts
      rcases starts with starts | starts <;> cases starts
    obtain ⟨_, _, wordRun, word⟩ := expect_complete start nofun
    have afterWord := word.rest start
    obtain ⟨_, _, nameRun, namePasses⟩ := identifier_complete afterWord
    have afterName := namePasses.rest afterWord
    obtain ⟨_, _, openRun, openPasses⟩ := expect_complete afterName nofun
    have afterOpen := openPasses.rest afterName
    have title := word.trans (namePasses.trans openPasses)
    obtain ⟨consts, _, constsRun, rfl, frontPasses⟩ :=
      (consts_reads room).complete (title.deep deep) frontSpelled afterOpen rowHead
    have afterFront := frontPasses.rest afterOpen
    obtain ⟨behaviours, _, behavioursRun, rfl, rowPasses⟩ :=
      (behaviours_reads room).complete ((title.trans frontPasses).deep deep) rowSpelled afterFront
        rfl
    obtain ⟨_, next, closeRun, closePasses⟩ := expect_complete (rowPasses.rest afterFront) nofun
    refine ⟨⟨attributes, name, consts, behaviours, next.spanFrom opening⟩, next, ?_, rfl,
      title.trans (frontPasses.trans (rowPasses.trans closePasses))⟩
    simp only [library, bind_eq_ok, look_eq_ok, pure_eq_ok, Prod.exists]
    exact ⟨_, _, wordRun, _, _, _, nameRun _, _, _, openRun, _, _, constsRun, _, _, behavioursRun,
      _, _, closeRun, _, _, ⟨rfl, rfl⟩, rfl, rfl⟩

theorem commandsToBrace_sound {commands : List Command}
    (deep : cursor.depth + room = nestingLimit)
    (run : commandsToBrace cursor = .ok commands next) :
    ∃ row, cursor.Passes (row ++ [.punct .rightBrace]) next ∧
      Grammar.many (Grammar.command room) row
        (commands.map (Command.mapExpr Expr.erase)) := by
  simp only [commandsToBrace, bind_eq_ok, pure_eq_ok] at run
  obtain ⟨commands, _, commandsRun, _, _, closeRun, rfl, rfl⟩ := run
  obtain ⟨row, passes, spelled⟩ := (commands_reads room).sound trivial deep commandsRun
  exact ⟨row, passes.trans (expect_sound closeRun nofun), spelled⟩

theorem commandsToBrace_complete {row rest : List Kind} {commands : List Command}
    (deep : cursor.depth + room = nestingLimit)
    (spelled : Grammar.many (Grammar.command room) row commands)
    (start : cursor.kinds = row ++ .punct .rightBrace :: rest) :
    ∃ results next, commandsToBrace cursor = .ok results next ∧
      results.map (Command.mapExpr Expr.erase) = commands ∧
      cursor.Passes (row ++ [.punct .rightBrace]) next := by
  obtain ⟨results, _, run, same, passes⟩ := (commands_reads room).complete deep spelled start rfl
  obtain ⟨_, next, closeRun, closePasses⟩ := expect_complete (passes.rest start) nofun
  refine ⟨results, next, ?_, same, passes.trans closePasses⟩
  simp only [commandsToBrace, bind_eq_ok, pure_eq_ok]
  exact ⟨_, _, run, _, _, closeRun, rfl, rfl⟩

/-- A pack is a reference to a script with commands in braces. -/
theorem commandPack_reads (room : Nat) :
    Reads room commandPack (CommandPack.mapExpr Expr.erase) (Grammar.commandPack room)
      anything where
  sound := by
    intro cursor next value _ deep run
    simp only [commandPack, bind_eq_ok, look_eq_ok, pure_eq_ok] at run
    obtain ⟨_, _, wordRun, _, _, openRun, script, _, scriptRun, _, _, closeRun, _, _, braceRun,
      commands, _, commandsRun, _, _, ⟨-, rfl⟩, rfl, rfl⟩ := run
    have front := (expect_sound wordRun nofun).trans (expect_sound openRun nofun)
    obtain ⟨name, namePasses, nameSpelled⟩ :=
      (reference_reads room).sound trivial (front.deep deep) scriptRun
    have brace := (expect_sound closeRun nofun).trans (expect_sound braceRun nofun)
    have head := front.trans (namePasses.trans brace)
    obtain ⟨row, rowPasses, rowSpelled⟩ := commandsToBrace_sound (head.deep deep) commandsRun
    exact ⟨_, front.trans (namePasses.trans (brace.trans rowPasses)),
      .intro nameSpelled rowSpelled⟩
  complete := by
    intro cursor passed rest value deep spelled start _
    cases spelled with
    | @intro name row script commands nameSpelled rowSpelled =>
      have start : cursor.kinds = .keyword .pack :: .punct .leftParen :: (name ++
          .punct .rightParen :: .punct .leftBrace :: (row ++ .punct .rightBrace :: rest)) := by
        simpa only [List.append_assoc, List.cons_append, List.nil_append] using start
      obtain ⟨opening, _, wordRun, word⟩ := expect_complete start nofun
      have afterWord := word.rest start
      obtain ⟨_, _, openRun, openPasses⟩ := expect_complete afterWord nofun
      have inside := openPasses.rest afterWord
      have front := word.trans openPasses
      obtain ⟨script, _, scriptRun, rfl, namePasses⟩ :=
        (reference_reads room).complete (front.deep deep) nameSpelled inside trivial
      have afterName := namePasses.rest inside
      obtain ⟨_, _, closeRun, closePasses⟩ := expect_complete afterName nofun
      have afterClose := closePasses.rest afterName
      obtain ⟨_, _, braceRun, bracePasses⟩ := expect_complete afterClose nofun
      have brace := closePasses.trans bracePasses
      obtain ⟨commands, next, commandsRun, rfl, rowPasses⟩ :=
        commandsToBrace_complete ((front.trans (namePasses.trans brace)).deep deep) rowSpelled
          (bracePasses.rest afterClose)
      refine ⟨⟨script, commands, next.spanFrom opening⟩, next, ?_, rfl,
        front.trans (namePasses.trans (brace.trans rowPasses))⟩
      simp only [commandPack, bind_eq_ok, look_eq_ok, pure_eq_ok]
      exact ⟨_, _, wordRun, _, _, openRun, _, _, scriptRun, _, _, closeRun, _, _, braceRun, _, _,
        commandsRun, _, _, ⟨rfl, rfl⟩, rfl, rfl⟩

theorem commandPack_startsWith (room : Nat) :
    StartsWith (Grammar.commandPack room) (· == .keyword .pack) := by
  rintro kinds value ⟨_⟩
  exact ⟨List.cons_ne_nil _ _, rfl⟩

theorem packs_reads (room : Nat) :
    Reads room (many (·.isAt (.keyword .pack)) commandPack)
      (List.map (CommandPack.mapExpr Expr.erase)) (Grammar.many (Grammar.commandPack room))
      (fun kind => (kind == .keyword .pack) = false) :=
  (commandPack_reads room).many (· == .keyword .pack) (fun _ => rfl) (commandPack_startsWith room)

/-- A sequence that is read is one of the grammar. -/
theorem sequence_sound :
    Sound room (fun _ => True) (sequence attributes opening) (Sequence.mapExpr Expr.erase)
      (Grammar.sequence room (attributes.map (Attribute.mapExpr Expr.erase))) := by
  intro cursor next value _ deep run
  simp only [sequence, bind_eq_ok, look_eq_ok, pure_eq_ok, Prod.exists] at run
  obtain ⟨_, _, wordRun, name, _, _, nameRun, _, _, openRun, consts, _, constsRun, packs, _,
    packsRun, commands, _, commandsRun, _, _, ⟨-, rfl⟩, rfl, rfl⟩ := run
  have title := (expect_sound wordRun nofun).trans
    ((identifier_sound nameRun).trans (expect_sound openRun nofun))
  obtain ⟨front, frontPasses, frontSpelled⟩ :=
    (consts_reads room).sound trivial (title.deep deep) constsRun
  obtain ⟨middle, middlePasses, middleSpelled⟩ :=
    (packs_reads room).sound trivial ((title.trans frontPasses).deep deep) packsRun
  obtain ⟨row, rowPasses, rowSpelled⟩ :=
    commandsToBrace_sound ((title.trans (frontPasses.trans middlePasses)).deep deep) commandsRun
  exact ⟨_, title.trans (frontPasses.trans (middlePasses.trans rowPasses)),
    .intro frontSpelled middleSpelled rowSpelled⟩

/-- Every sequence of the grammar is read. -/
theorem sequence_complete :
    Complete room (sequence attributes opening) (Sequence.mapExpr Expr.erase)
      (Grammar.sequence room (attributes.map (Attribute.mapExpr Expr.erase))) anything := by
  intro cursor passed rest value deep spelled start _
  cases spelled with
  | @intro name front middle row consts packs commands frontSpelled middleSpelled rowSpelled =>
    have start : cursor.kinds = .keyword .sequence :: .identifier name :: .punct .leftBrace ::
        (front ++ (middle ++ (row ++ .punct .rightBrace :: rest))) := by
      simpa only [List.append_assoc, List.cons_append, List.nil_append] using start
    have rowHead := head_many (command_startsWith room) (.punct .rightBrace :: rest) rowSpelled
    have middleHead := head_many (commandPack_startsWith room)
      (row ++ .punct .rightBrace :: rest) middleSpelled
    have packsEnd :
        (headKind (row ++ .punct .rightBrace :: rest) == .keyword .pack) = false := by
      refine beq_eq_false_iff_ne.mpr fun head => ?_
      rw [head] at rowHead
      rcases rowHead with starts | starts <;> cases starts
    have constsEnd : (headKind (middle ++ (row ++ .punct .rightBrace :: rest)) ==
        .keyword .const) = false := by
      refine beq_eq_false_iff_ne.mpr fun head => ?_
      rw [head] at middleHead
      rcases middleHead with starts | starts
      · cases starts
      · rw [← starts] at rowHead
        rcases rowHead with starts | starts <;> cases starts
    obtain ⟨_, _, wordRun, word⟩ := expect_complete start nofun
    have afterWord := word.rest start
    obtain ⟨_, _, nameRun, namePasses⟩ := identifier_complete afterWord
    have afterName := namePasses.rest afterWord
    obtain ⟨_, _, openRun, openPasses⟩ := expect_complete afterName nofun
    have afterOpen := openPasses.rest afterName
    have title := word.trans (namePasses.trans openPasses)
    obtain ⟨consts, _, constsRun, rfl, frontPasses⟩ :=
      (consts_reads room).complete (title.deep deep) frontSpelled afterOpen constsEnd
    have afterFront := frontPasses.rest afterOpen
    obtain ⟨packs, _, packsRun, rfl, middlePasses⟩ :=
      (packs_reads room).complete ((title.trans frontPasses).deep deep) middleSpelled afterFront
        packsEnd
    obtain ⟨commands, next, commandsRun, rfl, rowPasses⟩ :=
      commandsToBrace_complete ((title.trans (frontPasses.trans middlePasses)).deep deep)
        rowSpelled (middlePasses.rest afterFront)
    refine ⟨⟨attributes, name, consts, packs, commands, next.spanFrom opening⟩, next, ?_, rfl,
      title.trans (frontPasses.trans (middlePasses.trans rowPasses))⟩
    simp only [sequence, bind_eq_ok, look_eq_ok, pure_eq_ok, Prod.exists]
    exact ⟨_, _, wordRun, _, _, _, nameRun _, _, _, openRun, _, _, constsRun, _, _, packsRun,
      _, _, commandsRun, _, _, ⟨rfl, rfl⟩, rfl, rfl⟩

/-! ### Scripts -/

/-- Reads the unit that follows its attributes. -/
def unit (attributes : List Attribute) (opening : Span) : Parser Script := do
  match ← look Cursor.kind with
  | .keyword .library => Script.library <$> library attributes opening
  | .keyword .behaviour => Script.behaviour <$> behaviour attributes opening
  | .keyword .sequence => Script.sequence <$> sequence attributes opening
  | _ => failExpected "`library`, `behaviour` or `sequence`"

/-- What is read behind the attributes of a script is a library, a behaviour or a sequence, by its
keyword. -/
theorem unit_sound :
    Sound room (fun _ => True) (unit attributes opening) Script.erase
      (Grammar.unit room (attributes.map (Attribute.mapExpr Expr.erase))) := by
  intro cursor next value _ deep run
  simp only [unit, bind_eq_ok, look_eq_ok] at run
  obtain ⟨kind, _, ⟨-, rfl⟩, run⟩ := run
  split at run
  · obtain ⟨content, contentRun, rfl⟩ := map_eq_ok.mp run
    obtain ⟨passed, passes, spelled⟩ := library_sound trivial deep contentRun
    exact ⟨passed, passes, .library spelled⟩
  · obtain ⟨content, contentRun, rfl⟩ := map_eq_ok.mp run
    obtain ⟨passed, passes, spelled⟩ := behaviour_sound trivial deep contentRun
    exact ⟨passed, passes, .behaviour spelled⟩
  · obtain ⟨content, contentRun, rfl⟩ := map_eq_ok.mp run
    obtain ⟨passed, passes, spelled⟩ := sequence_sound trivial deep contentRun
    exact ⟨passed, passes, .sequence spelled⟩
  · exact (failExpected_ne_ok.mp run).elim

/-- Each of the three is read, by its keyword. -/
theorem unit_complete :
    Complete room (unit attributes opening) Script.erase
      (Grammar.unit room (attributes.map (Attribute.mapExpr Expr.erase))) anything := by
  intro cursor passed rest value deep spelled start _
  simp only [unit, bind_eq_ok, look_eq_ok]
  cases spelled with
  | library spelled =>
    have head : cursor.kind = .keyword .library := by
      rw [Cursor.kind_eq, start]
      cases spelled
      rfl
    obtain ⟨result, next, run, rfl, passes⟩ := library_complete deep spelled start trivial
    exact ⟨.library result, next,
      ⟨_, _, ⟨head, rfl⟩, map_eq_ok.mpr ⟨_, run, rfl⟩⟩, rfl, passes⟩
  | behaviour spelled =>
    have head : cursor.kind = .keyword .behaviour := by
      rw [Cursor.kind_eq, start]
      cases spelled
      rfl
    obtain ⟨result, next, run, rfl, passes⟩ := behaviour_complete deep spelled start trivial
    exact ⟨.behaviour result, next,
      ⟨_, _, ⟨head, rfl⟩, map_eq_ok.mpr ⟨_, run, rfl⟩⟩, rfl, passes⟩
  | sequence spelled =>
    have head : cursor.kind = .keyword .sequence := by
      rw [Cursor.kind_eq, start]
      cases spelled
      rfl
    obtain ⟨result, next, run, rfl, passes⟩ := sequence_complete deep spelled start trivial
    exact ⟨.sequence result, next,
      ⟨_, _, ⟨head, rfl⟩, map_eq_ok.mpr ⟨_, run, rfl⟩⟩, rfl, passes⟩

/-- A unit starts with the word that says what it is. -/
theorem unit_head {kinds rest : List Kind} {attributes : List Attribute} {value : Script}
    (spelled : Grammar.unit room attributes kinds value) :
    (headKind (kinds ++ rest) == .punct .leftBracket) = false := by
  cases spelled with
  | library spelled => cases spelled; rfl
  | behaviour spelled => cases spelled; rfl
  | sequence spelled => cases spelled; rfl

theorem script_eq :
    script = do
      let start ← look Cursor.span
      let attributes ← Parser.attributes
      let script ← unit attributes start
      if !(← look Cursor.atEnd) then failExpected "end of input"
      return script := by
  unfold script unit
  simp only [bind_assoc]
  refine bind_congr fun start => bind_congr fun attributes => bind_congr fun kind => ?_
  cases kind with
  | keyword word => cases word <;> rfl
  | _ => rfl

/-- A script that is read stands in front of the end mark and is one of the grammar. -/
theorem script_sound {value : Script} (deep : cursor.depth + room = nestingLimit)
    (run : script cursor = .ok value next) :
    headKind next.kinds = .eof ∧
      ∃ passed, cursor.Passes passed next ∧ Grammar.script room passed value.erase := by
  simp only [script_eq, bind_eq_ok, look_eq_ok] at run
  obtain ⟨_, _, ⟨-, rfl⟩, attributes, _, attributesRun, value, _, unitRun, _, _, ⟨rfl, rfl⟩,
    run⟩ := run
  split at run
  · simp only [bind_eq_ok, failExpected_ne_ok, false_and, exists_false] at run
  · next there =>
    rw [Bool.not_eq_true, Bool.not_eq_false'] at there
    obtain ⟨rfl, rfl⟩ := pure_eq_ok.mp run
    obtain ⟨front, frontPasses, frontSpelled⟩ :=
      (attributes_reads room).sound trivial deep attributesRun
    obtain ⟨passed, passes, spelled⟩ := unit_sound trivial (frontPasses.deep deep) unitRun
    exact ⟨Cursor.isAt_iff.mp there, _, frontPasses.trans passes, .intro frontSpelled spelled⟩

/-- A script of the grammar in front of the end mark is read. -/
theorem script_complete {passed rest : List Kind} {value : Script}
    (deep : cursor.depth + room = nestingLimit) (spelled : Grammar.script room passed value)
    (start : cursor.kinds = passed ++ rest) (ends : headKind rest = .eof) :
    ∃ result next, script cursor = .ok result next ∧ result.erase = value := by
  cases spelled with
  | @intro front kinds attributes value frontSpelled spelled =>
    rw [List.append_assoc] at start
    obtain ⟨attributes, _, attributesRun, rfl, frontPasses⟩ :=
      (attributes_reads room).complete deep frontSpelled start (unit_head spelled)
    have behind := frontPasses.rest start
    obtain ⟨result, next, unitRun, same, passes⟩ :=
      unit_complete (frontPasses.deep deep) spelled behind trivial
    have there : next.atEnd = true := by
      rw [Cursor.atEnd, Cursor.isAt_iff, passes.rest behind]
      exact ends
    refine ⟨result, next, ?_, same⟩
    simp only [script_eq, bind_eq_ok, look_eq_ok]
    refine ⟨_, _, ⟨rfl, rfl⟩, _, _, attributesRun, _, _, unitRun, _, _, ⟨rfl, rfl⟩, ?_⟩
    rw [there, Bool.not_true, if_neg Bool.false_ne_true]
    rfl

end Parser

/-- The end mark shows where a row of kinds ends. -/
theorem eq_of_append_eof {kinds passed rest : List Kind}
    (same : kinds ++ [.eof] = passed ++ rest) (proper : .eof ∉ kinds)
    (passedProper : .eof ∉ passed) (ends : headKind rest = .eof) : kinds = passed := by
  rcases List.append_eq_append_iff.mp same with ⟨extra, rfl, tail⟩ | ⟨extra, rfl, rfl⟩
  · cases extra with
    | nil => exact (List.append_nil kinds).symm
    | cons kind others =>
      obtain rfl : .eof = kind := List.head_eq_of_cons_eq tail
      exact absurd (List.mem_append_right kinds List.mem_cons_self) passedProper
  · cases extra with
    | nil => exact List.append_nil passed
    | cons kind others =>
      cases ends
      exact absurd (List.mem_append_right passed List.mem_cons_self) proper

/-- Tokens are read as a script exactly if their kinds spell it, up to the places
that its nodes were read from. -/
theorem parse_eq_ok_iff {tokens : List Token} {kinds : List Kind}
    (shape : tokens.map Token.kind = kinds ++ [.eof]) (proper : .eof ∉ kinds) (script : Script) :
    (∃ result, parse tokens = .ok result ∧ result.erase = script) ↔
      Grammar.script nestingLimit kinds script := by
  have deep : (Cursor.ofTokens tokens).depth + nestingLimit = nestingLimit := Nat.zero_add _
  constructor
  · rintro ⟨result, run, rfl⟩
    unfold parse at run
    split at run
    · next value next outcome =>
      cases run
      obtain ⟨ends, passed, passes, spelled⟩ := Parser.script_sound deep outcome
      rwa [eq_of_append_eof (shape.symm.trans passes.kinds) proper passes.proper ends]
    · cases run
  · intro spelled
    obtain ⟨result, next, run, same⟩ := Parser.script_complete deep spelled shape rfl
    refine ⟨result, ?_, same⟩
    rw [parse, run]

end BehaviourScript
