/-
This file shows that the readers of attributes, constants, commands and states
read those of the grammar. What comes behind a phrase matters only where its
reader would go on: an expression ends at anything but an operator, and a name
that an equals sign follows is not an expression but the name of a value.
-/

import BehaviourScript.Proofs.Parsing.Expr

namespace BehaviourScript.Parser

open Token

variable {cursor next : Cursor} {room : Nat}

/-! ### Attributes -/

theorem valuedAttribute?_shape {name : String} {build : Expr → Attribute.Kind}
    (known : valuedAttribute? name = some build) (value : Expr) :
    Grammar.shape name [.plain value] (build value) := by
  unfold valuedAttribute? at known
  split at known <;> cases known <;> constructor

theorem plainAttribute?_shape {name : String} {kind : Attribute.Kind}
    (known : plainAttribute? name = some kind) : Grammar.shape name [] kind := by
  unfold plainAttribute? at known
  split at known <;> cases known <;> constructor

/-- The arguments of an attribute are accepted exactly if they have its shape. -/
theorem attributeKind_eq_ok {name : String} {position : Position} {arguments : List Argument}
    {kind : Attribute.Kind} :
    attributeKind name position arguments = .ok kind ↔ Grammar.shape name arguments kind := by
  constructor
  · intro made
    unfold attributeKind at made
    split at made
    · next known =>
      split at made
      · cases made
        exact valuedAttribute?_shape known _
      · cases made
    · next known =>
      split at made
      · cases made
        exact plainAttribute?_shape known
      · cases made
    · split at made
      · cases made
        exact .startFrom
      · cases made
    · cases made
      exact .controlPacket
    · cases made
  · intro shape
    cases shape <;> rfl

/-- The shape of an attribute does not depend on places. -/
theorem shape_erase {name : String} {arguments : List Argument} {kind : Attribute.Kind}
    (shape : Grammar.shape name arguments kind) :
    Grammar.shape name (arguments.map (Argument.mapExpr Expr.erase)) (kind.mapExpr Expr.erase) := by
  cases shape with
  | controlPacket =>
    rw [Attribute.Kind.mapExpr, ControlPacket.mapExpr, ← Argument.namedOnly_map,
      ← Argument.plainOnly_map]
    exact .controlPacket
  | _ => constructor

theorem eq_plain_of_erase {arguments : List Argument} {value : Expr}
    (same : arguments.map (Argument.mapExpr Expr.erase) = [.plain value]) :
    ∃ plain, arguments = [.plain plain] ∧ plain.erase = value := by
  obtain ⟨argument, rfl, erased⟩ := List.map_eq_singleton_iff.mp same
  cases argument with
  | named assign => cases erased
  | plain value =>
    cases erased
    exact ⟨value, rfl, rfl⟩

/-- What has a shape without its places has it with them. -/
theorem shape_of_erase {name : String} {kind : Attribute.Kind} (arguments : List Argument)
    (shape : Grammar.shape name (arguments.map (Argument.mapExpr Expr.erase)) kind) :
    ∃ made, Grammar.shape name arguments made ∧ made.mapExpr Expr.erase = kind := by
  generalize same : arguments.map (Argument.mapExpr Expr.erase) = erased at shape
  cases shape with
  | controlPacket =>
    subst same
    refine ⟨_, .controlPacket, ?_⟩
    rw [Attribute.Kind.mapExpr, ControlPacket.mapExpr, Argument.namedOnly_map,
      Argument.plainOnly_map]
  | startFrom =>
    obtain ⟨plain, rfl, erased⟩ := eq_plain_of_erase same
    cases plain with
    | const state span =>
      cases erased
      exact ⟨_, .startFrom, rfl⟩
    | _ => cases erased
  | nonBlocking =>
    obtain rfl := List.map_eq_nil_iff.mp same
    exact ⟨_, .nonBlocking, rfl⟩
  | skipFirstBody =>
    obtain rfl := List.map_eq_nil_iff.mp same
    exact ⟨_, .skipFirstBody, rfl⟩
  | _ =>
    obtain ⟨plain, rfl, rfl⟩ := eq_plain_of_erase same
    exact ⟨_, by constructor, rfl⟩

/-- An argument ends where a sum ends, if no equals sign follows, which would
make a name before it the name of a value. -/
def endsArgument (kind : Kind) : Prop := endsSum kind ∧ kind ≠ .punct .equals

/-- Whether a kind is a name. -/
def isName : Kind → Bool
  | .identifier _ => true
  | _ => false

/-- A named value is told from an expression by two kinds. -/
theorem isAtAssign_iff {cursor : Cursor} :
    isAtAssign cursor = true ↔
      ∃ name rest, cursor.kinds = .identifier name :: .punct .equals :: rest := by
  show (isName cursor.kind && cursor.nextKind == .punct .equals) = true ↔ _
  rw [Bool.and_eq_true, beq_iff_eq, Cursor.kind_eq, Cursor.nextKind_eq]
  constructor
  · rintro ⟨named, equals⟩
    match shape : cursor.kinds with
    | [] =>
      rw [shape] at named
      cases named
    | [kind] =>
      rw [shape] at equals
      cases equals
    | first :: second :: rest =>
      rw [shape] at named equals
      obtain rfl : second = .punct .equals := equals
      cases first with
      | identifier name => exact ⟨name, rest, rfl⟩
      | _ => cases named
  · rintro ⟨name, rest, start⟩
    rw [start]
    exact ⟨rfl, rfl⟩

/-- An expression is not taken for a named value. -/
theorem not_isAtAssign_of_expr {cursor : Cursor} {kinds rest : List Kind} {value : Expr}
    (spelled : Grammar.expr room kinds value) (start : cursor.kinds = kinds ++ rest)
    (stops : headKind rest ≠ .punct .equals) : ¬isAtAssign cursor = true := by
  intro there
  obtain ⟨name, behind, named⟩ := isAtAssign_iff.mp there
  rw [start] at named
  cases spelled with
  | intro first others =>
    cases first with
    | number => cases named
    | neg => cases named
    | parens => cases named
    | const =>
      have equals := congrArg headKind (List.tail_eq_of_cons_eq named)
      cases others with
      | done => exact stops equals
      | @more _ op => cases op <;> cases equals

/-- An argument is a named value or an expression, and two kinds tell which. -/
theorem argument_reads (room : Nat) :
    Reads room argument (Argument.mapExpr Expr.erase) (Grammar.argument room) endsArgument where
  sound := by
    intro cursor next value _ deep run
    simp only [argument, bind_eq_ok, look_eq_ok] at run
    obtain ⟨_, _, ⟨rfl, rfl⟩, run⟩ := run
    split at run
    · simp only [bind_eq_ok, pure_eq_ok] at run
      obtain ⟨named, _, namedRun, rfl, rfl⟩ := run
      obtain ⟨passed, passes, spelled⟩ := (assign_reads room).sound trivial deep namedRun
      exact ⟨passed, passes, .named spelled⟩
    · simp only [bind_eq_ok, pure_eq_ok] at run
      obtain ⟨plain, _, plainRun, rfl, rfl⟩ := run
      obtain ⟨passed, passes, spelled⟩ := (expr_reads room).sound trivial deep plainRun
      exact ⟨passed, passes, .plain spelled⟩
  complete := by
    intro cursor passed rest value deep spelled start stops
    simp only [argument, bind_eq_ok, look_eq_ok]
    cases spelled with
    | named spelled =>
      have there : isAtAssign cursor = true := by
        cases spelled
        exact isAtAssign_iff.mpr ⟨_, _, start⟩
      obtain ⟨result, next, run, rfl, passes⟩ :=
        (assign_reads room).complete deep spelled start stops.1
      refine ⟨.named result, next, ⟨_, _, ⟨rfl, rfl⟩, ?_⟩, rfl, passes⟩
      rw [if_pos there]
      simp only [bind_eq_ok, pure_eq_ok]
      exact ⟨_, _, run, rfl, rfl⟩
    | plain spelled =>
      have elsewhere := not_isAtAssign_of_expr spelled start stops.2
      obtain ⟨result, next, run, rfl, passes⟩ :=
        (expr_reads room).complete deep spelled start stops.1
      refine ⟨.plain result, next, ⟨_, _, ⟨rfl, rfl⟩, ?_⟩, rfl, passes⟩
      rw [if_neg elsewhere]
      simp only [bind_eq_ok, pure_eq_ok]
      exact ⟨_, _, run, rfl, rfl⟩

theorem argument_startsWith (room : Nat) :
    StartsWith (Grammar.argument room) (· != .punct .rightParen) := by
  intro kinds value spelled
  cases spelled with
  | named spelled =>
    cases spelled
    exact ⟨List.cons_ne_nil _ _, rfl⟩
  | plain spelled => exact expr_startsWith room _ _ spelled

theorem attr_eq :
    attr = do
      let start ← expect (.punct .leftBracket)
      let position ← look Cursor.position
      let (name, _) ← identifier "attribute name"
      let arguments ← inParens (listed argument)
      let _ ← expect (.punct .rightBracket)
      let kind ← lift (attributeKind name position arguments)
      return ⟨kind, ← look (·.spanFrom start)⟩ := by
  unfold attr inParens
  simp only [bind_assoc, ite_bind]

theorem arguments_reads (room : Nat) :
    Reads room (inParens (listed argument)) (List.map (Argument.mapExpr Expr.erase)) (Grammar.arguments room)
      (· ≠ .punct .leftParen) :=
  ((argument_reads room).listed ⟨rfl, nofun⟩ ⟨rfl, nofun⟩ (argument_startsWith room)).inParens

/-- An attribute is read as the grammar has it. Its shape is checked when its last bracket is
passed. -/
theorem attr_reads (room : Nat) :
    Reads room attr (Attribute.mapExpr Expr.erase) (Grammar.attr room) anything where
  sound := by
    intro cursor next value _ deep run
    simp only [attr_eq, bind_eq_ok, look_eq_ok, lift_eq_ok, pure_eq_ok, Prod.exists] at run
    obtain ⟨_, _, openRun, _, _, ⟨-, rfl⟩, name, _, _, nameRun, arguments, _, argumentsRun, _, _,
      closeRun, kind, _, ⟨made, rfl⟩, _, _, ⟨-, rfl⟩, rfl, rfl⟩ := run
    have front := (expect_sound openRun nofun).trans (identifier_sound nameRun)
    obtain ⟨passed, passes, spelled⟩ :=
      (arguments_reads room).sound trivial (front.deep deep) argumentsRun
    exact ⟨_, front.trans (passes.trans (expect_sound closeRun nofun)),
      .intro spelled (shape_erase (attributeKind_eq_ok.mp made))⟩
  complete := by
    intro cursor passed rest value deep spelled start _
    cases spelled with
    | @intro name kinds values kind spelled shape =>
      obtain ⟨opening, _, openRun, openPasses⟩ := expect_complete start nofun
      have afterOpen := openPasses.rest start
      obtain ⟨_, _, nameRun, namePasses⟩ := identifier_complete afterOpen
      have front := openPasses.trans namePasses
      have inside := (namePasses.rest afterOpen).trans (List.append_assoc kinds _ rest)
      obtain ⟨arguments, _, argumentsRun, rfl, passes⟩ :=
        (arguments_reads room).complete (front.deep deep) spelled inside nofun
      obtain ⟨_, next, closeRun, closePasses⟩ := expect_complete (passes.rest inside) nofun
      obtain ⟨made, madeShape, rfl⟩ := shape_of_erase arguments shape
      refine ⟨⟨made, next.spanFrom opening⟩, next, ?_, rfl,
        front.trans (passes.trans closePasses)⟩
      simp only [attr_eq, bind_eq_ok, look_eq_ok, lift_eq_ok, pure_eq_ok, Prod.exists]
      exact ⟨_, _, openRun, _, _, ⟨rfl, rfl⟩, _, _, _, nameRun _, _, _, argumentsRun, _, _,
        closeRun, _, _, ⟨attributeKind_eq_ok.mpr madeShape, rfl⟩, _, _, ⟨rfl, rfl⟩, rfl, rfl⟩

theorem attr_startsWith (room : Nat) :
    StartsWith (Grammar.attr room) (· == .punct .leftBracket) := by
  rintro kinds value ⟨_⟩
  exact ⟨List.cons_ne_nil _ _, rfl⟩

theorem attributes_reads (room : Nat) :
    Reads room attributes (List.map (Attribute.mapExpr Expr.erase))
      (Grammar.many (Grammar.attr room)) (fun kind => (kind == .punct .leftBracket) = false) :=
  (attr_reads room).many (· == .punct .leftBracket) (fun _ => rfl) (attr_startsWith room)

/-! ### Constants, commands and conditions -/

theorem constDecl_reads (room : Nat) :
    Reads room constDecl (ConstDecl.mapExpr Expr.erase) (Grammar.constDecl room) anything where
  sound := by
    intro cursor next value _ deep run
    simp only [constDecl, bind_eq_ok, look_eq_ok, pure_eq_ok, Prod.exists] at run
    obtain ⟨_, _, wordRun, name, _, _, nameRun, _, _, equalsRun, value, _, valueRun, _, _,
      closeRun, _, _, ⟨-, rfl⟩, rfl, rfl⟩ := run
    have front := (expect_sound wordRun nofun).trans
      ((identifier_sound nameRun).trans (expect_sound equalsRun nofun))
    obtain ⟨passed, passes, spelled⟩ := (expr_reads room).sound trivial (front.deep deep) valueRun
    exact ⟨_, front.trans (passes.trans (expect_sound closeRun nofun)), .intro spelled⟩
  complete := by
    intro cursor passed rest value deep spelled start _
    cases spelled with
    | @intro name kinds value spelled =>
      obtain ⟨opening, _, wordRun, wordPasses⟩ := expect_complete start nofun
      obtain ⟨_, _, nameRun, namePasses⟩ := identifier_complete (wordPasses.rest start)
      have named := wordPasses.trans namePasses
      obtain ⟨_, _, equalsRun, equalsPasses⟩ := expect_complete (named.rest start) nofun
      have front := named.trans equalsPasses
      have inside := (front.rest start).trans (List.append_assoc kinds _ rest)
      obtain ⟨result, _, valueRun, rfl, passes⟩ :=
        (expr_reads room).complete (front.deep deep) spelled inside rfl
      obtain ⟨_, next, closeRun, closePasses⟩ := expect_complete (passes.rest inside) nofun
      refine ⟨⟨name, result, next.spanFrom opening⟩, next, ?_, rfl,
        front.trans (passes.trans closePasses)⟩
      simp only [constDecl, bind_eq_ok, look_eq_ok, pure_eq_ok, Prod.exists]
      exact ⟨_, _, wordRun, _, _, _, nameRun _, _, _, equalsRun, _, _, valueRun, _, _, closeRun,
        _, _, ⟨rfl, rfl⟩, rfl, rfl⟩

theorem constDecl_startsWith (room : Nat) :
    StartsWith (Grammar.constDecl room) (· == .keyword .const) := by
  rintro kinds value ⟨_⟩
  exact ⟨List.cons_ne_nil _ _, rfl⟩

theorem consts_reads (room : Nat) :
    Reads room consts (List.map (ConstDecl.mapExpr Expr.erase))
      (Grammar.many (Grammar.constDecl room)) (fun kind => (kind == .keyword .const) = false) :=
  (constDecl_reads room).many (· == .keyword .const) (fun _ => rfl) (constDecl_startsWith room)

section Catalogued

variable {catalogue : Catalogue} {what : String} {unknown : String → Position → ParseError}
  {id : UInt16}

/-- A name from a catalogue is read as its ID, and no other name is. -/
theorem catalogued_sound (run : catalogued catalogue what unknown cursor = .ok id next) :
    ∃ name, catalogue.id? name = some id ∧ cursor.Passes [.identifier name] next := by
  simp only [catalogued, bind_eq_ok, look_eq_ok, Prod.exists] at run
  obtain ⟨_, _, ⟨-, rfl⟩, name, _, _, nameRun, run⟩ := run
  cases known : catalogue.id? name with
  | none =>
    rw [known] at run
    exact (fail_ne_ok.mp run).elim
  | some found =>
    rw [known] at run
    obtain ⟨rfl, rfl⟩ := pure_eq_ok.mp run
    exact ⟨name, known, identifier_sound nameRun⟩

/-- Every name of a catalogue is read. -/
theorem catalogued_complete {name : String} {rest : List Kind}
    (start : cursor.kinds = .identifier name :: rest) (known : catalogue.id? name = some id) :
    ∃ next, catalogued catalogue what unknown cursor = .ok id next ∧
      cursor.Passes [.identifier name] next := by
  obtain ⟨_, next, nameRun, passes⟩ := identifier_complete start
  refine ⟨next, ?_, passes⟩
  simp only [catalogued, bind_eq_ok, look_eq_ok, Prod.exists]
  refine ⟨_, _, ⟨rfl, rfl⟩, _, _, _, nameRun _, ?_⟩
  rw [known]
  rfl

end Catalogued

theorem exprs_listed (room : Nat) :
    Reads room (listed expr) (List.map Expr.erase) (Grammar.listed (Grammar.expr room))
      anything :=
  (expr_reads room).listed rfl rfl (expr_startsWith room)

/-- A command is a known name with arguments and a semicolon. -/
theorem command_reads (room : Nat) :
    Reads room command (Command.mapExpr Expr.erase) (Grammar.command room) anything where
  sound := by
    intro cursor next value _ deep run
    simp only [command, exprList, bind_eq_ok, look_eq_ok, pure_eq_ok] at run
    obtain ⟨_, _, ⟨-, rfl⟩, id, _, idRun, args, _, ⟨_, _, openRun, argsRun⟩, _, _, closeRun, _, _,
      ⟨-, rfl⟩, rfl, rfl⟩ := run
    obtain ⟨name, known, namePasses⟩ := catalogued_sound idRun
    have front := namePasses.trans (expect_sound openRun nofun)
    obtain ⟨passed, passes, spelled⟩ :=
      (exprs_listed room).sound trivial (front.deep deep) argsRun
    exact ⟨_, front.trans (passes.trans (expect_sound closeRun nofun)), .intro known spelled⟩
  complete := by
    intro cursor passed rest value deep spelled start _
    cases spelled with
    | @intro name id kinds args known spelled =>
      obtain ⟨_, idRun, namePasses⟩ := catalogued_complete start known
      obtain ⟨_, _, openRun, openPasses⟩ := expect_complete (namePasses.rest start) nofun
      have front := namePasses.trans openPasses
      have inside := (front.rest start).trans (List.append_assoc kinds _ rest)
      obtain ⟨results, _, argsRun, rfl, passes⟩ :=
        (exprs_listed room).complete (front.deep deep) spelled inside trivial
      obtain ⟨_, next, closeRun, closePasses⟩ := expect_complete (passes.rest inside) nofun
      refine ⟨⟨id, results, next.spanFrom cursor.span⟩, next, ?_, rfl,
        front.trans (passes.trans closePasses)⟩
      simp only [command, exprList, bind_eq_ok, look_eq_ok, pure_eq_ok]
      exact ⟨_, _, ⟨rfl, rfl⟩, _, _, idRun, _, _, ⟨_, _, openRun, argsRun⟩, _, _, closeRun, _, _,
        ⟨rfl, rfl⟩, rfl, rfl⟩

theorem command_startsWith (room : Nat) : StartsWith (Grammar.command room) isName := by
  rintro kinds value ⟨_⟩
  exact ⟨List.cons_ne_nil _ _, rfl⟩

theorem name_ne_rightBrace (kind : Kind) (named : isName kind = true) :
    (kind != .punct .rightBrace) = true := by
  cases kind with
  | identifier name => rfl
  | _ => cases named

theorem commands_reads (room : Nat) :
    Reads room (many (!·.isAt (.punct .rightBrace)) command)
      (List.map (Command.mapExpr Expr.erase)) (Grammar.many (Grammar.command room))
      (fun kind => (kind != .punct .rightBrace) = false) :=
  (command_reads room).many (· != .punct .rightBrace) (fun _ => rfl)
    ((command_startsWith room).mono name_ne_rightBrace)

/-- A condition may be negated and may have a parameter. -/
theorem condition_reads (room : Nat) :
    Reads room condition (Condition.mapExpr Expr.erase) (Grammar.condition room) anything where
  sound := by
    intro cursor next value _ deep run
    simp only [condition, bind_eq_ok, look_eq_ok, pure_eq_ok] at run
    obtain ⟨_, _, ⟨-, rfl⟩, negate, _, notRun, id, _, idRun, _, _, openRun, parameter, _,
      parameterRun, _, _, ⟨-, rfl⟩, rfl, rfl⟩ := run
    obtain ⟨name, known, namePasses⟩ := catalogued_sound idRun
    have front := (eat_sound notRun nofun).1.trans (namePasses.trans (expect_sound openRun nofun))
    obtain ⟨passed, passes, spelled⟩ :=
      ((expr_reads room).optional rfl (expr_startsWith room)).sound trivial (front.deep deep)
        parameterRun
    refine ⟨_, front.trans passes, ?_⟩
    rw [List.append_assoc]
    exact .intro known spelled
  complete := by
    intro cursor passed rest value deep spelled start _
    cases spelled with
    | @intro negate name id kinds parameter known spelled =>
      rw [List.append_assoc] at start
      obtain ⟨_, notRun, notPasses⟩ :
          ∃ next, eat (.keyword .not) cursor = .ok negate next ∧
            cursor.Passes (Grammar.negation negate) next := by
        cases negate with
        | true => exact eat_complete start nofun
        | false =>
          have other : headKind cursor.kinds ≠ .keyword .not := by
            rw [start]
            exact nofun
          exact ⟨cursor, eat_other other, .refl cursor⟩
      obtain ⟨_, idRun, namePasses⟩ := catalogued_complete (notPasses.rest start) known
      have named := notPasses.trans namePasses
      obtain ⟨_, _, openRun, openPasses⟩ :=
        expect_complete (namePasses.rest (notPasses.rest start)) nofun
      have front := notPasses.trans (namePasses.trans openPasses)
      obtain ⟨result, next, parameterRun, rfl, passes⟩ :=
        ((expr_reads room).optional rfl (expr_startsWith room)).complete (front.deep deep) spelled
          (openPasses.rest (namePasses.rest (notPasses.rest start))) trivial
      refine ⟨⟨id, negate, result, next.spanFrom cursor.span⟩, next, ?_, rfl,
        notPasses.trans (namePasses.trans (openPasses.trans passes))⟩
      simp only [condition, bind_eq_ok, look_eq_ok, pure_eq_ok]
      exact ⟨_, _, ⟨rfl, rfl⟩, _, _, notRun, _, _, idRun, _, _, openRun, _, _, parameterRun,
        _, _, ⟨rfl, rfl⟩, rfl, rfl⟩

/-! ### States -/

/-- A body may stand behind a condition. -/
theorem guard_reads (room : Nat) :
    Reads room guard (Option.map (Condition.mapExpr Expr.erase)) (Grammar.guard room)
      anything where
  sound := by
    intro cursor next value _ deep run
    simp only [guard, bind_eq_ok, look_eq_ok] at run
    obtain ⟨kind, _, ⟨head, rfl⟩, run⟩ := run
    rw [Cursor.kind_eq] at head
    split at run
    · simp only [bind_eq_ok, advance_eq_ok, map_eq_ok] at run
      obtain ⟨_, _, rfl, test, testRun, rfl⟩ := run
      have word := Cursor.passes_advance head nofun
      obtain ⟨passed, passes, spelled⟩ :=
        (condition_reads room).sound trivial (word.deep deep) testRun
      exact ⟨_, word.trans passes, .test spelled⟩
    · simp only [bind_eq_ok, advance_eq_ok, pure_eq_ok] at run
      obtain ⟨_, _, rfl, rfl, rfl⟩ := run
      exact ⟨_, Cursor.passes_advance head nofun, .always⟩
    · exact (failExpected_ne_ok.mp run).elim
  complete := by
    intro cursor passed rest value deep spelled start _
    simp only [guard, bind_eq_ok, look_eq_ok]
    cases spelled with
    | test spelled =>
      have head : headKind cursor.kinds = .keyword .if := by rw [start]; rfl
      have word := Cursor.passes_advance head nofun
      obtain ⟨result, next, testRun, rfl, passes⟩ :=
        (condition_reads room).complete (word.deep deep) spelled (word.rest start) trivial
      refine ⟨some result, next, ⟨_, _, ⟨cursor.kind_eq.trans head, rfl⟩, ?_⟩, rfl,
        word.trans passes⟩
      simp only [bind_eq_ok, advance_eq_ok, map_eq_ok]
      exact ⟨(), _, rfl, _, testRun, rfl⟩
    | always =>
      have head : headKind cursor.kinds = .keyword .do := by rw [start]; rfl
      exact ⟨none, cursor.advance, ⟨_, _, ⟨cursor.kind_eq.trans head, rfl⟩, rfl⟩, rfl,
        Cursor.passes_advance head nofun⟩

/-- A body may end with a jump. -/
theorem jump_reads (room : Nat) :
    Reads room jump id Grammar.jump (fun kind => kind ≠ .keyword .goto) where
  sound := by
    intro cursor next value _ deep run
    simp only [jump, bind_eq_ok] at run
    obtain ⟨found, _, eaten, run⟩ := run
    have front := (eat_sound eaten nofun).1
    cases found with
    | true =>
      simp only [if_pos, bind_eq_ok, pure_eq_ok, Prod.exists] at run
      obtain ⟨name, _, _, nameRun, _, _, closeRun, rfl, rfl⟩ := run
      exact ⟨_, front.trans ((identifier_sound nameRun).trans (expect_sound closeRun nofun)),
        .goto⟩
    | false =>
      obtain ⟨rfl, rfl⟩ := pure_eq_ok.mp run
      exact ⟨_, front, .absent⟩
  complete := by
    intro cursor passed rest value deep spelled start stops
    simp only [jump, bind_eq_ok]
    cases spelled with
    | absent =>
      rw [List.nil_append] at start
      exact ⟨none, cursor, ⟨false, cursor, eat_other (by rw [start]; exact stops), rfl⟩, rfl,
        .refl cursor⟩
    | @goto name =>
      obtain ⟨_, eaten, word⟩ := eat_complete start nofun
      obtain ⟨_, _, nameRun, namePasses⟩ := identifier_complete (word.rest start)
      have front := word.trans namePasses
      obtain ⟨_, next, closeRun, closePasses⟩ := expect_complete (front.rest start) nofun
      refine ⟨some name, next, ⟨_, _, eaten, ?_⟩, rfl, front.trans closePasses⟩
      simp only [if_pos, bind_eq_ok, pure_eq_ok, Prod.exists]
      exact ⟨_, _, _, nameRun _, _, _, closeRun, rfl, rfl⟩

theorem bodyCommands_reads (room : Nat) :
    Reads room (many Cursor.isAtIdentifier command) (List.map (Command.mapExpr Expr.erase))
      (Grammar.many (Grammar.command room)) (fun kind => isName kind = false) :=
  (command_reads room).many isName (fun _ => rfl) (command_startsWith room)

/-- A body is read as the grammar has it, with its condition, its commands and its jump. -/
theorem stateBody_reads (room : Nat) :
    Reads room stateBody (StateBody.mapExpr Expr.erase) (Grammar.stateBody room) anything where
  sound := by
    intro cursor next value _ deep run
    simp only [stateBody, bind_eq_ok, look_eq_ok, pure_eq_ok] at run
    obtain ⟨_, _, ⟨-, rfl⟩, test, _, testRun, _, _, openRun, commands, _, commandsRun, target, _,
      targetRun, _, _, closeRun, _, _, ⟨-, rfl⟩, rfl, rfl⟩ := run
    obtain ⟨opening, testPasses, testSpelled⟩ := (guard_reads room).sound trivial deep testRun
    have front := testPasses.trans (expect_sound openRun nofun)
    obtain ⟨row, rowPasses, rowSpelled⟩ :=
      (bodyCommands_reads room).sound trivial (front.deep deep) commandsRun
    obtain ⟨leap, leapPasses, leapSpelled⟩ :=
      (jump_reads room).sound trivial ((front.trans rowPasses).deep deep) targetRun
    have whole := front.trans (rowPasses.trans (leapPasses.trans (expect_sound closeRun nofun)))
    rw [List.append_assoc] at whole
    exact ⟨_, whole, .intro testSpelled rowSpelled leapSpelled⟩
  complete := by
    intro cursor passed rest value deep spelled start _
    cases spelled with
    | @intro opening row leap test commands target testSpelled rowSpelled leapSpelled =>
      have start : cursor.kinds =
          opening ++ .punct .leftBrace :: (row ++ (leap ++ .punct .rightBrace :: rest)) := by
        simpa only [List.append_assoc, List.cons_append, List.nil_append] using start
      obtain ⟨test, _, testRun, rfl, testPasses⟩ :=
        (guard_reads room).complete deep testSpelled start trivial
      have afterTest := testPasses.rest start
      obtain ⟨_, _, openRun, openPasses⟩ := expect_complete afterTest nofun
      have front := testPasses.trans openPasses
      have inside := openPasses.rest afterTest
      have rowEnds : isName (headKind (leap ++ .punct .rightBrace :: rest)) = false := by
        cases leapSpelled <;> rfl
      obtain ⟨commands, _, commandsRun, rfl, rowPasses⟩ :=
        (bodyCommands_reads room).complete (front.deep deep) rowSpelled inside rowEnds
      have afterRow := rowPasses.rest inside
      obtain ⟨target, _, targetRun, rfl, leapPasses⟩ :=
        (jump_reads room).complete ((front.trans rowPasses).deep deep) leapSpelled afterRow nofun
      obtain ⟨_, next, closeRun, closePasses⟩ :=
        expect_complete (leapPasses.rest afterRow) nofun
      refine ⟨⟨test, commands, target, next.spanFrom cursor.span⟩, next, ?_, rfl,
        testPasses.trans (openPasses.trans (rowPasses.trans (leapPasses.trans closePasses)))⟩
      simp only [stateBody, bind_eq_ok, look_eq_ok, pure_eq_ok]
      exact ⟨_, _, ⟨rfl, rfl⟩, _, _, testRun, _, _, openRun, _, _, commandsRun, _, _, targetRun,
        _, _, closeRun, _, _, ⟨rfl, rfl⟩, rfl, rfl⟩

theorem stateBody_startsWith (room : Nat) :
    StartsWith (Grammar.stateBody room) (· != .punct .rightBrace) := by
  rintro kinds value ⟨opening, _, _⟩
  cases opening <;> exact ⟨List.cons_ne_nil _ _, rfl⟩

theorem bodies_reads (room : Nat) :
    Reads room (many (!·.isAt (.punct .rightBrace)) stateBody)
      (List.map (StateBody.mapExpr Expr.erase)) (Grammar.many (Grammar.stateBody room))
      (fun kind => (kind != .punct .rightBrace) = false) :=
  (stateBody_reads room).many (· != .punct .rightBrace) (fun _ => rfl) (stateBody_startsWith room)

theorem target_reads (room : Nat) :
    Reads room (Parser.optional reference) id (Grammar.optional Grammar.reference) anything := by
  rw [← Option.map_id]
  exact (reference_reads room).optional trivial reference_startsWith

/-- A state is read as the grammar has it, from its attributes to its last brace. -/
theorem state_reads (room : Nat) :
    Reads room state (State.mapExpr Expr.erase) (Grammar.state room) anything where
  sound := by
    intro cursor next value _ deep run
    simp only [state, bind_eq_ok, look_eq_ok] at run
    obtain ⟨_, _, ⟨-, rfl⟩, attributes, middle, attributesRun, _, _, ⟨rfl, rfl⟩, run⟩ := run
    split at run
    · simp only [bind_eq_ok, failExpected_ne_ok, false_and, exists_false] at run
    · next there =>
      rw [Bool.not_eq_true, Bool.not_eq_false', Cursor.isAt_iff] at there
      simp only [bind_eq_ok, advance_eq_ok, look_eq_ok, pure_eq_ok, Prod.exists] at run
      obtain ⟨_, _, rfl, name, _, _, nameRun, _, _, openRun, target, _, targetRun, _, _, braceRun,
        bodies, _, bodiesRun, _, _, closeRun, _, _, ⟨-, rfl⟩, rfl, rfl⟩ := run
      obtain ⟨front, frontPasses, frontSpelled⟩ :=
        (attributes_reads room).sound trivial deep attributesRun
      have word := Cursor.passes_advance there nofun
      have title := word.trans ((identifier_sound nameRun).trans (expect_sound openRun nofun))
      have head := frontPasses.trans title
      obtain ⟨inner, innerPasses, innerSpelled⟩ :=
        (target_reads room).sound trivial (head.deep deep) targetRun
      have opened := innerPasses.trans (expect_sound braceRun nofun)
      obtain ⟨row, rowPasses, rowSpelled⟩ :=
        (bodies_reads room).sound trivial ((head.trans opened).deep deep) bodiesRun
      have whole := frontPasses.trans (title.trans
        (innerPasses.trans ((expect_sound braceRun nofun).trans
          (rowPasses.trans (expect_sound closeRun nofun)))))
      exact ⟨_, whole, .intro frontSpelled innerSpelled rowSpelled⟩
  complete := by
    intro cursor passed rest value deep spelled start _
    cases spelled with
    | @intro name front inner row attributes target bodies frontSpelled innerSpelled rowSpelled =>
      have start : cursor.kinds = front ++ .keyword .state :: .identifier name ::
          .punct .leftParen :: (inner ++ .punct .leftBrace ::
            (row ++ .punct .rightBrace :: rest)) := by
        simpa only [List.append_assoc, List.cons_append, List.nil_append] using start
      obtain ⟨attributes, middle, attributesRun, rfl, frontPasses⟩ :=
        (attributes_reads room).complete deep frontSpelled start rfl
      have afterFront := frontPasses.rest start
      have there : headKind middle.kinds = .keyword .state := by rw [afterFront]; rfl
      have word := Cursor.passes_advance there nofun
      have afterWord := word.rest afterFront
      obtain ⟨_, _, nameRun, namePasses⟩ := identifier_complete afterWord
      have afterName := namePasses.rest afterWord
      obtain ⟨_, _, openRun, openPasses⟩ := expect_complete afterName nofun
      have inside := openPasses.rest afterName
      have title := frontPasses.trans (word.trans (namePasses.trans openPasses))
      obtain ⟨target, _, targetRun, rfl, innerPasses⟩ :=
        (target_reads room).complete (title.deep deep) innerSpelled inside trivial
      have afterInner := innerPasses.rest inside
      obtain ⟨_, _, braceRun, bracePasses⟩ := expect_complete afterInner nofun
      have afterBrace := bracePasses.rest afterInner
      obtain ⟨bodies, _, bodiesRun, rfl, rowPasses⟩ :=
        (bodies_reads room).complete ((title.trans (innerPasses.trans bracePasses)).deep deep)
          rowSpelled afterBrace rfl
      obtain ⟨_, next, closeRun, closePasses⟩ :=
        expect_complete (rowPasses.rest afterBrace) nofun
      refine ⟨⟨attributes, name, target, bodies, next.spanFrom cursor.span⟩, next, ?_, rfl,
        frontPasses.trans (word.trans (namePasses.trans (openPasses.trans (innerPasses.trans
          (bracePasses.trans (rowPasses.trans closePasses))))))⟩
      simp only [state, bind_eq_ok, look_eq_ok]
      refine ⟨_, _, ⟨rfl, rfl⟩, _, _, attributesRun, _, _, ⟨rfl, rfl⟩, ?_⟩
      rw [Cursor.isAt_iff.mpr there, Bool.not_true, if_neg Bool.false_ne_true]
      simp only [bind_eq_ok, advance_eq_ok, look_eq_ok, pure_eq_ok, Prod.exists]
      exact ⟨(), _, rfl, _, _, _, nameRun _, _, _, openRun, _, _, targetRun, _, _, braceRun, _, _,
        bodiesRun, _, _, closeRun, _, _, ⟨rfl, rfl⟩, rfl, rfl⟩

/-- Whether a state can start with a kind. -/
def startsState (kind : Kind) : Bool := kind == .punct .leftBracket || kind == .keyword .state

theorem state_startsWith (room : Nat) : StartsWith (Grammar.state room) startsState := by
  rintro kinds value ⟨front, _, _⟩
  cases front with
  | nil => exact ⟨List.cons_ne_nil _ _, rfl⟩
  | cons first _ =>
    cases first
    exact ⟨List.cons_ne_nil _ _, rfl⟩

/-- States are read as long as one begins. -/
theorem states_reads (room : Nat) :
    Reads room (many isAtState state) (List.map (State.mapExpr Expr.erase))
      (Grammar.many (Grammar.state room)) (fun kind => startsState kind = false) :=
  (state_reads room).many startsState (fun _ => rfl) (state_startsWith room)

/-- The head of a row of phrases is that of one of them, or of what follows. -/
theorem head_many {α : Type} {phrase : Grammar.Phrase α} {test : Kind → Bool}
    (starts : StartsWith phrase test) {kinds : List Kind} {values : List α} (rest : List Kind)
    (spelled : Grammar.many phrase kinds values) :
    test (headKind (kinds ++ rest)) = true ∨ headKind (kinds ++ rest) = headKind rest := by
  cases spelled with
  | nil => exact .inr rfl
  | cons first _ =>
    obtain ⟨nonempty, head⟩ := starts _ _ first
    rw [List.append_assoc, headKind_append nonempty]
    exact .inl head

end BehaviourScript.Parser
