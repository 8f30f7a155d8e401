/-
This file has the plans of all readers, from references up to whole scripts. With
a plan a reader comes to an end, its cursor never goes back or past the end mark,
and its nesting stays within the limit. That a reader also passes a token whenever
it gives something, and then leaves the nesting as it was, is known from the rows
of kinds that spell what it gives: none of them is empty. This is what makes the
loops end, too.
-/

import BehaviourScript.Proofs.Parsing.Script
import BehaviourScript.Proofs.Runs.Form
import BehaviourScript.Proofs.Spelling

namespace BehaviourScript

open Token

namespace Cursor

/-- Passing some tokens leaves fewer. -/
theorem Passes.remaining_lt {cursor next : Cursor} {passed : List Kind}
    (passes : cursor.Passes passed next) (nonempty : passed ≠ []) :
    next.remaining < cursor.remaining := by
  rw [Cursor.remaining_eq, Cursor.remaining_eq, passes.kinds, List.length_append]
  have := List.length_pos_iff.mpr nonempty
  omega

end Cursor

namespace Parser

variable {α β : Type} {cursor next : Cursor}

/-! ### Readers that get on -/

/-- A reader that passes a token whenever it gives something, and leaves the nesting as it
was. -/
def Settles (reader : Parser α) : Prop :=
  ∀ ⦃cursor next : Cursor⦄ ⦃value : α⦄, cursor.depth ≤ nestingLimit →
    reader cursor = .ok value next → next.remaining < cursor.remaining ∧ next.depth = cursor.depth

theorem Settles.advances {reader : Parser α} (settles : Settles reader)
    {more : Cursor → Bool} : Advances more reader :=
  fun _ _ _ bounded _ read => (settles bounded read).1

/-- A reader of phrases that are not empty gets on with every success. -/
theorem settles_of_sound {reader : Parser α} {view : α → α} {phrase : Nat → Grammar.Phrase α}
    (sound : ∀ room, Sound room (fun _ => True) reader view (phrase room)) {test : Kind → Bool}
    (starts : ∀ room, StartsWith (phrase room) test) : Settles reader := by
  intro cursor next value bounded read
  obtain ⟨passed, passes, spelled⟩ := sound (nestingLimit - cursor.depth) trivial
    (Nat.add_sub_of_le bounded) read
  exact ⟨passes.remaining_lt (starts _ _ _ spelled).1, passes.depth⟩

/-- A comma is passed before the item behind it. -/
theorem Settles.afterComma {reader : Parser α} (settles : Settles reader) :
    Advances (·.isAt (.punct .comma)) (advance *> reader) := by
  intro cursor next value bounded going read
  obtain ⟨_, _, moved, read⟩ := seqRight_eq_ok.mp read
  rw [advance_eq_ok] at moved
  subst moved
  have comma := (Cursor.passes_advance (Cursor.isAt_iff.mp going) (by simp)).remaining_lt
    (List.cons_ne_nil _ _)
  have item := (settles (by rwa [Cursor.depth_advance]) read).1
  omega

/-- An expression takes a token at least. -/
theorem expr_settles : Settles expr :=
  settles_of_sound (fun room => (expr_reads room).sound) expr_startsWith

theorem assign_settles : Settles assign := by
  have starts (room : Nat) : StartsWith (Grammar.assign room) isName := by
    rintro kinds value ⟨_⟩
    exact ⟨List.cons_ne_nil _ _, rfl⟩
  exact settles_of_sound (fun room => (assign_reads room).sound) starts

theorem argument_settles : Settles argument :=
  settles_of_sound (fun room => (argument_reads room).sound) argument_startsWith

theorem attr_settles : Settles attr :=
  settles_of_sound (fun room => (attr_reads room).sound) attr_startsWith

theorem constDecl_settles : Settles constDecl :=
  settles_of_sound (fun room => (constDecl_reads room).sound) constDecl_startsWith

theorem command_settles : Settles command :=
  settles_of_sound (fun room => (command_reads room).sound) command_startsWith

theorem stateBody_settles : Settles stateBody :=
  settles_of_sound (fun room => (stateBody_reads room).sound) stateBody_startsWith

theorem state_settles : Settles state :=
  settles_of_sound (fun room => (state_reads room).sound) state_startsWith

theorem assigner_settles : Settles assigner :=
  settles_of_sound (fun room => (assigner_reads room).sound) assigner_startsWith

theorem libraryBehaviour_settles : Settles libraryBehaviour :=
  settles_of_sound (fun room => (libraryBehaviour_reads room).sound) libraryBehaviour_startsWith

theorem commandPack_settles : Settles commandPack :=
  settles_of_sound (fun room => (commandPack_reads room).sound) commandPack_startsWith

namespace Plan

def map {reader : Parser α} (change : α → β) (plan : Plan reader) : Plan (change <$> reader) :=
  .bind plan fun value => give (change value)

def after {first : Parser α} {second : Parser β} (before : Plan first) (behind : Plan second) :
    Plan (first *> second) := .bind before fun _ => behind

def lift (outcome : Except ParseError α) : Plan (Parser.lift outcome) :=
  .move fun _ => by cases outcome <;> exact .stay

def separated {reader : Parser α} (item : Plan reader) (settles : Settles reader) :
    Plan (Parser.separated reader) :=
  .bind item fun _ => .bind (.loop (after advance item) settles.afterComma) fun _ => give _

def listed {reader : Parser α} (item : Plan reader) (settles : Settles reader) :
    Plan (Parser.listed reader) :=
  .bind (look _) fun
    | true => .bind (give _) fun _ => .bind (expect _) fun _ => give _
    | false => .bind (separated item settles) fun _ => .bind (expect _) fun _ => give _

def optional {reader : Parser α} (item : Plan reader) : Plan (Parser.optional reader) :=
  .bind (look _) fun
    | true => .bind (give _) fun _ => .bind (expect _) fun _ => give _
    | false => .bind (map _ item) fun _ => .bind (expect _) fun _ => give _

def inParens {inner : Parser (List α)} (plan : Plan inner) : Plan (Parser.inParens inner) :=
  .bind (eat _) fun
    | true => plan
    | false => give _

/-- Gives up at once if a test holds, and goes on otherwise. -/
def refusing {what : String} {reader : Parser α} (plan : Plan reader) :
    (test : Bool) → Plan (if test then failExpected what >>= fun _ : Unit => reader else reader)
  | true => .bind (fail _) fun _ => plan
  | false => plan

def reference : Plan Parser.reference :=
  .bind .negate fun
    | some _ => .bind advance fun _ => give _
    | none => .bind (look _) fun
      | .number _ | .identifier _ => .bind advance fun _ => give _
      | .keyword _ | .punct _ | .eof => fail _

def assign : Plan Parser.assign :=
  .bind (identifier _) fun _ => .bind (expect _) fun _ => .bind expr fun _ =>
    .bind (look _) fun _ => give _

def exprList : Plan Parser.exprList := .bind (expect _) fun _ => listed expr expr_settles

def argument : Plan Parser.argument :=
  .bind (look _) fun
    | true => .bind assign fun _ => give _
    | false => .bind expr fun _ => give _

def attr : Plan Parser.attr := attr_eq ▸
  .bind (expect _) fun _ => .bind (look _) fun _ => .bind (identifier _) fun _ =>
    .bind (inParens (listed argument argument_settles)) fun _ => .bind (expect _) fun _ =>
      .bind (lift _) fun _ => .bind (look _) fun _ => give _

def attributes : Plan Parser.attributes := .loop attr attr_settles.advances

def constDecl : Plan Parser.constDecl :=
  .bind (expect _) fun _ => .bind (identifier _) fun _ => .bind (expect _) fun _ =>
    .bind expr fun _ => .bind (expect _) fun _ => .bind (look _) fun _ => give _

def consts : Plan Parser.consts := .loop constDecl constDecl_settles.advances

def catalogued (catalogue : Catalogue) (what : String)
    (unknown : String → Position → ParseError) : Plan (Parser.catalogued catalogue what unknown) :=
  .bind (look _) fun position => .bind (identifier _) fun (name, _) =>
    show Plan (match catalogue.id? name with
      | some id => pure id
      | none => Parser.fail fun _ => unknown name position) from
    match catalogue.id? name with
    | some _ => give _
    | none => fail _

def command : Plan Parser.command :=
  .bind (look _) fun _ => .bind (catalogued ..) fun _ => .bind exprList fun _ =>
    .bind (expect _) fun _ => .bind (look _) fun _ => give _

def commandsToBrace : Plan Parser.commandsToBrace :=
  .bind (.loop command command_settles.advances) fun _ => .bind (expect _) fun _ => give _

def condition : Plan Parser.condition :=
  .bind (look _) fun _ => .bind (eat _) fun _ => .bind (catalogued ..) fun _ =>
    .bind (expect _) fun _ => .bind (optional expr) fun _ => .bind (look _) fun _ => give _

def guard : Plan Parser.guard :=
  .bind (look _) fun
    | .keyword .if => .bind advance fun _ => map _ condition
    | .keyword .do => .bind advance fun _ => give _
    | .keyword .library | .keyword .behaviour | .keyword .sequence | .keyword .const
    | .keyword .state | .keyword .not | .keyword .goto | .keyword .starter | .keyword .assign
    | .keyword .pack | .number _ | .identifier _ | .punct _ | .eof => fail _

def jump : Plan Parser.jump :=
  .bind (eat _) fun
    | true => .bind (identifier _) fun _ => .bind (expect _) fun _ => give _
    | false => give _

def stateBody : Plan Parser.stateBody :=
  .bind (look _) fun _ => .bind guard fun _ => .bind (expect _) fun _ =>
    .bind (.loop command command_settles.advances) fun _ => .bind jump fun _ =>
      .bind (expect _) fun _ => .bind (look _) fun _ => give _

def state : Plan Parser.state :=
  .bind (look _) fun _ => .bind attributes fun _ => .bind (look _) fun there =>
    refusing (.bind advance fun _ => .bind (identifier _) fun _ => .bind (expect _) fun _ =>
      .bind (optional reference) fun _ => .bind (expect _) fun _ =>
        .bind (.loop stateBody stateBody_settles.advances) fun _ => .bind (expect _) fun _ =>
          .bind (look _) fun _ => give _) (!there)

def fieldList : Plan Parser.fieldList :=
  .bind (separated assign assign_settles) fun _ => .bind (expect _) fun _ => give _

def assigner : Plan Parser.assigner := assigner_eq ▸
  .bind (expect _) fun _ => .bind reference fun _ => .bind (inParens fieldList) fun _ =>
    .bind (expect _) fun _ => .bind (look _) fun _ => give _

def starter : Plan Parser.starter :=
  .bind (expect _) fun _ => .bind (expect _) fun _ =>
    .bind (.loop assigner assigner_settles.advances) fun _ => .bind (expect _) fun _ =>
      .bind (look _) fun _ => give _

def setup : Plan Parser.setup :=
  .bind (look _) fun
    | true => map _ starter
    | false => give _

def behaviour (attributes : List Attribute) (start : Span) :
    Plan (Parser.behaviour attributes start) := behaviour_eq attributes start ▸
  .bind (expect _) fun _ => .bind (identifier _) fun _ => .bind (expect _) fun _ =>
    .bind consts fun _ => .bind setup fun _ => .bind state fun _ =>
      .bind (.loop state state_settles.advances) fun _ => .bind (expect _) fun _ =>
        .bind (look _) fun _ => give _

def libraryBehaviour : Plan Parser.libraryBehaviour :=
  .bind (look _) fun _ => .bind attributes fun _ => .bind (look _) fun there =>
    refusing (behaviour _ _) (!there)

def library (attributes : List Attribute) (start : Span) :
    Plan (Parser.library attributes start) :=
  .bind (expect _) fun _ => .bind (identifier _) fun _ => .bind (expect _) fun _ =>
    .bind consts fun _ => .bind (.loop libraryBehaviour libraryBehaviour_settles.advances) fun _ =>
      .bind (expect _) fun _ => .bind (look _) fun _ => give _

def commandPack : Plan Parser.commandPack :=
  .bind (expect _) fun _ => .bind (expect _) fun _ => .bind reference fun _ =>
    .bind (expect _) fun _ => .bind (expect _) fun _ => .bind commandsToBrace fun _ =>
      .bind (look _) fun _ => give _

def sequence (attributes : List Attribute) (start : Span) :
    Plan (Parser.sequence attributes start) :=
  .bind (expect _) fun _ => .bind (identifier _) fun _ => .bind (expect _) fun _ =>
    .bind consts fun _ => .bind (.loop commandPack commandPack_settles.advances) fun _ =>
      .bind commandsToBrace fun _ => .bind (look _) fun _ => give _

def unit (attributes : List Attribute) (start : Span) : Plan (Parser.unit attributes start) :=
  .bind (look _) fun
    | .keyword .library => map _ (library _ _)
    | .keyword .behaviour => map _ (behaviour _ _)
    | .keyword .sequence => map _ (sequence _ _)
    | .keyword .if | .keyword .do | .keyword .const | .keyword .state | .keyword .not
    | .keyword .goto | .keyword .starter | .keyword .assign | .keyword .pack | .number _
    | .identifier _ | .punct _ | .eof => fail _

def script : Plan Parser.script := script_eq ▸
  .bind (look _) fun _ => .bind attributes fun _ => .bind (unit _ _) fun _ =>
    .bind (look _) fun there => refusing (give _) (!there)

end Plan

/-! ### Orderly readers -/

end Parser

end BehaviourScript
