/-
This file splits printed texts into tokens: the text of a node lexes as the kinds
of the node, whatever the indentation, if its names are identifiers and its
numbers are small. Pieces of a line are open or closed texts, and whole lines
are closed, since each ends with a newline.
-/

import BehaviourScript.Proofs.Printed.Kinds

namespace BehaviourScript

open Token BehaviourScript.Parser

/-! ### Lines -/

/-- Blanks are no tokens. -/
theorem ClosedText.blanks {text : String} (blank : ∀ char ∈ text.toList, isBlank char = true) :
    ClosedText text [] := by
  intro rest more behind
  generalize text.toList = chars at blank ⊢
  induction chars with
  | nil => exact behind
  | cons char others inductionHypothesis =>
    rw [List.forall_mem_cons] at blank
    exact .blank blank.1 (inductionHypothesis blank.2)

/-- Lines that are a row of tokens, however they are indented. -/
def ClosedLines (lines : List Line) (kinds : List Kind) : Prop :=
  ∀ options, ClosedText (String.join (lines.map (Line.render options))) kinds

theorem isBlank_of_mem_indent {options : PrintOptions} {char : Char}
    (member : char ∈ options.indent) : isBlank char = true := by
  unfold PrintOptions.indent at member
  split at member
  · rw [List.mem_singleton] at member
    subst member
    rfl
  · rw [List.mem_replicate] at member
    rw [member.2]
    rfl

namespace ClosedLines

theorem nil : ClosedLines [] [] := fun _ => .empty

/-- Lines below lines are the tokens of both. -/
theorem append {first second : List Line} {firstKinds secondKinds : List Kind}
    (left : ClosedLines first firstKinds) (right : ClosedLines second secondKinds) :
    ClosedLines (first ++ second) (firstKinds ++ secondKinds) := by
  intro options
  rw [List.map_append, String.join_append]
  exact (left options).append (right options)

theorem blank : ClosedLines [.blank] [] := by
  intro options
  have newline : ClosedText "\n" [] := .marks (by decide)
  exact newline

/-- A line of text is closed by its newline, whatever its indentation. -/
theorem text {content : String} {kinds : List Kind} (closed : ClosedText content kinds)
    (depth : Nat) : ClosedLines [.text depth content] kinds := by
  intro options
  have indent : ClosedText
      (String.ofList (List.replicate depth options.indent).flatten) [] := by
    refine .blanks fun char member => ?_
    rw [String.toList_ofList] at member
    obtain ⟨row, inRows, inRow⟩ := List.mem_flatten.mp member
    rw [(List.mem_replicate.mp inRows).2] at inRow
    exact isBlank_of_mem_indent inRow
  have newline : ClosedText "\n" [] := .marks (by decide)
  have line := (indent.append closed).append newline
  rw [List.append_nil] at line
  rw [List.map_singleton, String.join_cons, String.join_nil, String.append_empty]
  exact line

/-- A block is its header, a brace, its lines and a brace. -/
theorem block {header : String} {lines : List Line} {headerKinds kinds : List Kind}
    (front : OpenText header headerKinds) (inner : ClosedLines lines kinds) (depth : Nat) :
    ClosedLines (Line.block depth header lines)
      (headerKinds ++ .punct .leftBrace :: (kinds ++ [.punct .rightBrace])) := by
  have opening : ClosedText (header ++ " \x7b") (headerKinds ++ [.punct .leftBrace]) :=
    front.append (.marks (by decide)) (by decide)
  have closing : ClosedText "\x7d" [.punct .rightBrace] := .marks (by decide)
  have whole := ((text opening depth).append inner).append (text closing depth)
  rw [List.append_assoc, List.append_assoc headerKinds, List.append_assoc headerKinds] at whole
  exact whole

/-- Lines of items are the tokens of the items. -/
theorem flatMap {α : Type} {lines : α → List Line} {kinds : α → List Kind} {items : List α}
    (each : ∀ item ∈ items, ClosedLines (lines item) (kinds item)) :
    ClosedLines (items.flatMap lines) (items.flatMap kinds) := by
  induction items with
  | nil => exact nil
  | cons first others inductionHypothesis =>
    rw [List.forall_mem_cons] at each
    rw [List.flatMap_cons, List.flatMap_cons]
    exact each.1.append (inductionHypothesis each.2)

theorem map {α : Type} {line : α → Line} {kinds : α → List Kind} {items : List α}
    (each : ∀ item ∈ items, ClosedLines [line item] (kinds item)) :
    ClosedLines (items.map line) (items.flatMap kinds) := by
  rw [List.map_eq_flatMap]
  exact flatMap each

/-- Groups of lines with their kinds; the blank lines between them are not seen. -/
theorem intercalate (groups : List (List Line × List Kind))
    (each : ∀ group ∈ groups, ClosedLines group.1 group.2) :
    ClosedLines (List.intercalate [.blank] (groups.map Prod.fst)) (groups.flatMap Prod.snd) := by
  induction groups with
  | nil => exact nil
  | cons first others inductionHypothesis =>
    rw [List.forall_mem_cons] at each
    have behind := inductionHypothesis each.2
    cases others with
    | nil =>
      rw [List.flatMap_cons, List.flatMap_nil, List.append_nil, List.map_singleton,
        List.intercalate_singleton]
      exact each.1
    | cons second rest =>
      have whole := each.1.append (blank.append behind)
      rw [List.nil_append] at whole
      rw [List.map_cons, List.map_cons, List.intercalate_cons_cons, List.flatMap_cons,
        List.append_assoc]
      exact whole

/-- Groups of lines with blank lines between them are the tokens of the groups. -/
theorem stack {top : List Line} {topKinds : List Kind} (front : ClosedLines top topKinds)
    {groups : List (List Line × List Kind)}
    (each : ∀ group ∈ groups, ClosedLines group.1 group.2) :
    ClosedLines (Line.stack top (groups.map Prod.fst)) (topKinds ++ groups.flatMap Prod.snd) := by
  unfold Line.stack
  split
  · next empty =>
    rw [List.isEmpty_iff] at empty
    subst empty
    exact front.append (intercalate groups each)
  · exact intercalate ((top, topKinds) :: groups) (List.forall_mem_cons.mpr ⟨front, each⟩)

end ClosedLines

/-! ### Expressions -/

/-- A negative number is printed as two tokens. -/
theorem OpenText.integer {value : Int} (small : value.natAbs < numberBound) :
    OpenText (toString value) (signedKinds value) := by
  unfold signedKinds
  cases value with
  | ofNat magnitude => exact .number small
  | negSucc magnitude =>
    have minus : ClosedText "-" [.punct .minus] := .marks (by decide)
    rw [if_pos (Int.negSucc_lt_zero magnitude)]
    exact minus.appendOpen (.number small)

namespace Expr

/-- Parentheses around an operand are two tokens more. -/
theorem openText_wrap {text : String} {kinds : List Kind} (inner : OpenText text kinds)
    (operand : Expr) : OpenText (operand.wrap text) (operand.wrapKinds kinds) := by
  unfold wrap wrapKinds
  split
  · have opening : ClosedText "(" [.punct .leftParen] := .marks (by decide)
    have closing : ClosedText ")" [.punct .rightParen] := .marks (by decide)
    exact ((opening.appendOpen inner).append closing (by decide)).toOpen
  · exact inner

theorem closedText_op (op : BinOp) : ClosedText op.text [.punct op.mark] := by
  have plus : ClosedText " + " [.punct .plus] := .marks (by decide)
  have minus : ClosedText " - " [.punct .minus] := .marks (by decide)
  cases op
  · exact plus
  · exact minus

/-- The text of an expression is the row of its kinds. The induction is on the expression, and an
operand that is wrapped may stand next to anything. -/
theorem openText {expr : Expr} (spellable : expr.Spellable) : OpenText expr.text expr.kinds := by
  induction expr with
  | number value span => exact .integer spellable
  | const name span => exact .identifier spellable
  | neg operand span inductionHypothesis =>
    have minus : ClosedText "-" [.punct .minus] := .marks (by decide)
    exact minus.appendOpen (openText_wrap (inductionHypothesis spellable) operand)
  | binary op left right span leftHypothesis rightHypothesis =>
    have front := (leftHypothesis spellable.1).append (closedText_op op)
      (by cases op <;> decide)
    have whole := front.appendOpen (openText_wrap (rightHypothesis spellable.2) right)
    rw [List.append_assoc] at whole
    exact whole

end Expr

/-! ### Texts with commas -/

section Rows

variable {α : Type} {text : α → String} {kinds : α → List Kind}

/-- Texts with commas between them are rows with commas between them. -/
theorem openText_commaSeparated {items : List α}
    (each : ∀ item ∈ items, OpenText (text item) (kinds item)) :
    OpenText (commaSeparated (items.map text)) (commaKinds (items.map kinds)) := by
  have comma : ClosedText ", " [.punct .comma] := .marks (by decide)
  unfold commaSeparated
  induction items with
  | nil => exact ClosedText.empty.toOpen
  | cons first others inductionHypothesis =>
    rw [List.forall_mem_cons] at each
    have behind := inductionHypothesis each.2
    cases others with
    | nil =>
      rw [List.map_singleton, List.map_singleton, String.intercalate_singleton, commaKinds,
        List.flatMap_nil, List.append_nil]
      exact each.1
    | cons second rest =>
      have whole := (each.1.append comma (by decide)).appendOpen behind
      rw [List.append_assoc] at whole
      rw [List.map_cons, List.map_cons, String.intercalate_cons_cons]
      exact whole

/-- A text in parentheses behind an open text. -/
theorem closedText_call {front inner : String} {frontKinds innerKinds : List Kind}
    (start : OpenText front frontKinds) (content : OpenText inner innerKinds) :
    ClosedText (front ++ "(" ++ inner ++ ")")
      (frontKinds ++ .punct .leftParen :: (innerKinds ++ [.punct .rightParen])) := by
  have opening : ClosedText "(" [.punct .leftParen] := .marks (by decide)
  have closing : ClosedText ")" [.punct .rightParen] := .marks (by decide)
  have whole := ((start.append opening (by decide)).appendOpen content).append closing (by decide)
  rw [List.append_assoc, List.append_assoc] at whole
  exact whole

/-- What may stand in parentheses is closed by the second of them. -/
theorem closedText_optional {front : String} {frontKinds : List Kind}
    (start : OpenText front frontKinds) {item : Option α}
    (each : ∀ value ∈ item, OpenText (text value) (kinds value)) :
    ClosedText (front ++ "(" ++ (item.map text).getD "" ++ ")")
      (frontKinds ++ .punct .leftParen :: optionalKinds (item.map kinds)) := by
  refine closedText_call start ?_
  cases item with
  | none => exact ClosedText.empty.toOpen
  | some value => exact each value rfl

end Rows

/-! ### Nodes on a line -/

theorem Reference.openText {reference : Reference} (spellable : reference.Spellable) :
    OpenText reference.text reference.kinds := by
  cases reference with
  | literal id => exact .integer spellable
  | symbol name => exact .identifier spellable

theorem Assign.openText {assign : Assign} (spellable : assign.Spellable) :
    OpenText assign.text assign.kinds := by
  have equals : ClosedText " = " [.punct .equals] := .marks (by decide)
  exact ((OpenText.identifier spellable.1).append equals (by decide)).appendOpen
    (Expr.openText spellable.2)

theorem Parser.Argument.openText {argument : Argument} (spellable : argument.Spellable) :
    OpenText argument.text argument.kinds := by
  cases argument with
  | named assign => exact Assign.openText spellable
  | plain value => exact Expr.openText spellable

namespace Attribute

/-- The arguments of an attribute are printed one by one. -/
theorem Kind.argumentTexts_eq (kind : Kind) :
    kind.argumentTexts = kind.arguments.map (List.map Argument.text) := by
  cases kind with
  | controlPacket packet =>
    rw [argumentTexts, arguments, Option.map_some, List.map_append, List.map_map, List.map_map]
    rfl
  | _ => rfl

theorem Kind.isIdentifier_name (kind : Kind) : isIdentifier kind.name = true := by
  unfold name
  split <;> decide

/-- An attribute is closed by its bracket. -/
theorem closedText {attr : Attribute} (spellable : attr.Spellable) :
    ClosedText attr.kind.text attr.kinds := by
  have opening : ClosedText "[" [.punct .leftBracket] := .marks (by decide)
  have front := opening.appendOpen (.identifier attr.kind.isIdentifier_name)
  rw [Kind.text, Kind.argumentTexts_eq, kinds, Kind.argumentKinds]
  rw [Spellable] at spellable
  cases found : attr.kind.arguments with
  | none =>
    have closing : ClosedText "]" [.punct .rightBracket] := .marks (by decide)
    exact front.append closing (by decide)
  | some arguments =>
    rw [found] at spellable
    have paren : ClosedText "(" [.punct .leftParen] := .marks (by decide)
    have closing : ClosedText ")]" [.punct .rightParen, .punct .rightBracket] :=
      .marks (by decide)
    have content := openText_commaSeparated fun argument member =>
      Argument.openText (spellable argument member)
    have whole := ((front.append paren (by decide)).appendOpen content).append closing (by decide)
    show ClosedText _
      (_ :: _ :: _ :: (commaKinds (arguments.map Argument.kinds) ++ [_] ++ [_]))
    rw [List.append_assoc]
    exact whole

end Attribute

theorem Attribute.closedLines {attributes : List Attribute}
    (spellable : ∀ attr ∈ attributes, attr.Spellable) (depth : Nat) :
    ClosedLines (attributes.map (line depth)) (attributes.flatMap kinds) :=
  .map fun attr member => .text (closedText (spellable attr member)) depth

theorem ConstDecl.closedLines {consts : List ConstDecl}
    (spellable : ∀ decl ∈ consts, decl.Spellable) (depth : Nat) :
    ClosedLines (consts.map (line depth)) (consts.flatMap kinds) := by
  refine .map fun decl member => .text ?_ depth
  have word : ClosedText "const " [.keyword .const] := .keywordBlank .const
  have equals : ClosedText " = " [.punct .equals] := .marks (by decide)
  have closing : ClosedText ";" [.punct .semicolon] := .marks (by decide)
  have front := (word.appendOpen (.identifier (spellable decl member).1)).append equals (by decide)
  have whole := (front.appendOpen (Expr.openText (spellable decl member).2)).append closing
    (by decide)
  exact whole

theorem Command.closedLines {commands : List Command}
    (spellable : ∀ command ∈ commands, command.Spellable) (depth : Nat) :
    ClosedLines (commands.map (line depth)) (commands.flatMap kinds) := by
  refine .map fun command member => .text ?_ depth
  have name := OpenText.identifier
    (Catalogue.isIdentifier_name Catalogue.commands_clear command.id)
  have paren : ClosedText "(" [.punct .leftParen] := .marks (by decide)
  have closing : ClosedText ");" [.punct .rightParen, .punct .semicolon] := .marks (by decide)
  have content := openText_commaSeparated fun arg inArgs =>
    Expr.openText (spellable command member arg inArgs)
  have whole := ((name.append paren (by decide)).appendOpen content).append closing (by decide)
  show ClosedText _ (_ :: _ :: (commaKinds (command.args.map Expr.kinds) ++ [_] ++ [_]))
  rw [List.append_assoc]
  exact whole

/-- A condition is closed by its parenthesis. -/
theorem Condition.closedText {condition : Condition} (spellable : condition.Spellable) :
    ClosedText condition.text condition.kinds := by
  have front : ClosedText (if condition.negate then "not " else "")
      (Grammar.negation condition.negate) := by
    unfold Grammar.negation
    split
    · exact .keywordBlank .not
    · exact .empty
  have name := OpenText.identifier
    (Catalogue.isIdentifier_name Catalogue.conditions_clear condition.id)
  have whole := closedText_optional (front.appendOpen name) fun parameter member =>
    Expr.openText (spellable parameter member)
  rw [List.append_assoc] at whole
  exact whole

/-! ### Nodes of several lines -/

namespace StateBody

theorem openText_header {body : StateBody} (spellable : body.Spellable) :
    OpenText body.header (guardKinds body.condition) := by
  unfold header
  cases found : body.condition with
  | none => exact .keyword .do
  | some condition =>
    have word : ClosedText "if " [.keyword .if] := .keywordBlank .if
    exact (word.append (Condition.closedText (spellable.1 condition found))).toOpen

/-- A body is printed as its kinds. -/
theorem closedLines {body : StateBody} (spellable : body.Spellable) (depth : Nat) :
    ClosedLines (body.lines depth) body.kinds := by
  obtain ⟨_, commands, jump⟩ := spellable
  have leap : ClosedLines
      (body.jump.map fun state => Line.text (depth + 1) ("goto " ++ state ++ ";")).toList
      (jumpKinds body.jump) := by
    cases found : body.jump with
    | none => exact .nil
    | some state =>
      have word : ClosedText "goto " [.keyword .goto] := .keywordBlank .goto
      have closing : ClosedText ";" [.punct .semicolon] := .marks (by decide)
      have name := OpenText.identifier (jump state found)
      exact .text ((word.appendOpen name).append closing (by decide)) (depth + 1)
  have whole := ClosedLines.block (openText_header ⟨‹_›, commands, jump⟩)
    ((Command.closedLines commands (depth + 1)).append leap) depth
  rw [List.append_assoc] at whole
  exact whole

end StateBody

/-- A state is printed as its kinds, with its attributes above it. -/
theorem State.closedLines {state : State} (spellable : state.Spellable) (depth : Nat) :
    ClosedLines (state.lines depth) state.kinds := by
  obtain ⟨attributes, name, target, bodies⟩ := spellable
  have word : ClosedText "state " [.keyword .state] := .keywordBlank .state
  have header := closedText_optional (word.appendOpen (.identifier name)) fun reference member =>
    Reference.openText (target reference member)
  have inner := ClosedLines.flatMap fun body member =>
    StateBody.closedLines (bodies body member) (depth + 1)
  have whole := (Attribute.closedLines attributes depth).append
    (.block header.toOpen inner depth)
  exact whole

theorem Assigner.closedLines {assigners : List Assigner}
    (spellable : ∀ assigner ∈ assigners, assigner.Spellable) (depth : Nat) :
    ClosedLines (assigners.map (line depth)) (assigners.flatMap kinds) := by
  refine .map fun assigner member => .text ?_ depth
  obtain ⟨object, fields⟩ := spellable assigner member
  have word : ClosedText "assign " [.keyword .assign] := .keywordBlank .assign
  have closing : ClosedText ";" [.punct .semicolon] := .marks (by decide)
  have front := word.appendOpen (Reference.openText object)
  by_cases empty : assigner.fields.isEmpty = true
  · rw [kinds, fieldKinds, if_pos empty, if_pos empty, String.append_empty]
    exact front.append closing (by decide)
  · have opening : ClosedText "(" [.punct .leftParen] := .marks (by decide)
    have paren : ClosedText ")" [.punct .rightParen] := .marks (by decide)
    have content := openText_commaSeparated fun field inFields =>
      Assign.openText (fields field inFields)
    have inner := (opening.appendOpen content).append paren (by decide)
    have stops : Stops ("(" ++ commaSeparated (assigner.fields.map Assign.text) ++ ")") = true :=
      Stops.append (Stops.append (by decide) _) _
    have whole := (front.append inner stops).append closing
    rw [List.append_assoc] at whole
    rw [kinds, fieldKinds, if_neg empty, if_neg empty]
    exact whole

theorem Starter.closedLines {starter : Starter} (spellable : starter.Spellable) (depth : Nat) :
    ClosedLines (starter.lines depth) starter.kinds :=
  .block (.keyword .starter) (Assigner.closedLines spellable (depth + 1)) depth

/-- A behaviour is printed as its kinds. Groups of lines keep their order. -/
theorem Behaviour.closedLines {behaviour : Behaviour} (spellable : behaviour.Spellable)
    (depth : Nat) : ClosedLines (behaviour.lines depth) behaviour.kinds := by
  obtain ⟨attributes, name, consts, starter, states, _⟩ := spellable
  have word : ClosedText "behaviour " [.keyword .behaviour] := .keywordBlank .behaviour
  have header := word.appendOpen (.identifier name)
  have groups : ∀ group ∈
      (behaviour.starter.toList.map fun starter => (starter.lines (depth + 1), starter.kinds)) ++
        behaviour.states.map fun state => (state.lines (depth + 1), state.kinds),
      ClosedLines group.1 group.2 := by
    rw [List.forall_mem_append, List.forall_mem_map, List.forall_mem_map]
    exact ⟨fun value member =>
        Starter.closedLines (starter value (Option.mem_toList.mp member)) (depth + 1),
      fun state member => State.closedLines (states state member) (depth + 1)⟩
  have inner := ClosedLines.stack (ConstDecl.closedLines consts (depth + 1)) groups
  rw [List.map_append, List.map_map, List.map_map, List.flatMap_append, List.flatMap_map,
    List.flatMap_map] at inner
  have whole := (Attribute.closedLines attributes depth).append (.block header inner depth)
  rw [List.append_assoc (behaviour.consts.flatMap _),
    List.append_assoc (behaviour.starter.toList.flatMap _), List.append_assoc] at whole
  rw [lines, Option.toList_map]
  exact whole

theorem CommandPack.closedLines {pack : CommandPack} (spellable : pack.Spellable) (depth : Nat) :
    ClosedLines (pack.lines depth) pack.kinds := by
  have header := closedText_call (OpenText.keyword .pack) (Reference.openText spellable.1)
  have whole := ClosedLines.block header.toOpen (Command.closedLines spellable.2 (depth + 1)) depth
  rw [show Keyword.pack.text ++ "(" = "pack(" by decide] at whole
  have same : [.keyword .pack] ++ .punct .leftParen :: (pack.script.kinds ++ [.punct .rightParen]) ++
      .punct .leftBrace :: (pack.commands.flatMap Command.kinds ++ [.punct .rightBrace]) =
        pack.kinds := by
    simp only [kinds, List.append_assoc, List.cons_append, List.nil_append]
  rw [same] at whole
  exact whole

/-- A sequence is printed as its kinds, with its attributes above it. -/
theorem Sequence.closedLines {sequence : Sequence} (spellable : sequence.Spellable) :
    ClosedLines sequence.lines
      (sequence.attributes.flatMap Attribute.kinds ++ sequence.bodyKinds) := by
  obtain ⟨attributes, name, consts, packs, commands⟩ := spellable
  have word : ClosedText "sequence " [.keyword .sequence] := .keywordBlank .sequence
  have header := word.appendOpen (.identifier name)
  have packLines := ClosedLines.flatMap fun pack member =>
    CommandPack.closedLines (packs pack member) 1
  have inner := (ConstDecl.closedLines consts 1).append
    (packLines.append (Command.closedLines commands 1))
  have whole := (Attribute.closedLines attributes 0).append (.block header inner 0)
  rw [List.append_assoc (sequence.consts.flatMap _),
    List.append_assoc (sequence.packs.flatMap CommandPack.kinds)] at whole
  rw [lines, List.append_assoc (sequence.consts.map _)]
  exact whole

/-- A library is printed as its kinds, with its attributes above it. -/
theorem Library.closedLines {library : Library} (spellable : library.Spellable) :
    ClosedLines library.lines
      (library.attributes.flatMap Attribute.kinds ++ library.bodyKinds) := by
  obtain ⟨attributes, name, consts, behaviours⟩ := spellable
  have word : ClosedText "library " [.keyword .library] := .keywordBlank .library
  have header := word.appendOpen (.identifier name)
  have groups : ∀ group ∈
      library.behaviours.map fun behaviour => (behaviour.lines 1, behaviour.kinds),
      ClosedLines group.1 group.2 := by
    rw [List.forall_mem_map]
    exact fun behaviour member => Behaviour.closedLines (behaviours behaviour member) 1
  have inner := ClosedLines.stack (ConstDecl.closedLines consts 1) groups
  rw [List.map_map, List.flatMap_map] at inner
  have whole := (Attribute.closedLines attributes 0).append (.block header inner 0)
  rw [List.append_assoc (library.consts.flatMap _), List.append_assoc] at whole
  exact whole

/-- A printed script is split into the kinds of the script. -/
theorem Script.closedText {script : Script} (spellable : script.Spellable)
    (options : PrintOptions) : ClosedText (script.print options) script.kinds := by
  cases script with
  | library content => exact Library.closedLines spellable options
  | behaviour content => exact Behaviour.closedLines spellable 0 options
  | sequence content => exact Sequence.closedLines spellable options

end BehaviourScript
