/-
This file says where the nodes of a script stand. The outline of a node is its span
with the outlines of its children, which come in rows: usually in one, but the
settings and the data words of a control packet may be mixed in the source and so
are two.

What readers build is followed without any offsets. A node covers a row of tokens:
its span runs from the first of them to the last one, and its children cover parts
of the row, one behind the other. This is kept when rows are put together. Offsets
come in last: where the tokens stand in order, so do the nodes.
-/

import BehaviourScript.Proofs.Runs.Form

namespace BehaviourScript

open Token

/-! ### Outlines -/

/-- The span of a node, and its children in rows. -/
inductive Outline where
  | node (span : Span) (rows : List (List Outline))

/-- The span of an outlined node. -/
def Outline.span : Outline → Span
  | .node span _ => span

def Expr.outline : Expr → Outline
  | .number _ span => .node span []
  | .const _ span => .node span []
  | .neg operand span => .node span [[operand.outline]]
  | .binary _ left right span => .node span [[left.outline, right.outline]]

def Assign.outline (assign : Assign) : Outline := .node assign.span [[assign.value.outline]]

def ConstDecl.outline (decl : ConstDecl) : Outline := .node decl.span [[decl.value.outline]]

/-- The nodes in an attribute. -/
def Attribute.Kind.rows : Attribute.Kind → List (List Outline)
  | .globalIndex value | .priority value | .instanceType value | .useObjectSlot value
  | .unknown value => [[value.outline]]
  | .controlPacket packet => [packet.settings.map Assign.outline, packet.data.map Expr.outline]
  | .startFrom _ | .nonBlocking | .skipFirstBody => []

def Attribute.outline (attr : Attribute) : Outline := .node attr.span attr.kind.rows

def Condition.outline (condition : Condition) : Outline :=
  .node condition.span [condition.parameter.toList.map Expr.outline]

def Command.outline (command : Command) : Outline :=
  .node command.span [command.args.map Expr.outline]

def StateBody.outline (body : StateBody) : Outline :=
  .node body.span [body.condition.toList.map Condition.outline ++
    body.commands.map Command.outline]

def State.outline (state : State) : Outline :=
  .node state.span [state.attributes.map Attribute.outline ++ state.bodies.map StateBody.outline]

def Assigner.outline (assigner : Assigner) : Outline :=
  .node assigner.span [assigner.fields.map Assign.outline]

def Starter.outline (starter : Starter) : Outline :=
  .node starter.span [starter.assigners.map Assigner.outline]

def Behaviour.outline (behaviour : Behaviour) : Outline :=
  .node behaviour.span [behaviour.attributes.map Attribute.outline ++
    behaviour.consts.map ConstDecl.outline ++ behaviour.starter.toList.map Starter.outline ++
    behaviour.states.map State.outline]

def Library.outline (library : Library) : Outline :=
  .node library.span [library.attributes.map Attribute.outline ++
    library.consts.map ConstDecl.outline ++ library.behaviours.map Behaviour.outline]

def CommandPack.outline (pack : CommandPack) : Outline :=
  .node pack.span [pack.commands.map Command.outline]

def Sequence.outline (sequence : Sequence) : Outline :=
  .node sequence.span [sequence.attributes.map Attribute.outline ++
    sequence.consts.map ConstDecl.outline ++ sequence.packs.map CommandPack.outline ++
    sequence.commands.map Command.outline]

/-- The outline of a whole script. -/
def Script.outline : Script → Outline
  | .library content => content.outline
  | .behaviour content => content.outline
  | .sequence content => content.outline

namespace Outline

/-- A node and all nodes in it are well placed. Each runs from the start of a token to the end
of one, it holds its children, and the children in a row stand one behind the other. -/
inductive Nested (tokens : List Token) : Outline → Prop
  | node {span : Span} {rows : List (List Outline)}
      (starts : ∃ token ∈ tokens, token.kind ≠ .eof ∧ span.start = token.span.start)
      (stops : ∃ token ∈ tokens, token.kind ≠ .eof ∧ span.stop = token.span.stop)
      (proper : span.start.offset < span.stop.offset)
      (inside : ∀ row ∈ rows, ∀ child ∈ row,
        span.start.offset ≤ child.span.start.offset ∧ child.span.stop.offset ≤ span.stop.offset)
      (ordered : ∀ row ∈ rows,
        row.Pairwise fun left right => left.span.stop.offset ≤ right.span.start.offset)
      (children : ∀ row ∈ rows, ∀ child ∈ row, Nested tokens child) :
      Nested tokens (.node span rows)

/-! ### Nodes over tokens -/

mutual

/-- A node runs over a row of tokens. -/
inductive Covers : List Token → Outline → Prop
  | node {tokens : List Token} {first last : Token} {rows : List (List Outline)} :
      tokens.head? = some first → tokens.getLast? = some last →
      (∀ row ∈ rows, Row tokens row) →
      Covers tokens (.node (first.span.through last.span) rows)

/-- Nodes run over parts of a row of tokens, one behind the other. -/
inductive Row : List Token → List Outline → Prop
  | nil {tokens : List Token} : Row tokens []
  | cons {tokens front others : List Token} {outline : Outline} {outlines : List Outline} :
      (front ++ others).Sublist tokens → Covers front outline → Row others outlines →
      Row tokens (outline :: outlines)

end

section Rows

variable {tokens more : List Token} {outline : Outline} {outlines : List Outline}

/-- A row of nodes over some tokens is one over more of them. -/
theorem Row.mono (row : Row tokens outlines) (part : tokens.Sublist more) :
    Row more outlines := by
  cases row with
  | nil => exact .nil
  | cons inside covers others => exact .cons (inside.trans part) covers others

/-- Rows over tokens and the tokens behind them are one row. -/
theorem Row.append {others : List Outline} (row : Row tokens outlines) (behind : Row more others) :
    Row (tokens ++ more) (outlines ++ others) := by
  induction outlines generalizing tokens with
  | nil => exact behind.mono (List.sublist_append_right ..)
  | cons outline outlines inductionHypothesis =>
    cases row with
    | cons inside covers row =>
      refine .cons ?_ covers (inductionHypothesis row)
      rw [← List.append_assoc]
      exact inside.append_right more

/-- Some nodes of a row are a row. -/
theorem Row.sublist {others : List Outline} (row : Row tokens outlines)
    (kept : others.Sublist outlines) : Row tokens others := by
  induction kept generalizing tokens with
  | slnil => exact .nil
  | cons outline _ inductionHypothesis =>
    cases row with
    | cons inside _ row =>
      exact (inductionHypothesis row).mono ((List.sublist_append_right ..).trans inside)
  | cons_cons outline _ inductionHypothesis =>
    cases row with
    | cons inside covers row => exact .cons inside covers (inductionHypothesis row)

/-- A node over tokens is a row of one. -/
theorem Covers.row (covers : Covers tokens outline) : Row tokens [outline] := by
  have whole : (tokens ++ []).Sublist tokens := by
    simp only [List.append_nil, List.Sublist.refl]
  exact .cons whole covers .nil

/-! ### Nodes in order -/

/-- Tokens that stand in order, none of them empty or the end mark. -/
structure Words (all tokens : List Token) : Prop where
  ordered : tokens.Pairwise fun left right => left.span.stop.offset ≤ right.span.start.offset
  proper : ∀ token ∈ tokens, token.span.start.offset < token.span.stop.offset
  among : ∀ token ∈ tokens, token ∈ all ∧ token.kind ≠ .eof

variable {all : List Token}

theorem Words.part (words : Words all tokens) (part : more.Sublist tokens) : Words all more where
  ordered := words.ordered.sublist part
  proper token member := words.proper token (part.subset member)
  among token member := words.among token (part.subset member)

/-- The first of tokens in order starts first. -/
theorem Words.head_le (words : Words all tokens) {first token : Token}
    (head : tokens.head? = some first) (member : token ∈ tokens) :
    first.span.start.offset ≤ token.span.start.offset := by
  obtain ⟨others, rfl⟩ := List.head?_eq_some_iff.mp head
  cases member with
  | head => exact Nat.le_refl _
  | tail _ member =>
    have behind := List.rel_of_pairwise_cons words.ordered member
    have proper := words.proper first List.mem_cons_self
    omega

/-- The last of tokens in order stops last. -/
theorem Words.le_last (words : Words all tokens) {last token : Token}
    (final : tokens.getLast? = some last) (member : token ∈ tokens) :
    token.span.stop.offset ≤ last.span.stop.offset := by
  obtain ⟨front, rfl⟩ := List.getLast?_eq_some_iff.mp final
  rcases List.mem_append.mp member with before | same
  · have behind := (List.pairwise_append.mp words.ordered).2.2 token before last
      (List.mem_singleton_self _)
    have proper := words.proper last List.mem_concat_self
    omega
  · exact List.mem_singleton.mp same ▸ Nat.le_refl _

theorem Covers.ends (covers : Covers tokens outline) :
    ∃ first ∈ tokens, ∃ last ∈ tokens, outline.span = first.span.through last.span := by
  cases covers with
  | node head final _ =>
    exact ⟨_, List.mem_of_mem_head? head, _, List.mem_of_mem_getLast? final, rfl⟩

/-- Every node of a row begins with a token and ends with one. -/
theorem Row.ends (row : Row tokens outlines) :
    ∀ outline ∈ outlines, ∃ first ∈ tokens, ∃ last ∈ tokens,
      outline.span = first.span.through last.span := by
  induction outlines generalizing tokens with
  | nil => exact List.forall_mem_nil _
  | cons outline outlines inductionHypothesis =>
    cases row with
    | cons inside covers row =>
      refine List.forall_mem_cons.mpr ⟨?_, fun other member => ?_⟩
      · obtain ⟨first, firstIn, last, lastIn, span⟩ := covers.ends
        exact ⟨first, inside.subset (List.mem_append_left _ firstIn), last,
          inside.subset (List.mem_append_left _ lastIn), span⟩
      · obtain ⟨first, firstIn, last, lastIn, span⟩ := inductionHypothesis row other member
        exact ⟨first, inside.subset (List.mem_append_right _ firstIn), last,
          inside.subset (List.mem_append_right _ lastIn), span⟩

/-- The nodes of a row stand one behind the other, since their tokens do. -/
theorem Row.ordered (row : Row tokens outlines) (words : Words all tokens) :
    outlines.Pairwise fun left right => left.span.stop.offset ≤ right.span.start.offset := by
  induction outlines generalizing tokens with
  | nil => exact .nil
  | cons outline outlines inductionHypothesis =>
    cases row with
    | cons inside covers row =>
      have parts := words.part inside
      have behind := parts.part (List.sublist_append_right ..)
      refine List.pairwise_cons.mpr ⟨fun other member => ?_, inductionHypothesis row behind⟩
      obtain ⟨_, _, last, lastIn, span⟩ := covers.ends
      obtain ⟨first, firstIn, _, _, otherSpan⟩ := row.ends other member
      rw [span, otherSpan]
      exact (List.pairwise_append.mp parts.ordered).2.2 last lastIn first firstIn

end Rows

mutual

/-- Nodes over tokens in order are well placed. -/
theorem Covers.nested {all tokens : List Token} {outline : Outline}
    (covers : Covers tokens outline) (words : Words all tokens) : Nested all outline := by
  cases covers with
  | @node _ first last rows head final inner =>
    have firstIn := List.mem_of_mem_head? head
    have lastIn := List.mem_of_mem_getLast? final
    refine .node ⟨first, (words.among first firstIn).1, (words.among first firstIn).2, rfl⟩
      ⟨last, (words.among last lastIn).1, (words.among last lastIn).2, rfl⟩ ?_ ?_
      (fun row member => (inner row member).ordered words)
      (fun row member => (inner row member).nested words)
    · exact Nat.lt_of_lt_of_le (words.proper first firstIn) (words.le_last final firstIn)
    · intro row member child childIn
      obtain ⟨left, leftIn, right, rightIn, span⟩ := (inner row member).ends child childIn
      rw [span]
      exact ⟨words.head_le head leftIn, words.le_last final rightIn⟩

/-- Nodes over tokens in order are nested as outlines should be. The induction is on how the nodes
were put together. -/
theorem Row.nested {all tokens : List Token} {outlines : List Outline}
    (row : Row tokens outlines) (words : Words all tokens) :
    ∀ outline ∈ outlines, Nested all outline := by
  cases row with
  | nil => exact List.forall_mem_nil _
  | cons inside covers row =>
    have parts := words.part inside
    exact List.forall_mem_cons.mpr ⟨covers.nested (parts.part (List.sublist_append_left ..)),
      row.nested (parts.part (List.sublist_append_right ..))⟩

end


end Outline

/-! ### Nodes between cursors -/

namespace Cursor

variable {cursor middle next : Cursor} {outlines others : List Outline}

/-- From one cursor to another there are nodes. -/
def Lays (cursor : Cursor) (outlines : List Outline) (next : Cursor) : Prop :=
  ∃ tokens, cursor.Crosses tokens next ∧ Outline.Row tokens outlines

/-- From one cursor to another there are nodes, and a token at least. -/
def Fills (cursor : Cursor) (outlines : List Outline) (next : Cursor) : Prop :=
  ∃ tokens, tokens ≠ [] ∧ cursor.Crosses tokens next ∧ Outline.Row tokens outlines

theorem Lays.refl (cursor : Cursor) : cursor.Lays [] cursor := ⟨[], .refl cursor, .nil⟩

theorem lays_atDepth (cursor : Cursor) (depth : Nat) : cursor.Lays [] (cursor.atDepth depth) :=
  ⟨[], ⟨rfl, rfl, List.forall_mem_nil _⟩, .nil⟩

theorem Fills.lays (fills : cursor.Fills outlines next) : cursor.Lays outlines next := by
  obtain ⟨tokens, -, crosses, row⟩ := fills
  exact ⟨tokens, crosses, row⟩

/-- What is laid out behind what was laid out before is one row. -/
theorem Lays.trans (lays : cursor.Lays outlines middle) (behind : middle.Lays others next) :
    cursor.Lays (outlines ++ others) next := by
  obtain ⟨front, crosses, row⟩ := lays
  obtain ⟨back, onward, further⟩ := behind
  exact ⟨front ++ back, crosses.trans onward, row.append further⟩

/-- What follows the tokens of a node goes on with them. -/
theorem Fills.trans (fills : cursor.Fills outlines middle) (behind : middle.Lays others next) :
    cursor.Fills (outlines ++ others) next := by
  obtain ⟨front, nonempty, crosses, row⟩ := fills
  obtain ⟨back, onward, further⟩ := behind
  exact ⟨front ++ back, List.append_ne_nil_of_left_ne_nil nonempty _, crosses.trans onward,
    row.append further⟩

theorem Lays.fills (lays : cursor.Lays outlines middle) (behind : middle.Fills others next) :
    cursor.Fills (outlines ++ others) next := by
  obtain ⟨front, crosses, row⟩ := lays
  obtain ⟨back, nonempty, onward, further⟩ := behind
  exact ⟨front ++ back, List.append_ne_nil_of_right_ne_nil _ nonempty, crosses.trans onward,
    row.append further⟩

theorem Fills.skip (fills : cursor.Fills outlines middle) (behind : middle.Lays [] next) :
    cursor.Fills outlines next := List.append_nil outlines ▸ fills.trans behind

theorem Lays.skip (lays : cursor.Lays outlines middle) (behind : middle.Lays [] next) :
    cursor.Lays outlines next := List.append_nil outlines ▸ lays.trans behind

/-- A row is closed by a word behind it. -/
theorem Lays.closed (lays : cursor.Lays outlines middle) (behind : middle.Fills [] next) :
    cursor.Fills outlines next := List.append_nil outlines ▸ lays.fills behind

theorem lays_advance (cursor : Cursor) : cursor.Lays [] cursor.advance := by
  obtain ⟨tokens, crosses⟩ := cursor.forward_advance
  exact ⟨tokens, crosses, .nil⟩

/-- A sign is passed one level further in. -/
theorem lays_inward (cursor : Cursor) (depth : Nat) :
    cursor.Lays [] (cursor.atDepth depth).advance :=
  (cursor.lays_atDepth depth).trans (Cursor.lays_advance _)

theorem fills_advance {kind : Kind} (head : cursor.kind = kind) (proper : kind ≠ .eof) :
    cursor.Fills [] cursor.advance := by
  obtain ⟨token, crosses, -, -⟩ := crosses_advance (head ▸ proper)
  exact ⟨[token], List.cons_ne_nil _ _, crosses, .nil⟩

/-- A token that is a node of its own. -/
theorem fills_leaf {kind : Kind} (head : cursor.kind = kind) (proper : kind ≠ .eof) :
    cursor.Fills [.node cursor.span []] cursor.advance := by
  obtain ⟨token, crosses, -, span⟩ := crosses_advance (head ▸ proper)
  refine ⟨[token], List.cons_ne_nil _ _, crosses, ?_⟩
  rw [← span]
  exact (Outline.Covers.node rfl rfl (List.forall_mem_nil _)).row

/-- What was read from a cursor on becomes a node. Its children are among the nodes read. -/
theorem Fills.node (fills : cursor.Fills outlines next) {rows : List (List Outline)}
    (among : ∀ row ∈ rows, row.Sublist outlines) :
    cursor.Fills [.node (next.spanFrom cursor.span) rows] next := by
  obtain ⟨tokens, nonempty, crosses, row⟩ := fills
  obtain ⟨first, behind, start⟩ := List.exists_cons_of_ne_nil nonempty
  obtain ⟨last, before, stop⟩ :=
    List.exists_cons_of_ne_nil (List.reverse_ne_nil_iff.mpr nonempty)
  have startSpan : cursor.span = first.span := by
    unfold span
    rw [crosses.rest, start]
    rfl
  have stopSpan : next.previousSpan = last.span := by
    unfold previousSpan
    rw [crosses.passed, stop]
    rfl
  refine ⟨tokens, nonempty, crosses, Outline.Covers.row ?_⟩
  rw [spanFrom, startSpan, stopSpan]
  refine .node (by rw [start]; rfl) ?_ fun inner member => row.sublist (among inner member)
  rw [List.getLast?_eq_head?_reverse, stop]
  rfl

/-- One row of children holds all nodes read. -/
theorem Fills.node_one (fills : cursor.Fills outlines next) :
    cursor.Fills [.node (next.spanFrom cursor.span) [outlines]] next :=
  fills.node (List.forall_mem_singleton.mpr (.refl outlines))

end Cursor

end BehaviourScript
