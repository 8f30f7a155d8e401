/-
This file shows that the tokens of a source tile it. Each token stands where its
span says, what lies in front of it up to the token before is blanks and closed
comments, and the end mark stands at the end. Places are counted anew here, from
the text in front of them: the line by its newlines, the column by the characters
behind the last newline, and the offset by its bytes. The lexer moves its place
along with every character instead, through comments and newlines too, and so the
first fact is that both counts agree.
-/

import BehaviourScript.Proofs.Lexemes

namespace BehaviourScript

open Token

/-! ### Places -/

namespace Position

/-- The place behind a text, counted from the text as a whole. -/
structure Behind (position : Position) (before : List Char) : Prop where
  line : position.line = 1 + before.count '\n'
  column : position.column = 1 + (before.reverse.takeWhile (· != '\n')).length
  offset : position.offset = (String.ofList before).utf8ByteSize

theorem behind_first : first.Behind [] := ⟨rfl, rfl, rfl⟩

theorem Behind.advance {position : Position} {before : List Char} (behind : position.Behind before)
    (char : Char) : (position.advance char).Behind (before ++ [char]) := by
  have bytes : (position.advance char).offset =
      (String.ofList (before ++ [char])).utf8ByteSize := by
    rw [String.ofList_append, String.utf8ByteSize_append, ← behind.offset]
    exact position.offset_after [char]
  by_cases newline : char = '\n'
  · subst newline
    refine ⟨?_, ?_, bytes⟩
    · rw [List.count_append, ← Nat.add_assoc, ← behind.line]
      rfl
    · rw [List.reverse_concat]
      rfl
  · have moved : position.advance char =
        ⟨position.line, position.column + 1, position.offset + char.utf8Size⟩ := if_neg newline
    refine ⟨?_, ?_, bytes⟩
    · rw [moved, List.count_append, List.count_singleton, if_neg (by simpa using newline)]
      exact behind.line
    · rw [moved, List.reverse_concat, List.takeWhile_cons, if_pos (bne_iff_ne.mpr newline),
        List.length_cons, ← Nat.add_assoc, ← behind.column]

/-- Moving on character by character gives the place that is counted from the text. -/
theorem behind_after {position : Position} {before : List Char} (behind : position.Behind before)
    (text : List Char) : (position.after text).Behind (before ++ text) := by
  induction text generalizing position before with
  | nil => rwa [List.append_nil]
  | cons char rest inductionHypothesis =>
    have moved := inductionHypothesis (behind.advance char)
    rwa [List.append_assoc] at moved

/-- A place in a source, between two of its characters or at one of its ends. -/
def In (position : Position) (source : String) : Prop :=
  ∃ before rest, before ++ rest = source.toList ∧ position.Behind before

end Position

/-- The place behind the front part of a source. -/
def placeBehind (before : List Char) : Position := Position.first.after before

theorem placeBehind_append (before text : List Char) :
    placeBehind (before ++ text) = (placeBehind before).after text :=
  Position.after_append ..

theorem placeBehind_behind (before : List Char) : (placeBehind before).Behind before :=
  Position.behind_after Position.behind_first before

theorem placeBehind_in {source : String} {before rest : List Char}
    (whole : before ++ rest = source.toList) : (placeBehind before).In source :=
  ⟨before, rest, whole, placeBehind_behind before⟩

/-! ### Rows of tokens with gaps -/

/-- The tokens of a text, given the text in front of it. Gaps between them are rows of lexemes
that are no tokens. -/
inductive Tiling : List Char → List Char → List Token → Prop
  | finish {before gap : List Char} :
      Splits gap [] [] → Tiling before gap [eofAt (placeBehind (before ++ gap))]
  | token {before gap lexeme rest : List Char} {kind : Kind} {tokens : List Token} :
      Splits gap [] (lexeme ++ rest) → Lexeme lexeme (some kind) rest →
      Tiling (before ++ gap ++ lexeme) rest tokens →
      Tiling before (gap ++ (lexeme ++ rest))
        (⟨kind, String.ofList lexeme,
          ⟨placeBehind (before ++ gap), placeBehind (before ++ gap ++ lexeme)⟩⟩ :: tokens)

/-- A lexeme that is no token makes the gap behind it longer. -/
theorem Tiling.skip {before text rest : List Char} {tokens : List Token}
    (lexeme : Lexeme text none rest) (tiling : Tiling (before ++ text) rest tokens) :
    Tiling before (text ++ rest) tokens := by
  cases tiling with
  | finish gap =>
    rw [List.append_assoc]
    exact .finish (.cons (by rwa [List.append_nil]) gap)
  | token gap word behind =>
    rw [List.append_assoc before] at behind ⊢
    rw [← List.append_assoc text]
    exact .token (.cons lexeme gap) word behind

theorem Lexeme.text_ne_nil {text rest : List Char} {kind : Option Kind}
    (lexeme : Lexeme text kind rest) : text ≠ [] := by
  obtain ⟨first, others, _, reads⟩ := lexeme.read
  exact Piece.text_ne_nil (reads .first)

/-- The tokens of a text tile it. -/
theorem listFrom_tiling {before text : List Char} {tokens : List Token}
    (split : listFrom (placeBehind before) text = .ok tokens) : Tiling before text tokens := by
  generalize start : placeBehind before = position at split
  fun_induction listFrom position text generalizing before tokens with
  | case1 position =>
    cases split
    have finished := @Tiling.finish before [] .nil
    rwa [List.append_nil, start] at finished
  | case2 => cases split
  | case3 => cases split
  | case4 position first rest piece read stop others noToken behind =>
    rename_i inductionHypothesis
    cases split
    rw [← Piece.text_append_rest read]
    have lexeme := Lexeme.of_read read
    rw [noToken] at lexeme
    exact .skip lexeme (inductionHypothesis (by rw [placeBehind_append, start]) behind)
  | case5 position first rest piece read stop others kind isToken behind =>
    rename_i inductionHypothesis
    cases split
    subst start
    rw [← Piece.text_append_rest read]
    have lexeme := Lexeme.of_read read
    rw [isToken] at lexeme
    have tiling := inductionHypothesis (placeBehind_append ..) behind
    have step := @Tiling.token before [] _ _ _ _ .nil lexeme (by rwa [List.append_nil])
    rwa [List.append_nil, placeBehind_append] at step

/-! ### Tiled sources -/

/-- From one byte of a source to another there are only blanks and closed comments. -/
def Skips (source : String) (start stop : Nat) : Prop :=
  ∃ before gap rest, before ++ (gap ++ rest) = source.toList ∧
    start = (String.ofList before).utf8ByteSize ∧
    stop = (String.ofList (before ++ gap)).utf8ByteSize ∧ Splits gap [] rest

/-- Tokens cover a source up to gaps, in order, and say where they stand. The first gap begins
where the source does. -/
structure Tiles (source : String) (tokens : List Token) : Prop where
  ends : ∃ words last, tokens = words ++ [last] ∧
    (∀ word ∈ words, word.kind ≠ .eof ∧ word.lexeme ≠ "") ∧ last.kind = .eof ∧ last.lexeme = "" ∧
    last.span.start = last.span.stop ∧ last.span.start.offset = source.utf8ByteSize
  slices : ∀ token ∈ tokens,
    source.toByteArray.extract token.span.start.offset token.span.stop.offset =
      token.lexeme.toByteArray
  places : ∀ token ∈ tokens, token.span.start.In source ∧ token.span.stop.In source
  ordered : tokens.Pairwise fun left right => left.span.stop.offset ≤ right.span.start.offset
  gaps : (⟨.first, .first⟩ :: tokens.map Token.span).IsChain fun left right =>
    Skips source left.stop.offset right.start.offset

/-- A token stands in a source where its span says. -/
def Token.Stands (token : Token) (source : String) : Prop :=
  ∃ before lexeme rest, before ++ (lexeme ++ rest) = source.toList ∧
    token.lexeme = String.ofList lexeme ∧
    token.span = ⟨placeBehind before, placeBehind (before ++ lexeme)⟩

section Stands

variable {source : String} {token : Token}

theorem Token.Stands.places (stands : token.Stands source) :
    token.span.start.In source ∧ token.span.stop.In source := by
  obtain ⟨before, lexeme, rest, whole, -, span⟩ := stands
  rw [span]
  exact ⟨placeBehind_in whole, placeBehind_in (by rwa [← List.append_assoc] at whole)⟩

theorem Token.Stands.slice (stands : token.Stands source) :
    source.toByteArray.extract token.span.start.offset token.span.stop.offset =
      token.lexeme.toByteArray := by
  obtain ⟨before, lexeme, rest, whole, spelled, span⟩ := stands
  have start : token.span.start.offset = (String.ofList before).toByteArray.size := by
    rw [span, (placeBehind_behind before).offset, String.size_toByteArray]
  have stop : token.span.stop.offset =
      (String.ofList before ++ String.ofList lexeme).toByteArray.size := by
    rw [span, (placeBehind_behind (before ++ lexeme)).offset, String.ofList_append,
      String.size_toByteArray]
  have bytes : source = String.ofList before ++ String.ofList lexeme ++ String.ofList rest := by
    rw [← String.ofList_append, ← String.ofList_append, List.append_assoc, whole,
      String.ofList_toList]
  rw [bytes, spelled, String.toByteArray_append, stop, ByteArray.extract_append_size_left,
    String.toByteArray_append]
  exact ByteArray.extract_append_eq_right start (ByteArray.size_append ..)

end Stands

section Tiled

variable {source : String} {before text : List Char} {tokens : List Token}

theorem Tiling.stands (tiling : Tiling before text tokens)
    (whole : before ++ text = source.toList) : ∀ token ∈ tokens, token.Stands source := by
  induction tiling with
  | @finish before gap _ =>
    refine List.forall_mem_singleton.mpr ⟨before ++ gap, [], [], ?_, rfl, ?_⟩
    · simpa using whole
    · rw [List.append_nil]
      rfl
  | @token before gap lexeme rest kind tokens _ _ _ inductionHypothesis =>
    have here : before ++ gap ++ (lexeme ++ rest) = source.toList := by
      rwa [List.append_assoc]
    refine List.forall_mem_cons.mpr ⟨⟨_, _, _, here, rfl, rfl⟩, inductionHypothesis ?_⟩
    rwa [List.append_assoc _ lexeme]

theorem Tiling.ends (tiling : Tiling before text tokens) :
    ∃ words, tokens = words ++ [eofAt (placeBehind (before ++ text))] ∧
      ∀ word ∈ words, word.kind ≠ .eof ∧ word.lexeme ≠ "" := by
  induction tiling with
  | finish => exact ⟨[], rfl, List.forall_mem_nil _⟩
  | @token before gap lexeme rest kind tokens _ word _ inductionHypothesis =>
    obtain ⟨words, rfl, all⟩ := inductionHypothesis
    have proper : kind ≠ .eof := by
      rintro rfl
      cases word
    have spelled : String.ofList lexeme ≠ "" := fun empty =>
      word.text_ne_nil (String.ofList_eq_empty_iff.mp empty)
    rw [← List.append_assoc, ← List.append_assoc]
    exact ⟨_ :: words, rfl, List.forall_mem_cons.mpr ⟨⟨proper, spelled⟩, all⟩⟩

theorem Tiling.gaps (tiling : Tiling before text tokens) (whole : before ++ text = source.toList)
    {previous : Span} (stop : previous.stop = placeBehind before) :
    (previous :: tokens.map Token.span).IsChain fun left right =>
      Skips source left.stop.offset right.start.offset := by
  induction tiling generalizing previous with
  | @finish before gap skipped =>
    refine .cons_cons ⟨before, gap, [], ?_, ?_, (placeBehind_behind _).offset, skipped⟩
      (.singleton _)
    · rwa [List.append_nil]
    · rw [stop, (placeBehind_behind before).offset]
  | @token before gap lexeme rest kind tokens skipped _ _ inductionHypothesis =>
    refine .cons_cons ⟨before, gap, lexeme ++ rest, whole, ?_, (placeBehind_behind _).offset,
      skipped⟩ (inductionHypothesis ?_ rfl)
    · rw [stop, (placeBehind_behind before).offset]
    · rw [← whole, List.append_assoc (before ++ gap), List.append_assoc before]

theorem offset_placeBehind_le (before text : List Char) :
    (placeBehind before).offset ≤ (placeBehind (before ++ text)).offset := by
  rw [placeBehind_append, Position.offset_after]
  exact Nat.le_add_right ..

theorem Tiling.offset_le (tiling : Tiling before text tokens) :
    ∀ token ∈ tokens, (placeBehind before).offset ≤ token.span.start.offset := by
  induction tiling with
  | finish => exact List.forall_mem_singleton.mpr (offset_placeBehind_le ..)
  | @token before gap lexeme _ _ _ _ _ _ inductionHypothesis =>
    refine List.forall_mem_cons.mpr ⟨offset_placeBehind_le .., fun token member => ?_⟩
    have gapFirst := offset_placeBehind_le before gap
    have lexemeNext := offset_placeBehind_le (before ++ gap) lexeme
    exact Nat.le_trans (Nat.le_trans gapFirst lexemeNext) (inductionHypothesis token member)

theorem Tiling.ordered (tiling : Tiling before text tokens) :
    tokens.Pairwise fun left right => left.span.stop.offset ≤ right.span.start.offset := by
  induction tiling with
  | finish => exact List.pairwise_singleton _ _
  | token _ _ behind inductionHypothesis =>
    exact List.pairwise_cons.mpr ⟨behind.offset_le, inductionHypothesis⟩

theorem Tiling.proper (tiling : Tiling before text tokens) :
    ∀ token ∈ tokens, token.kind ≠ .eof → token.span.start.offset < token.span.stop.offset := by
  induction tiling with
  | finish => exact List.forall_mem_singleton.mpr fun proper => absurd rfl proper
  | @token before gap lexeme _ _ _ _ word _ inductionHypothesis =>
    refine List.forall_mem_cons.mpr ⟨fun _ => ?_, inductionHypothesis⟩
    show (placeBehind (before ++ gap)).offset < (placeBehind (before ++ gap ++ lexeme)).offset
    have size : (String.ofList lexeme).utf8ByteSize ≠ 0 := fun empty =>
      word.text_ne_nil (String.ofList_eq_empty_iff.mp (String.utf8ByteSize_eq_zero_iff.mp empty))
    rw [placeBehind_append (before ++ gap) lexeme, Position.offset_after]
    omega

end Tiled

theorem tokenize_tiling {source : String} {tokens : List Token}
    (split : tokenize source = .ok tokens) : Tiling [] source.toList tokens :=
  listFrom_tiling split

/-- The tokens of a source tile it, and the place of an error is a place in it. -/
theorem tokenize_tiles (source : String) :
    (∀ tokens, tokenize source = .ok tokens → Tiles source tokens) ∧
      ∀ fault, tokenize source = .error fault → fault.position.In source := by
  refine ⟨fun tokens split => ?_, fun fault failed => ?_⟩
  · have tiling := tokenize_tiling split
    have size := (placeBehind_behind source.toList).offset
    rw [String.ofList_toList] at size
    obtain ⟨words, rfl, proper⟩ := tiling.ends
    refine ⟨⟨words, _, rfl, proper, rfl, rfl, rfl, size⟩, ?_, ?_, tiling.ordered,
      tiling.gaps rfl rfl⟩
    · exact fun token member => (tiling.stands rfl token member).slice
    · exact fun token member => (tiling.stands rfl token member).places
  · obtain ⟨before, rest, _, whole, _, _, blamed⟩ := tokenize_eq_error_iff.mp failed
    rw [blamed.position_eq]
    exact placeBehind_in whole

/-- A comment over two lines with a character of two bytes stands in front of an identifier in one
source and of a character that begins no token in the other. -/
theorem tokenize_tiles_behind_comment :
    (∃ word last, tokenize "/* é\n*/ x" = .ok [word, last] ∧
      word.span = ⟨⟨2, 4, 9⟩, ⟨2, 5, 10⟩⟩ ∧ last.span = ⟨⟨2, 5, 10⟩, ⟨2, 5, 10⟩⟩ ∧
      Tiles "/* é\n*/ x" [word, last]) ∧
    ∃ fault, tokenize "/* é\n*/ ?" = .error fault ∧ fault.position = ⟨2, 4, 9⟩ ∧
      fault.position.In "/* é\n*/ ?" := by
  have split : tokenize "/* é\n*/ x" =
      .ok [⟨.identifier "x", "x", ⟨⟨2, 4, 9⟩, ⟨2, 5, 10⟩⟩⟩,
        ⟨.eof, "", ⟨⟨2, 5, 10⟩, ⟨2, 5, 10⟩⟩⟩] := by
    decide +kernel
  have failed : tokenize "/* é\n*/ ?" = .error (.unexpectedChar '?' ⟨2, 4, 9⟩) := by
    decide +kernel
  exact ⟨⟨_, _, split, rfl, rfl, (tokenize_tiles _).1 _ split⟩,
    _, failed, rfl, (tokenize_tiles _).2 _ failed⟩

/-! ### Identifiers -/

/-- The name of an identifier is how the source spells it. -/
theorem Tiling.lexeme_eq {before text : List Char} {tokens : List Token}
    (tiling : Tiling before text tokens) {name : String} :
    ∀ token ∈ tokens, token.kind = .identifier name → token.lexeme = name := by
  induction tiling with
  | finish => exact List.forall_mem_singleton.mpr nofun
  | token _ lexeme _ inductionHypothesis =>
    refine List.forall_mem_cons.mpr ⟨?_, inductionHypothesis⟩
    rintro rfl
    cases lexeme
    rfl

/-- A text that is an identifier is split into one token, which is that identifier, and no other
text is. -/
theorem isIdentifier_iff_tokenize (text : String) :
    isIdentifier text = true ↔ ∃ word last, tokenize text = .ok [word, last] ∧
      word.kind = .identifier text ∧ word.lexeme = text ∧ last.kind = .eof := by
  constructor
  · intro valid
    have lexes := OpenText.identifier valid [] [] nofun .nil
    rw [List.append_nil] at lexes
    obtain ⟨tokens, split, kinds⟩ := lexes .first
    obtain ⟨word, others, rfl, named, othersKinds⟩ := List.map_eq_cons_iff.mp kinds
    obtain ⟨last, rfl, ended⟩ := List.map_eq_singleton_iff.mp othersKinds
    have spelled := (tokenize_tiling split).lexeme_eq word List.mem_cons_self named
    exact ⟨word, last, split, named, spelled, ended⟩
  · rintro ⟨word, last, split, named, -, -⟩
    obtain ⟨kinds, same, lexical⟩ := listFrom_kinds split
    have row : [word.kind] ++ [last.kind] = kinds ++ [.eof] := same
    have front := List.append_inj_left' row rfl
    have valid := lexical word.kind (by rw [← front]; exact List.mem_singleton_self _)
    rwa [named] at valid

end BehaviourScript
