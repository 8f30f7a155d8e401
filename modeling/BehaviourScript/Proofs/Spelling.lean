/-
This file says which texts are which tokens. Only the kinds of tokens matter
here, so places are left out: a text lexes as a row of kinds if it is split into
tokens of these kinds wherever it starts.

Texts are put together from small ones. A closed text ends with a character
that no token goes on over, so anything may follow it. An open text may end with
a word or a number, and then what follows must not go on with it. Both are
statements about every continuation of the text, which is what makes them add
up.

The last part is about texts that nobody chose: whatever is split into tokens,
the identifiers among them are identifiers, the numbers are small, and the end
mark comes last and only there.
-/

import BehaviourScript.Proofs.Names

namespace BehaviourScript

open Token

/-- A text is split into tokens of these kinds, and the end mark. -/
def Lexes (text : List Char) (kinds : List Kind) : Prop :=
  ∀ position, ∃ tokens,
    listFrom position text = .ok tokens ∧ tokens.map Token.kind = kinds ++ [.eof]

/-- A text does not start with a character that a word or number goes on over. -/
def StopsWord (text : List Char) : Prop :=
  ∀ char rest, text = char :: rest → isWordChar char = false

theorem StopsWord.cons {char : Char} (stop : isWordChar char = false) (rest : List Char) :
    StopsWord (char :: rest) := by
  rintro _ _ ⟨⟩
  exact stop

/-! ### Single tokens -/

/-- The empty text has no tokens. -/
theorem Lexes.nil : Lexes [] [] := by
  intro position
  exact ⟨[eofAt position], by rw [listFrom], rfl⟩

/-- A text lexes as the piece that it begins with and what the rest lexes as. -/
theorem Lexes.piece {first : Char} {rest : List Char} (piece : Piece) {kinds : List Kind}
    (reads : ∀ position, Piece.read position first rest = .ok piece)
    (behind : Lexes piece.rest kinds) : Lexes (first :: rest) (piece.kind.toList ++ kinds) := by
  intro position
  obtain ⟨tokens, split, same⟩ := behind (position.after piece.text)
  rw [listFrom]
  split
  · next fault read =>
    rw [reads] at read
    cases read
  · next found read =>
    rw [reads] at read
    cases read
    simp only [split]
    cases piece.kind with
    | none => exact ⟨tokens, rfl, same⟩
    | some kind => exact ⟨_, rfl, by rw [List.map_cons, same]; rfl⟩

/-- A blank in front of a text changes nothing. -/
theorem Lexes.blank {char : Char} {rest : List Char} {kinds : List Kind}
    (blank : isBlank char = true) (behind : Lexes rest kinds) : Lexes (char :: rest) kinds :=
  .piece ⟨none, [char], rest⟩ (fun _ => if_pos blank) behind

/-- A mark is no blank, starts no word and is no digit. -/
theorem Punct.char_plain (mark : Punct) :
    isBlank mark.char = false ∧ isWordStart mark.char = false ∧ mark.char.isDigit = false ∧
      Punct.ofChar? mark.char = some mark := by
  cases mark <;> decide

theorem Token.Piece.read_mark (mark : Punct) (rest : List Char) (position : Position) :
    Piece.read position mark.char rest = .ok ⟨some (.punct mark), [mark.char], rest⟩ := by
  obtain ⟨notBlank, notWord, notDigit, known⟩ := mark.char_plain
  simp only [Piece.read, notBlank, notWord, notDigit, known, Bool.false_eq_true, if_false]

/-- A mark is a token, whatever follows it. -/
theorem Lexes.mark (mark : Punct) {rest : List Char} {kinds : List Kind}
    (behind : Lexes rest kinds) : Lexes (mark.char :: rest) (.punct mark :: kinds) :=
  .piece ⟨some (.punct mark), [mark.char], rest⟩ (Piece.read_mark mark rest) behind

/-- A run of characters ends where the text does not go on with it. -/
theorem takeWhile_append_stop {inside : Char → Bool} {run rest : List Char}
    (all : ∀ char ∈ run, inside char = true)
    (stops : ∀ char others, rest = char :: others → inside char = false) :
    (run ++ rest).takeWhile inside = run ∧ (run ++ rest).dropWhile inside = rest := by
  rw [List.takeWhile_append_of_pos all, List.dropWhile_append_of_pos all]
  cases rest with
  | nil => exact ⟨List.append_nil run, rfl⟩
  | cons char others =>
    have stop := stops char others rfl
    rw [List.takeWhile_cons_of_neg (by rw [stop]; decide),
      List.dropWhile_cons_of_neg (by rw [stop]; decide), List.append_nil]
    exact ⟨rfl, rfl⟩

theorem isBlank_of_isWordChar {char : Char} (word : isWordChar char = true) :
    isBlank char = false := by
  rw [← Bool.not_eq_true]
  intro blank
  simp only [isBlank, Bool.or_eq_true, beq_iff_eq] at blank
  rcases blank with ((rfl | rfl) | rfl) | rfl <;> exact absurd word (by decide)

theorem isWordChar_of_isWordStart {char : Char} (start : isWordStart char = true) :
    isWordChar char = true := by
  rw [isWordStart, Bool.or_eq_true] at start
  rw [isWordChar, Char.isAlphanum, Bool.or_eq_true, Bool.or_eq_true]
  exact start.imp_left Or.inl

theorem isUpper_iff {char : Char} : char.isUpper = true ↔ 'A' ≤ char ∧ char ≤ 'Z' :=
  decide_eq_true_iff

theorem isLower_iff {char : Char} : char.isLower = true ↔ 'a' ≤ char ∧ char ≤ 'z' := by
  show (decide ('a'.val ≤ char.val) && decide (char.val ≤ 'z'.val)) = true ↔ _
  rw [Bool.and_eq_true, decide_eq_true_iff, decide_eq_true_iff]
  rfl

theorem isWordStart_of_isDigit {char : Char} (digit : char.isDigit = true) :
    isWordStart char = false := by
  rw [← Bool.not_eq_true]
  intro start
  rw [Char.isDigit_iff_toNat] at digit
  have letter : (char.isUpper || char.isLower) = true ∨ char = '_' := by
    rw [isWordStart, Bool.or_eq_true, beq_iff_eq] at start
    exact start
  rw [Bool.or_eq_true, isUpper_iff, isLower_iff] at letter
  rcases letter with (upper | lower) | rfl
  · have above : 'A'.toNat ≤ char.toNat := upper.1
    have : '9'.toNat < 'A'.toNat := by decide
    omega
  · have above : 'a'.toNat ≤ char.toNat := lower.1
    have : '9'.toNat < 'a'.toNat := by decide
    omega
  · exact absurd digit (by decide)

section Runs

variable {first : Char} {others rest : List Char}
  (all : ∀ char ∈ others, isWordChar char = true) (stops : StopsWord rest)

include all stops

/-- A word is read to its last character. -/
theorem Token.Piece.read_word (start : isWordStart first = true) (position : Position) :
    Piece.read position first (others ++ rest) =
      .ok ⟨some (wordKind (String.ofList (first :: others))), first :: others, rest⟩ := by
  have notBlank := isBlank_of_isWordChar (isWordChar_of_isWordStart start)
  obtain ⟨taken, dropped⟩ := takeWhile_append_stop all stops
  simp only [Piece.read, notBlank, start, taken, dropped, Bool.false_eq_true, if_false, if_true]

/-- A run that begins with a digit is a number to its last character, or a fault. -/
theorem Token.Piece.read_number (start : first.isDigit = true) (position : Position) :
    Piece.read position first (others ++ rest) =
      match numberValue? (first :: others) with
      | some value => .ok ⟨some (.number (.ofNat value)), first :: others, rest⟩
      | none => .error (.malformedNumber (String.ofList (first :: others)) position) := by
  have notBlank := isBlank_of_isWordChar (isWordChar_of_isDigit start)
  have notWord := isWordStart_of_isDigit start
  obtain ⟨taken, dropped⟩ := takeWhile_append_stop all stops
  cases value : numberValue? (first :: others) <;>
    simp only [Piece.read, notBlank, notWord, start, taken, dropped, value, Bool.false_eq_true,
      if_false, if_true]

end Runs

/-- A word is one token if what follows it does not go on with it. -/
theorem Lexes.word {first : Char} {word rest : List Char} {kinds : List Kind}
    (start : isWordStart first = true) (all : ∀ char ∈ word, isWordChar char = true)
    (stops : StopsWord rest) (behind : Lexes rest kinds) :
    Lexes (first :: word ++ rest) (wordKind (String.ofList (first :: word)) :: kinds) :=
  .piece ⟨some (wordKind (String.ofList (first :: word))), first :: word, rest⟩
    (Piece.read_word all stops start) behind

/-- A reserved word has the shape of a word. -/
theorem Keyword.text_word (keyword : Keyword) :
    ∃ first others, keyword.text.toList = first :: others ∧ isWordStart first = true ∧
      (∀ char ∈ others, isWordChar char = true) ∧
      wordKind (String.ofList (first :: others)) = .keyword keyword := by
  obtain ⟨first, others, shape, start, all⟩ : ∃ first others,
      keyword.text.toList = first :: others ∧ isWordStart first = true ∧
        others.all isWordChar = true := by
    cases keyword <;> exact ⟨_, _, rfl, by decide, by decide⟩
  refine ⟨first, others, shape, start, List.all_eq_true.mp all, ?_⟩
  rw [← shape, String.ofList_toList]
  cases keyword <;> rfl

/-- A row of decimal digits is never taken for a hexadecimal number. -/
theorem numberValue?_of_isDigit {digits : List Char}
    (all : ∀ char ∈ digits, char.isDigit = true) :
    numberValue? digits = Numeral.readBelow? 10 numberBound digits := by
  unfold numberValue?
  split
  · exact absurd (all 'x' (by simp)) (by decide)
  · exact absurd (all 'X' (by simp)) (by decide)
  · rfl

/-- A number in decimal is one token if what follows it does not go on with it. -/
theorem Lexes.number {number : Nat} (small : number < numberBound) {rest : List Char}
    {kinds : List Kind} (stops : StopsWord rest) (behind : Lexes rest kinds) :
    Lexes (number.repr.toList ++ rest) (.number (.ofNat number) :: kinds) := by
  have value : numberValue? number.repr.toList = some number := by
    rw [numberValue?_of_isDigit fun _ => Numeral.isDigit_of_mem_repr,
      Numeral.readBelow?_repr small]
  have digits : ∀ char ∈ number.repr.toList, char.isDigit = true :=
    fun _ => Numeral.isDigit_of_mem_repr
  obtain ⟨first, others, shape⟩ := Numeral.exists_toList_repr number
  rw [shape] at value digits ⊢
  obtain ⟨firstDigit, otherDigits⟩ := List.forall_mem_cons.mp digits
  rw [List.cons_append]
  refine .piece ⟨some (.number (.ofNat number)), first :: others, rest⟩ (fun position => ?_) behind
  rw [Piece.read_number (fun char member => isWordChar_of_isDigit (otherDigits char member)) stops
    firstDigit, value]

/-! ### Putting texts together -/

/-- A text that is a row of tokens whatever follows it. -/
def ClosedText (text : String) (kinds : List Kind) : Prop :=
  ∀ rest more, Lexes rest more → Lexes (text.toList ++ rest) (kinds ++ more)

/-- A text that is a row of tokens if what follows it stops a word. -/
def OpenText (text : String) (kinds : List Kind) : Prop :=
  ∀ rest more, StopsWord rest → Lexes rest more → Lexes (text.toList ++ rest) (kinds ++ more)

/-- A text that is not empty and stops a word. -/
def Stops (text : String) : Bool :=
  match text.toList with
  | [] => false
  | first :: _ => !isWordChar first

/-- A text that stops a word stops it with whatever follows. -/
theorem Stops.stopsWord {text : String} (stops : Stops text = true) (rest : List Char) :
    StopsWord (text.toList ++ rest) := by
  unfold Stops at stops
  split at stops
  · cases stops
  · next first others shape =>
    rw [shape, List.cons_append]
    exact .cons (by simpa using stops) _

theorem Stops.append {text : String} (stops : Stops text = true) (rest : String) :
    Stops (text ++ rest) = true := by
  unfold Stops at stops ⊢
  rw [String.toList_append]
  cases shape : text.toList with
  | nil =>
    rw [shape] at stops
    cases stops
  | cons first others =>
    rw [shape] at stops
    exact stops

variable {first second : String} {firstKinds secondKinds : List Kind}

theorem ClosedText.toOpen (closed : ClosedText first firstKinds) : OpenText first firstKinds :=
  fun rest more _ behind => closed rest more behind

theorem ClosedText.empty : ClosedText "" [] := fun _ _ behind => behind

/-- Closed texts may stand next to each other. -/
theorem ClosedText.append (left : ClosedText first firstKinds) (right : ClosedText second secondKinds) :
    ClosedText (first ++ second) (firstKinds ++ secondKinds) := by
  intro rest more behind
  rw [String.toList_append, List.append_assoc, List.append_assoc]
  exact left _ _ (right _ _ behind)

theorem ClosedText.appendOpen (left : ClosedText first firstKinds) (right : OpenText second secondKinds) :
    OpenText (first ++ second) (firstKinds ++ secondKinds) := by
  intro rest more stops behind
  rw [String.toList_append, List.append_assoc, List.append_assoc]
  exact left _ _ (right _ _ stops behind)

/-- An open text may stand in front of a closed one that stops words. -/
theorem OpenText.append (left : OpenText first firstKinds) (right : ClosedText second secondKinds)
    (stops : Stops second = true) : ClosedText (first ++ second) (firstKinds ++ secondKinds) := by
  intro rest more behind
  rw [String.toList_append, List.append_assoc, List.append_assoc]
  exact left _ _ (Stops.stopsWord stops rest) (right _ _ behind)

theorem OpenText.appendOpen (left : OpenText first firstKinds) (right : OpenText second secondKinds)
    (stops : Stops second = true) : OpenText (first ++ second) (firstKinds ++ secondKinds) := by
  intro rest more restStops behind
  rw [String.toList_append, List.append_assoc, List.append_assoc]
  exact left _ _ (Stops.stopsWord stops rest) (right _ _ restStops behind)

/-- A closed text on its own is split into its tokens. -/
theorem ClosedText.tokenize (closed : ClosedText first firstKinds) :
    ∃ tokens, BehaviourScript.tokenize first = .ok tokens ∧
      tokens.map Token.kind = firstKinds ++ [.eof] := by
  have whole := closed [] [] .nil
  rw [List.append_nil, List.append_nil] at whole
  exact whole .first

/-! ### The texts that others are made of -/

/-- The marks in a text, in order. -/
def marksOf (text : String) : List Kind :=
  text.toList.filterMap fun char => (Punct.ofChar? char).map .punct

/-- Blanks and marks may stand in any order and side by side. -/
theorem ClosedText.marks {text : String}
    (plain : (text.toList.all fun char => isBlank char || (Punct.ofChar? char).isSome) = true) :
    ClosedText text (marksOf text) := by
  intro rest more behind
  unfold marksOf
  generalize text.toList = chars at plain ⊢
  induction chars with
  | nil => exact behind
  | cons char others inductionHypothesis =>
    rw [List.all_cons, Bool.and_eq_true, Bool.or_eq_true] at plain
    have tail := inductionHypothesis plain.2
    rw [List.cons_append, List.filterMap_cons]
    cases known : Punct.ofChar? char with
    | none =>
      rw [known] at plain
      exact .blank (plain.1.resolve_right Bool.false_ne_true) tail
    | some mark =>
      have same : mark.char = char :=
        eq_of_beq (List.find?_some (p := fun mark : Punct => mark.char == char) known)
      rw [← same]
      exact .mark mark tail

/-- An identifier is a token that words must not follow at once. -/
theorem OpenText.identifier {name : String} (valid : isIdentifier name = true) :
    OpenText name [.identifier name] := by
  intro rest more stops behind
  unfold isIdentifier at valid
  split at valid
  · cases valid
  · next first others shape =>
    rw [Bool.and_eq_true, Bool.and_eq_true, List.all_eq_true] at valid
    obtain ⟨⟨start, all⟩, unreserved⟩ := valid
    have whole : String.ofList (first :: others) = name := by
      rw [← shape, String.ofList_toList]
    have kind : wordKind (String.ofList (first :: others)) = .identifier name := by
      rw [whole, wordKind, Option.isNone_iff_eq_none.mp unreserved]
    rw [shape, List.singleton_append, ← kind]
    exact .word start all stops behind

theorem OpenText.keyword (keyword : Keyword) : OpenText keyword.text [.keyword keyword] := by
  intro rest more stops behind
  obtain ⟨first, others, shape, start, all, kind⟩ := keyword.text_word
  rw [shape, List.singleton_append, ← kind]
  exact .word start all stops behind

theorem OpenText.number {number : Nat} (small : number < numberBound) :
    OpenText number.repr [.number (.ofNat number)] :=
  fun _ _ stops behind => .number small stops behind

/-- A reserved word and the blank behind it. -/
theorem ClosedText.keywordBlank (keyword : Keyword) :
    ClosedText (keyword.text ++ " ") [.keyword keyword] :=
  (OpenText.keyword keyword).append (.marks (by decide)) (by decide)

/-! ### What tokens can be -/

namespace Token

/-- A number that is spelled out keeps its value in 64 bits, and so does its negative. -/
theorem toInt_ofNat {number : Nat} (small : number < numberBound) :
    (Int64.ofNat number).toInt = number :=
  Int64.toInt_ofNat_of_lt small

/-- The negative of a number from a source text fits the integers of tokens. -/
theorem toInt_neg_ofNat {number : Nat} (small : number < numberBound) :
    (-Int64.ofNat number).toInt = -number := by
  rw [Int64.toInt_neg, toInt_ofNat small]
  refine Int.bmod_eq_of_le ?_ ?_ <;> unfold numberBound at small <;> omega

/-- A number without a sign can be spelled out. -/
theorem exists_ofNat {value : Int64} (unsigned : 0 ≤ value.toInt) :
    ∃ number < numberBound, Int64.ofNat number = value := by
  have small : value.toInt.toNat < numberBound := by
    have below := value.toInt_lt
    unfold numberBound
    omega
  refine ⟨value.toInt.toNat, small, Int64.toInt_inj.mp ?_⟩
  rw [toInt_ofNat small, Int.toNat_of_nonneg unsigned]

end Token

/-- What the kinds of tokens in front of the end mark are like. -/
def Token.Kind.Lexical : Kind → Prop
  | .identifier name => isIdentifier name = true
  | .number value => 0 ≤ value.toInt
  | .eof => False
  | _ => True

/-- A word is a keyword or an identifier that is none. -/
theorem wordKind_lexical {first : Char} {word : List Char} (start : isWordStart first = true)
    (all : word.all isWordChar = true) :
    (wordKind (String.ofList (first :: word))).Lexical := by
  unfold wordKind
  split
  · trivial
  · next unreserved =>
    show isIdentifier _ = true
    rw [isIdentifier, String.toList_ofList]
    simp only [start, all, unreserved, Option.isNone_none, Bool.and_self]

/-- A number that is read is below the bound. -/
theorem numberValue?_lt {digits : List Char} {value : Nat}
    (read : numberValue? digits = some value) : value < numberBound := by
  have bounded : ∀ base digits,
      Numeral.readBelow? base numberBound digits = some value → value < numberBound := by
    intro base digits found
    rw [Numeral.readBelow?, Option.filter_eq_some_iff] at found
    exact of_decide_eq_true found.2
  unfold numberValue? at read
  split at read <;> exact bounded _ _ read

/-- A piece of a text is never an end mark, an identifier that is a keyword or a negative
number. -/
theorem Token.Piece.kind_lexical {position : Position} {first : Char} {rest : List Char}
    {piece : Piece} (found : Piece.read position first rest = .ok piece) {kind : Kind}
    (isToken : piece.kind = some kind) : kind.Lexical := by
  unfold Piece.read at found
  split at found
  · cases found
    cases isToken
  split at found
  · next start =>
    cases found
    cases isToken
    exact wordKind_lexical start List.all_takeWhile
  split at found
  · dsimp only at found
    split at found
    · next value read =>
      cases found
      cases isToken
      show 0 ≤ (Int64.ofNat value).toInt
      rw [toInt_ofNat (numberValue?_lt read)]
      exact Int.natCast_nonneg value
    · cases found
  split at found
  · cases found
    cases isToken
    trivial
  · cases found
    cases isToken
  · split at found
    · cases found
      cases isToken
    · cases found
  · cases found

/-- A token list is a row of proper tokens and the end mark. -/
theorem listFrom_kinds {position : Position} {text : List Char} {tokens : List Token}
    (split : listFrom position text = .ok tokens) :
    ∃ kinds, tokens.map Token.kind = kinds ++ [.eof] ∧ ∀ kind ∈ kinds, kind.Lexical := by
  fun_induction listFrom position text generalizing tokens with
  | case1 position =>
    cases split
    exact ⟨[], rfl, by simp⟩
  | case2 => cases split
  | case3 => cases split
  | case4 position first rest piece read stop others _ behind =>
    rename_i inductionHypothesis
    cases split
    exact inductionHypothesis behind
  | case5 position first rest piece read stop others kind isToken behind =>
    rename_i inductionHypothesis
    cases split
    obtain ⟨kinds, same, lexical⟩ := inductionHypothesis behind
    refine ⟨kind :: kinds, by rw [List.map_cons, same]; rfl, ?_⟩
    intro other member
    rcases List.mem_cons.mp member with rfl | inRest
    · exact Piece.kind_lexical read isToken
    · exact lexical other inRest

end BehaviourScript
