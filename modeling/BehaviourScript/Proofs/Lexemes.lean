/-
This file writes the lexical grammar down, apart from the functions that follow
it, and proves that splitting a text into tokens does what the grammar says. A
lexeme is a blank, a comment, a word, a number or a mark. Words and numbers are
runs of letters, digits and underscores that nothing of the kind follows, line
comments stop in front of a newline, and block comments at the first end mark.
Longest match is part of the grammar: a lexeme says what may follow it.

A text that cannot be split is split up to the first place where no lexeme
begins, and the error is about what stands there.
-/

import BehaviourScript.Proofs.Spelling
import Mathlib.Data.Nat.Digits.Defs

namespace BehaviourScript

open Token

/-! ### The lexical grammar -/

namespace Lexeme

def IsLetter (char : Char) : Prop := 'A' ≤ char ∧ char ≤ 'Z' ∨ 'a' ≤ char ∧ char ≤ 'z'

def IsDecimal (char : Char) : Prop := '0' ≤ char ∧ char ≤ '9'
  deriving Decidable

def IsHexadecimal (char : Char) : Prop :=
  IsDecimal char ∨ 'A' ≤ char ∧ char ≤ 'F' ∨ 'a' ≤ char ∧ char ≤ 'f'
  deriving Decidable

/-- The characters of words and numbers. -/
def InRun (char : Char) : Prop := IsLetter char ∨ IsDecimal char ∨ char = '_'

/-- A text that goes on with nothing that belongs to a run. -/
def EndsRun (rest : List Char) : Prop := ∀ char ∈ rest.head?, ¬InRun char

/-- The place of a digit among all digits, where capital letters count as small ones. -/
def digit (char : Char) : Nat := "0123456789abcdef".toList.idxOf char.toLower

/-- The number that digits stand for in a base. -/
def value (base : Nat) (digits : List Char) : Nat := Nat.ofDigits base (digits.map digit).reverse

/-- How a number is written. -/
inductive Numeric : List Char → Nat → Prop
  | decimal {digits : List Char} :
      digits ≠ [] → (∀ char ∈ digits, IsDecimal char) → Numeric digits (value 10 digits)
  | hexadecimal {mark : Char} {digits : List Char} :
      mark = 'x' ∨ mark = 'X' → digits ≠ [] → (∀ char ∈ digits, IsHexadecimal char) →
      Numeric ('0' :: mark :: digits) (value 16 digits)

end Lexeme

open Lexeme in
/-- A stretch of text that the grammar knows, the kind of token it is, if any, and a text that may
follow it. -/
inductive Lexeme : List Char → Option Kind → List Char → Prop
  | blank {char : Char} {rest : List Char} :
      char ∈ [' ', '\t', '\r', '\n'] → Lexeme [char] none rest
  | lineComment {body rest : List Char} :
      '\n' ∉ body → (∀ char ∈ rest.head?, char = '\n') → Lexeme ('/' :: '/' :: body) none rest
  | blockComment {body rest : List Char} :
      ¬['*', '/'] <:+: body → Lexeme ('/' :: '*' :: (body ++ ['*', '/'])) none rest
  | keyword {word : Keyword} {rest : List Char} :
      EndsRun rest → Lexeme word.text.toList (some (.keyword word)) rest
  | identifier {first : Char} {others rest : List Char} :
      IsLetter first ∨ first = '_' → (∀ char ∈ others, InRun char) →
      (∀ word : Keyword, word.text.toList ≠ first :: others) → EndsRun rest →
      Lexeme (first :: others) (some (.identifier (String.ofList (first :: others)))) rest
  | number {run rest : List Char} {value : Nat} :
      Numeric run value → value ≤ 9223372036854775807 → EndsRun rest →
      Lexeme run (some (.number (.ofNat value))) rest
  | mark {mark : Punct} {rest : List Char} : Lexeme [mark.char] (some (.punct mark)) rest

/-- A text is a row of lexemes of these kinds, up to a rest. -/
inductive Splits : List Char → List Kind → List Char → Prop
  | nil {rest : List Char} : Splits [] [] rest
  | cons {text more rest : List Char} {kind : Option Kind} {kinds : List Kind} :
      Lexeme text kind (more ++ rest) → Splits more kinds rest →
      Splits (text ++ more) (kind.toList ++ kinds) rest

/-- There is more text, but no lexeme begins it. -/
def Stuck (rest : List Char) : Prop :=
  rest ≠ [] ∧ ∀ text kind behind, text ++ behind = rest → ¬Lexeme text kind behind

open Lexeme in
/-- The error about a text that begins with no lexeme: the whole run after a digit, a comment that
stays open, or the first character. -/
inductive Blames (position : Position) : List Char → LexError → Prop
  | number {first : Char} {others rest : List Char} :
      IsDecimal first → (∀ char ∈ others, InRun char) → EndsRun rest →
      Blames position (first :: (others ++ rest))
        (.malformedNumber (String.ofList (first :: others)) position)
  | comment {rest : List Char} :
      Blames position ('/' :: '*' :: rest) (.unterminatedComment position)
  | char {char : Char} {rest : List Char} :
      ¬IsDecimal char → ¬['/', '*'] <+: char :: rest →
      Blames position (char :: rest) (.unexpectedChar char position)

namespace Lexeme

/-! ### Characters -/

theorem isDigit_iff {char : Char} : char.isDigit = true ↔ IsDecimal char :=
  Char.isDigit_iff_toNat

theorem isAlpha_iff {char : Char} : char.isAlpha = true ↔ IsLetter char := by
  show (char.isUpper || char.isLower) = true ↔ _
  rw [Bool.or_eq_true, isUpper_iff, isLower_iff]
  rfl

theorem isWordStart_iff {char : Char} : isWordStart char = true ↔ IsLetter char ∨ char = '_' := by
  rw [isWordStart, Bool.or_eq_true, isAlpha_iff, beq_iff_eq]

theorem isWordChar_iff {char : Char} : isWordChar char = true ↔ InRun char := by
  show ((char.isAlpha || char.isDigit) || char == '_') = true ↔ _
  rw [Bool.or_eq_true, Bool.or_eq_true, isAlpha_iff, isDigit_iff, beq_iff_eq, or_assoc]
  rfl

theorem forall_inRun {run : List Char} :
    (∀ char ∈ run, InRun char) ↔ ∀ char ∈ run, isWordChar char = true := by
  simp only [isWordChar_iff]

theorem isBlank_iff {char : Char} : isBlank char = true ↔ char ∈ [' ', '\t', '\r', '\n'] := by
  simp only [isBlank, Bool.or_eq_true, beq_iff_eq, List.mem_cons, List.not_mem_nil, or_false,
    or_assoc]

theorem stopsWord_iff {rest : List Char} : StopsWord rest ↔ EndsRun rest := by
  cases rest with
  | nil => simp [StopsWord, EndsRun]
  | cons first others => simp [StopsWord, EndsRun, ← isWordChar_iff]

/-- A mark is told by its character. -/
theorem ofChar?_eq_some_iff {char : Char} {mark : Punct} :
    Punct.ofChar? char = some mark ↔ mark.char = char := by
  constructor
  · intro found
    simpa using List.find?_some found
  · rintro rfl
    exact mark.char_plain.2.2.2

/-- A keyword is told by its text. -/
theorem ofText?_eq_some_iff {text : String} {word : Keyword} :
    Keyword.ofText? text = some word ↔ word.text = text := by
  constructor
  · intro found
    simpa using List.find?_some found
  · rintro rfl
    cases word <;> rfl

/-! ### Numbers -/

/-- There are few hexadecimal digits, so what holds of all of them can be found out by trying. -/
theorem IsHexadecimal.of_codes {char : Char} (hexadecimal : IsHexadecimal char)
    (holds : Char → Prop)
    (tried : ∀ code < 128, IsHexadecimal (Char.ofNat code) → holds (Char.ofNat code)) :
    holds char := by
  have early : char.toNat < 128 := by
    rcases hexadecimal with ⟨_, high⟩ | ⟨_, high⟩ | ⟨_, high⟩ <;>
      exact Nat.lt_of_le_of_lt high (by decide)
  have known := tried char.toNat early
  rw [Char.ofNat_toNat] at known
  exact known hexadecimal

theorem IsHexadecimal.inRun {char : Char} (hexadecimal : IsHexadecimal char) : InRun char :=
  isWordChar_iff.mp (hexadecimal.of_codes (fun char => isWordChar char = true) (by decide))

theorem isHexadecimal_iff {char : Char} :
    IsHexadecimal char ↔ IsHexadecimal char ∧ digit char < 16 :=
  ⟨fun hexadecimal => ⟨hexadecimal, hexadecimal.of_codes (fun char => digit char < 16) (by decide)⟩,
    And.left⟩

theorem isDecimal_iff {char : Char} : IsDecimal char ↔ IsHexadecimal char ∧ digit char < 10 := by
  have small (hexadecimal : IsHexadecimal char) : digit char < 10 ↔ IsDecimal char :=
    hexadecimal.of_codes (fun char => digit char < 10 ↔ IsDecimal char) (by decide)
  constructor
  · intro decimal
    exact ⟨.inl decimal, (small (.inl decimal)).mpr decimal⟩
  · rintro ⟨hexadecimal, belowTen⟩
    exact (small hexadecimal).mp belowTen

/-- The value of a digit is known for the hexadecimal ones. -/
theorem digitValue?_eq (char : Char) :
    Numeral.digitValue? char = if IsHexadecimal char then some (digit char) else none := by
  by_cases hexadecimal : IsHexadecimal char
  · rw [if_pos hexadecimal]
    exact hexadecimal.of_codes (fun char => Numeral.digitValue? char = some (digit char))
      (by decide)
  · have notDecimal : ¬('0' ≤ char ∧ char ≤ '9') := fun decimal => hexadecimal (.inl decimal)
    have notCapital : ¬('A' ≤ char ∧ char ≤ 'F') := fun capital => hexadecimal (.inr (.inl capital))
    have notSmall : ¬('a' ≤ char ∧ char ≤ 'f') := fun small => hexadecimal (.inr (.inr small))
    rw [if_neg hexadecimal, Numeral.digitValue?, if_neg notDecimal, if_neg notSmall,
      if_neg notCapital]

/-- What digits are read as when `start` was read before them. -/
theorem continue?_eq_some_iff {base : Nat} {digits : List Char} {start result : Nat} :
    Numeral.continue? base start digits = some result ↔
      (∀ char ∈ digits, IsHexadecimal char ∧ digit char < base) ∧
        Nat.ofDigits base ((digits.map digit).reverse ++ [start]) = result := by
  induction digits generalizing start with
  | nil => simp [Numeral.continue?]
  | cons char rest inductionHypothesis =>
    have both : Nat.ofDigits base [digit char, start] =
        Nat.ofDigits base [start * base + digit char] := by
      rw [Nat.ofDigits_cons, Nat.ofDigits_singleton, Nat.ofDigits_singleton, Nat.add_comm,
        Nat.mul_comm]
    have shift : Nat.ofDigits base (((char :: rest).map digit).reverse ++ [start]) =
        Nat.ofDigits base ((rest.map digit).reverse ++ [start * base + digit char]) := by
      rw [List.map_cons, List.reverse_cons, List.append_assoc, List.cons_append, List.nil_append,
        Nat.ofDigits_append, both, ← Nat.ofDigits_append]
    rw [shift, List.forall_mem_cons, and_assoc, ← inductionHypothesis, Numeral.continue?,
      digitValue?_eq]
    by_cases hexadecimal : IsHexadecimal char
    · simp [hexadecimal]
    · simp [hexadecimal]

/-- A run of digits of a base is read as its value in that base. -/
theorem read?_eq_some_iff {base : Nat} {digits : List Char} {result : Nat} :
    Numeral.read? base digits = some result ↔
      digits ≠ [] ∧ (∀ char ∈ digits, IsHexadecimal char ∧ digit char < base) ∧
        value base digits = result := by
  cases digits with
  | nil => simp [Numeral.read?]
  | cons char rest =>
    have leading : value base (char :: rest) =
        Nat.ofDigits base (((char :: rest).map digit).reverse ++ [0]) := by
      rw [Nat.ofDigits_append, Nat.ofDigits_singleton, Nat.mul_zero, Nat.add_zero]
      rfl
    rw [leading, ← continue?_eq_some_iff]
    simp [Numeral.read?]

/-- A run of digits is read if its value is below the bound. -/
theorem readBelow?_eq_some_iff {base : Nat} {digits : List Char} {result : Nat} :
    Numeral.readBelow? base numberBound digits = some result ↔
      (digits ≠ [] ∧ (∀ char ∈ digits, IsHexadecimal char ∧ digit char < base) ∧
        value base digits = result) ∧ result ≤ 9223372036854775807 := by
  have bounded : result < numberBound ↔ result ≤ 9223372036854775807 := by
    unfold numberBound
    omega
  rw [Numeral.readBelow?, Option.filter_eq_some_iff, read?_eq_some_iff, decide_eq_true_iff, bounded]

/-- The value of a run is the value of a number that is written so and not too great. -/
theorem numberValue?_eq_some_iff {run : List Char} {result : Nat} :
    numberValue? run = some result ↔ Numeric run result ∧ result ≤ 9223372036854775807 := by
  constructor
  · intro read
    unfold numberValue? at read
    split at read <;>
      obtain ⟨⟨nonempty, digits, rfl⟩, bounded⟩ := readBelow?_eq_some_iff.mp read
    · exact ⟨.hexadecimal (.inl rfl) nonempty fun char member => (digits char member).1, bounded⟩
    · exact ⟨.hexadecimal (.inr rfl) nonempty fun char member => (digits char member).1, bounded⟩
    · exact ⟨.decimal nonempty fun char member => isDecimal_iff.mpr (digits char member), bounded⟩
  · rintro ⟨written, bounded⟩
    cases written with
    | decimal nonempty digits =>
      rw [numberValue?_of_isDigit fun char member => isDigit_iff.mpr (digits char member)]
      exact readBelow?_eq_some_iff.mpr ⟨⟨nonempty, fun char member =>
        isDecimal_iff.mp (digits char member), rfl⟩, bounded⟩
    | hexadecimal mark nonempty digits =>
      have read := readBelow?_eq_some_iff.mpr ⟨⟨nonempty, fun char member =>
        isHexadecimal_iff.mp (digits char member), rfl⟩, bounded⟩
      rcases mark with rfl | rfl <;> exact read

/-- A number is a run that starts with a digit. -/
theorem Numeric.run {run : List Char} {result : Nat} (written : Numeric run result) :
    ∃ first others, run = first :: others ∧ IsDecimal first ∧ ∀ char ∈ others, InRun char := by
  cases written with
  | decimal nonempty digits =>
    obtain ⟨first, others, rfl⟩ := List.exists_cons_of_ne_nil nonempty
    obtain ⟨start, all⟩ := List.forall_mem_cons.mp digits
    exact ⟨first, others, rfl, start, fun char member => .inr (.inl (all char member))⟩
  | @hexadecimal mark digits letter _ all =>
    refine ⟨'0', _, rfl, by decide, List.forall_mem_cons.mpr ⟨?_, fun char member => ?_⟩⟩
    · rcases letter with rfl | rfl
      · exact .inl (.inr (by decide))
      · exact .inl (.inl (by decide))
    · exact (all char member).inRun

/-! ### Comments -/

/-- A comment goes on up to its first end mark. -/
theorem closeComment?_close {body : List Char} (closesLate : ¬['*', '/'] <:+: body)
    (rest : List Char) :
    closeComment? (body ++ '*' :: '/' :: rest) = some (body ++ ['*', '/'], rest) := by
  induction body with
  | nil => rfl
  | cons char body inductionHypothesis =>
    rw [List.infix_cons_iff, not_or] at closesLate
    have noEarlier : ∀ others, char = '*' → body ++ '*' :: '/' :: rest = '/' :: others → False := by
      rintro others rfl follows
      cases body with
      | nil => exact absurd (List.head_eq_of_cons_eq follows) (by decide)
      | cons next body =>
        cases List.head_eq_of_cons_eq follows
        exact closesLate.1 ⟨body, rfl⟩
    rw [List.cons_append, closeComment?.eq_2 _ _ noEarlier, inductionHypothesis closesLate.2]
    rfl

/-- A comment ends with the first mark that closes it. -/
theorem closeComment?_shape {text comment rest : List Char}
    (closed : closeComment? text = some (comment, rest)) :
    ∃ body, comment = body ++ ['*', '/'] ∧ ¬['*', '/'] <:+: body := by
  fun_induction closeComment? text generalizing comment rest with
  | case1 behind =>
    cases closed
    exact ⟨[], rfl, by decide⟩
  | case2 char behind noEarlier inductionHypothesis =>
    obtain ⟨⟨inner, _⟩, innerClosed, same⟩ := Option.map_eq_some_iff.mp closed
    cases same
    obtain ⟨body, rfl, closesLate⟩ := inductionHypothesis innerClosed
    refine ⟨char :: body, rfl, ?_⟩
    rw [List.infix_cons_iff, not_or]
    refine ⟨?_, closesLate⟩
    -- An end mark that begins here would have ended the comment here.
    rintro ⟨others, early⟩
    cases early
    exact noEarlier _ rfl (closeComment?_append innerClosed).symm
  | case3 => cases closed

/-- A comment of one line ends in front of the newline. -/
theorem takeWhile_line {body rest : List Char} (line : '\n' ∉ body)
    (ends : ∀ char ∈ rest.head?, char = '\n') :
    (body ++ rest).takeWhile (· != '\n') = body ∧ (body ++ rest).dropWhile (· != '\n') = rest := by
  refine takeWhile_append_stop (fun char member => ?_) ?_
  · exact bne_iff_ne.mpr fun newline => line (newline ▸ member)
  · rintro char others rfl
    rw [ends char rfl]
    decide

/-! ### Pieces -/

/-- A comment that is opened is closed or is a fault. -/
theorem read_blockComment (position : Position) (text : List Char) :
    Piece.read position '/' ('*' :: text) =
      match closeComment? text with
      | some (comment, after) => .ok ⟨none, '/' :: '*' :: comment, after⟩
      | none => .error (.unterminatedComment position) :=
  rfl

/-- A text that begins with a lexeme is read as the lexeme, wherever it stands. -/
theorem read {text rest : List Char} {kind : Option Kind} (lexeme : Lexeme text kind rest) :
    ∃ first others, text ++ rest = first :: others ∧
      ∀ position, Piece.read position first others = .ok ⟨kind, text, rest⟩ := by
  cases lexeme with
  | blank blank => exact ⟨_, _, rfl, fun position => if_pos (isBlank_iff.mpr blank)⟩
  | @lineComment body _ line ends =>
    refine ⟨'/', '/' :: (body ++ rest), rfl, fun position => ?_⟩
    obtain ⟨taken, dropped⟩ := takeWhile_line line ends
    show Except.ok (Piece.mk none ('/' :: '/' :: (body ++ rest).takeWhile (· != '\n'))
      ((body ++ rest).dropWhile (· != '\n'))) = _
    rw [taken, dropped]
  | @blockComment body _ closesLate =>
    refine ⟨'/', '*' :: (body ++ '*' :: '/' :: rest), by simp, fun position => ?_⟩
    rw [read_blockComment, closeComment?_close closesLate]
  | @keyword word _ ends =>
    obtain ⟨first, others, shape, start, run, kind⟩ := word.text_word
    rw [shape, ← kind]
    exact ⟨first, others ++ rest, rfl, Piece.read_word run (stopsWord_iff.mpr ends) start⟩
  | @identifier first others _ start run unreserved ends =>
    have other (word : Keyword) : word.text ≠ String.ofList (first :: others) := by
      intro same
      exact unreserved word (by rw [same, String.toList_ofList])
    refine ⟨first, others ++ rest, rfl, fun position => ?_⟩
    rw [Piece.read_word (forall_inRun.mp run) (stopsWord_iff.mpr ends) (isWordStart_iff.mpr start),
      wordKind, Keyword.ofText?_eq_none other]
  | number written bounded ends =>
    have value := numberValue?_eq_some_iff.mpr ⟨written, bounded⟩
    obtain ⟨first, others, rfl, start, run⟩ := written.run
    refine ⟨first, others ++ rest, rfl, fun position => ?_⟩
    rw [Piece.read_number (forall_inRun.mp run) (stopsWord_iff.mpr ends) (isDigit_iff.mpr start),
      value]
  | @mark mark _ => exact ⟨mark.char, rest, rfl, Piece.read_mark mark rest⟩

/-- What is behind the longest run does not go on with it. -/
theorem head?_dropWhile {inside : Char → Bool} {text : List Char} {char : Char}
    (member : char ∈ (text.dropWhile inside).head?) : inside char = false := by
  have outside := List.head?_dropWhile_not inside text
  rwa [Option.mem_def.mp member] at outside

theorem endsRun_dropWhile (text : List Char) : EndsRun (text.dropWhile isWordChar) := by
  intro char member run
  rw [← isWordChar_iff, head?_dropWhile member] at run
  cases run

theorem inRun_takeWhile (text : List Char) : ∀ char ∈ text.takeWhile isWordChar, InRun char :=
  forall_inRun.mpr (List.all_eq_true.mp List.all_takeWhile)

/-- A run that starts as a word does is reserved or an identifier. -/
theorem of_word {first : Char} {others rest : List Char} (start : IsLetter first ∨ first = '_')
    (run : ∀ char ∈ others, InRun char) (ends : EndsRun rest) :
    Lexeme (first :: others) (some (wordKind (String.ofList (first :: others)))) rest := by
  unfold wordKind
  split
  · next word reserved =>
    have same := congrArg String.toList (ofText?_eq_some_iff.mp reserved)
    rw [String.toList_ofList] at same
    rw [← same]
    exact .keyword ends
  · next unreserved =>
    refine .identifier start run (fun word same => ?_) ends
    rw [← same, String.ofList_toList, ofText?_eq_some_iff.mpr rfl] at unreserved
    cases unreserved

/-- A piece is a lexeme that what follows may follow. -/
theorem of_read {position : Position} {first : Char} {rest : List Char} {piece : Piece}
    (found : Piece.read position first rest = .ok piece) :
    Lexeme piece.text piece.kind piece.rest := by
  unfold Piece.read at found
  split at found
  · next blank =>
    cases found
    exact .blank (isBlank_iff.mp blank)
  split at found
  · next start =>
    cases found
    exact of_word (isWordStart_iff.mp start) (inRun_takeWhile rest) (endsRun_dropWhile rest)
  split at found
  · next start =>
    dsimp only at found
    split at found
    · next value read =>
      cases found
      obtain ⟨written, bounded⟩ := numberValue?_eq_some_iff.mp read
      exact .number written bounded (endsRun_dropWhile rest)
    · cases found
  split at found
  · next mark _ _ known =>
    cases found
    rw [← ofChar?_eq_some_iff.mp known]
    exact .mark
  · cases found
    refine .lineComment (fun newline => ?_) fun char member => ?_
    · exact absurd (List.all_eq_true.mp List.all_takeWhile '\n' newline) (by decide)
    · have newline := head?_dropWhile member
      exact bne_eq_false_iff_eq.mp newline
  · split at found
    · next closed =>
      cases found
      obtain ⟨body, rfl, closesLate⟩ := closeComment?_shape closed
      exact .blockComment closesLate
    · cases found
  · cases found

end Lexeme

/-! ### Errors -/

open Lexeme

/-- An error of a piece is about what the text begins with. -/
theorem Blames.of_read {position : Position} {first : Char} {rest : List Char} {fault : LexError}
    (failed : Piece.read position first rest = .error fault) :
    Blames position (first :: rest) fault := by
  unfold Piece.read at failed
  split at failed
  · cases failed
  split at failed
  · cases failed
  split at failed
  · next start =>
    dsimp only at failed
    split at failed
    · cases failed
    · cases failed
      have blamed := @number position _ _ _ (isDigit_iff.mp start) (inRun_takeWhile rest)
        (endsRun_dropWhile rest)
      rwa [List.takeWhile_append_dropWhile] at blamed
  next notDigit =>
  split at failed
  · cases failed
  · cases failed
  · split at failed
    · cases failed
    · cases failed
      exact .comment
  · next noComment _ _ _ =>
    cases failed
    refine .char (fun decimal => notDigit (isDigit_iff.mpr decimal)) ?_
    rintro ⟨behind, shape⟩
    cases shape
    exact noComment behind rfl rfl

/-- A text that an error is about has this error, unless it begins with a piece. -/
theorem Blames.read {position : Position} {first : Char} {rest : List Char} {fault : LexError}
    (blamed : Blames position (first :: rest) fault) :
    (∃ piece, Piece.read position first rest = .ok piece) ∨
      Piece.read position first rest = .error fault := by
  cases blamed with
  | number start run ends =>
    rw [Piece.read_number (forall_inRun.mp run) (stopsWord_iff.mpr ends) (isDigit_iff.mpr start)]
    split
    · exact .inl ⟨_, rfl⟩
    · exact .inr rfl
  | comment =>
    rw [read_blockComment]
    split
    · exact .inl ⟨_, rfl⟩
    · exact .inr rfl
  | char notDecimal noComment =>
    unfold Piece.read
    split
    · exact .inl ⟨_, rfl⟩
    split
    · exact .inl ⟨_, rfl⟩
    rw [if_neg fun decimal => notDecimal (isDigit_iff.mp decimal)]
    split
    · exact .inl ⟨_, rfl⟩
    · exact .inl ⟨_, rfl⟩
    · exact absurd ⟨_, rfl⟩ noComment
    · exact .inr rfl

/-- Where no lexeme begins, splitting ends with the one error about what stands there. -/
theorem Stuck.listFrom_eq {rest : List Char} (stuck : Stuck rest) (position : Position) :
    ∃ fault, listFrom position rest = .error fault ∧
      ∀ other, Blames position rest other ↔ other = fault := by
  obtain ⟨first, others, rfl⟩ := List.exists_cons_of_ne_nil stuck.1
  have noPiece (piece : Piece) : Piece.read position first others ≠ .ok piece := fun found =>
    stuck.2 _ _ _ (Piece.text_append_rest found) (Lexeme.of_read found)
  rw [listFrom]
  split
  · next fault failed =>
    refine ⟨fault, rfl, fun other => ⟨fun blamed => ?_, ?_⟩⟩
    · rcases blamed.read with ⟨piece, found⟩ | same
      · exact absurd found (noPiece piece)
      · exact Except.error.inj (same.symm.trans failed)
    · rintro rfl
      exact .of_read failed
  · next piece found => exact absurd found (noPiece piece)

/-- A fault is reported where the splitting is stuck. -/
theorem Blames.position_eq {position : Position} {rest : List Char} {fault : LexError}
    (blamed : Blames position rest fault) : fault.position = position := by
  cases blamed <;> rfl

/-! ### Runs of lexemes -/

/-- The place behind a text is as many bytes on as the text has. -/
theorem Position.offset_after (position : Position) (text : List Char) :
    (position.after text).offset = position.offset + (String.ofList text).utf8ByteSize := by
  induction text generalizing position with
  | nil => rfl
  | cons char rest inductionHypothesis =>
    have advanced : (position.advance char).offset = position.offset + char.utf8Size := by
      unfold advance
      split <;> rfl
    rw [after_cons, inductionHypothesis, advanced, String.ofList_cons, String.utf8ByteSize_append,
      String.utf8ByteSize_singleton, Nat.add_assoc]

/-- The tokens of a text are the token of its first piece, if it is one, and those of the rest. -/
theorem listFrom_piece {position : Position} {first : Char} {rest : List Char} {piece : Piece}
    (found : Piece.read position first rest = .ok piece) :
    ∃ tokens, tokens.map Token.kind = piece.kind.toList ∧
      listFrom position (first :: rest) =
        (listFrom (position.after piece.text) piece.rest).map (tokens ++ ·) := by
  rw [listFrom]
  split
  · next failed =>
    rw [found] at failed
    cases failed
  · next other same =>
    rw [found] at same
    cases same
    dsimp only
    cases piece.kind with
    | none =>
      refine ⟨[], rfl, ?_⟩
      cases listFrom (position.after piece.text) piece.rest <;> rfl
    | some kind =>
      refine ⟨[⟨kind, String.ofList piece.text, ⟨position, position.after piece.text⟩⟩], rfl, ?_⟩
      cases listFrom (position.after piece.text) piece.rest <;> rfl

/-- The tokens of a row of lexemes come first, and splitting goes on behind it. -/
theorem Splits.listFrom_eq {before rest : List Char} {kinds : List Kind}
    (splits : Splits before kinds rest) (position : Position) :
    ∃ tokens, tokens.map Token.kind = kinds ∧
      listFrom position (before ++ rest) =
        (listFrom (position.after before) rest).map (tokens ++ ·) := by
  induction splits generalizing position with
  | @nil rest =>
    refine ⟨[], rfl, ?_⟩
    show listFrom position rest = (listFrom position rest).map id
    rw [Except.map_id]
    rfl
  | @cons text more rest kind kinds lexeme _ inductionHypothesis =>
    obtain ⟨first, others, whole, reads⟩ := lexeme.read
    obtain ⟨lead, leadKinds, step⟩ := listFrom_piece (reads position)
    obtain ⟨tokens, tokenKinds, run⟩ := inductionHypothesis (position.after text)
    refine ⟨lead ++ tokens, by rw [List.map_append, leadKinds, tokenKinds], ?_⟩
    rw [List.append_assoc, whole, step, run, Position.after_append]
    cases listFrom ((position.after text).after more) rest with
    | error fault => rfl
    | ok others => exact congrArg Except.ok (List.append_assoc ..).symm

/-- Every text is a row of lexemes up to its end or to where no lexeme begins. -/
theorem Splits.total (text : List Char) :
    (∃ kinds, Splits text kinds []) ∨
      ∃ before rest kinds, before ++ rest = text ∧ Splits before kinds rest ∧ Stuck rest := by
  by_cases empty : text = []
  · exact .inl ⟨[], empty ▸ .nil⟩
  by_cases stuck : Stuck text
  · exact .inr ⟨[], text, [], rfl, .nil, stuck⟩
  obtain ⟨lead, kind, behind, rfl, lexeme⟩ : ∃ lead kind behind, lead ++ behind = text ∧
      Lexeme lead kind behind := by
    by_contra noLexeme
    exact stuck ⟨empty, fun lead kind behind whole lexeme =>
      noLexeme ⟨lead, kind, behind, whole, lexeme⟩⟩
  have shorter : behind.length < (lead ++ behind).length := by
    obtain ⟨first, others, whole, reads⟩ := lexeme.read
    rw [whole]
    exact Piece.length_rest_lt (reads .first)
  rcases Splits.total behind with ⟨kinds, splits⟩ | ⟨before, rest, kinds, rfl, splits, stuckThere⟩
  · exact .inl ⟨_, .cons (by rwa [List.append_nil]) splits⟩
  · exact .inr ⟨lead ++ before, rest, _, List.append_assoc .., .cons lexeme splits, stuckThere⟩
termination_by text.length

section Sources

variable {source : String} {before rest : List Char} {kinds : List Kind}

/-- A row of lexemes up to the end is split into tokens of its kinds. -/
theorem Splits.tokenize_eq_ok (splits : Splits source.toList kinds []) :
    (tokenize source).map (List.map Token.kind) = .ok (kinds ++ [.eof]) := by
  obtain ⟨tokens, same, run⟩ := splits.listFrom_eq .first
  rw [List.append_nil] at run
  rw [tokenize, run, listFrom]
  show Except.ok ((tokens ++ [eofAt _]).map Token.kind) = _
  rw [List.map_append, same]
  rfl

/-- Behind a row of lexemes where no lexeme begins, splitting ends with the error about that. -/
theorem Splits.tokenize_eq_error (splits : Splits before kinds rest)
    (whole : before ++ rest = source.toList) (stuck : Stuck rest) :
    ∃ fault, tokenize source = .error fault ∧
      ∀ other, Blames (Position.first.after before) rest other ↔ other = fault := by
  obtain ⟨tokens, _, run⟩ := splits.listFrom_eq .first
  obtain ⟨fault, failed, blamed⟩ := stuck.listFrom_eq (Position.first.after before)
  refine ⟨fault, ?_, blamed⟩
  rw [tokenize, ← whole, run, failed]
  rfl

/-- A source is split into the kinds of its lexemes and an end mark, if it is made of lexemes. -/
theorem tokenize_eq_ok_iff {row : List Kind} :
    (tokenize source).map (List.map Token.kind) = .ok row ↔
      ∃ kinds, Splits source.toList kinds [] ∧ row = kinds ++ [.eof] := by
  constructor
  · intro done
    rcases Splits.total source.toList with ⟨kinds, splits⟩ | ⟨_, _, _, whole, splits, stuck⟩
    · rw [splits.tokenize_eq_ok] at done
      exact ⟨kinds, splits, (Except.ok.inj done).symm⟩
    · obtain ⟨fault, failed, _⟩ := splits.tokenize_eq_error whole stuck
      rw [failed] at done
      cases done
  · rintro ⟨kinds, splits, rfl⟩
    exact splits.tokenize_eq_ok

/-- A source is refused where its lexemes end in front of what begins none. -/
theorem tokenize_eq_error_iff {fault : LexError} :
    tokenize source = .error fault ↔
      ∃ before rest kinds, before ++ rest = source.toList ∧ Splits before kinds rest ∧ Stuck rest ∧
        Blames (Position.first.after before) rest fault := by
  constructor
  · intro failed
    rcases Splits.total source.toList with
      ⟨kinds, splits⟩ | ⟨before, rest, kinds, whole, splits, stuck⟩
    · have done := splits.tokenize_eq_ok
      rw [failed] at done
      cases done
    · obtain ⟨other, otherFailed, blames⟩ := splits.tokenize_eq_error whole stuck
      have same : fault = other := Except.error.inj (failed.symm.trans otherFailed)
      exact ⟨before, rest, kinds, whole, splits, stuck, (blames fault).mpr same⟩
  · rintro ⟨before, rest, kinds, whole, splits, stuck, blamed⟩
    obtain ⟨other, failed, blames⟩ := splits.tokenize_eq_error whole stuck
    rw [(blames fault).mp blamed, failed]

end Sources

/-- A text is split into tokens exactly if the grammar splits it into lexemes, and the tokens are
those of the split. Otherwise the grammar splits it up to a place where no lexeme begins, and the
error is about what stands there. -/
theorem tokenize_iff_splits (source : String) :
    (∀ row, (tokenize source).map (List.map Token.kind) = .ok row ↔
      ∃ kinds, Splits source.toList kinds [] ∧ row = kinds ++ [.eof]) ∧
    ∀ fault, tokenize source = .error fault ↔
      ∃ before rest kinds, before ++ rest = source.toList ∧ Splits before kinds rest ∧ Stuck rest ∧
        Blames (Position.first.after before) rest fault ∧
        fault.position.offset = (String.ofList before).utf8ByteSize := by
  refine ⟨fun row => tokenize_eq_ok_iff, fun fault => ⟨fun failed => ?_, ?_⟩⟩
  · obtain ⟨before, rest, kinds, whole, splits, stuck, blamed⟩ := tokenize_eq_error_iff.mp failed
    refine ⟨before, rest, kinds, whole, splits, stuck, blamed, ?_⟩
    rw [blamed.position_eq, Position.offset_after]
    exact Nat.zero_add _
  · rintro ⟨before, rest, kinds, whole, splits, stuck, blamed, _⟩
    exact tokenize_eq_error_iff.mpr ⟨before, rest, kinds, whole, splits, stuck, blamed⟩

-- The star of an opening mark does not close the comment, and a number is blamed as a whole run.
example : tokenize "a /*/ b" = .error (.unterminatedComment ⟨1, 3, 2⟩) := by decide +kernel

example : tokenize "a/**/0x1F_" = .error (.malformedNumber "0x1F_" ⟨1, 6, 5⟩) := by decide +kernel

end BehaviourScript
