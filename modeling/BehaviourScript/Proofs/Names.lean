/-
This file proves that numbers and the names made of them can be read back. The
decimal digits of a number read as that number; the name of a state, of a
library's behaviour and of an ID that the catalogue does not list are
identifiers, each for one number only; and the catalogue gives every ID a name
that stands for that ID.
-/

import BehaviourScript.Binary.Decode
import BehaviourScript.Catalogue
import BehaviourScript.Token.Lexer

namespace BehaviourScript

namespace Numeral

/-! ### Decimal digits -/

theorem digitValue?_of_isDigit {char : Char} (digit : char.isDigit = true) :
    digitValue? char = some (char.toNat - '0'.toNat) ∧ char.toNat - '0'.toNat < 10 := by
  have range := Char.isDigit_iff_toNat.mp digit
  have low : '0' ≤ char := range.1
  have high : char ≤ '9' := range.2
  refine ⟨if_pos ⟨low, high⟩, ?_⟩
  have nine : '9'.toNat - '0'.toNat = 9 := by decide
  omega

/-- Reading on digits adds them to the number read so far. -/
theorem continue?_of_isDigit {digits : List Char} (all : ∀ char ∈ digits, char.isDigit = true)
    (value : Nat) : continue? 10 value digits = some (Nat.ofDigitChars 10 digits value) := by
  induction digits generalizing value with
  | nil => rw [continue?, Nat.ofDigitChars_nil]
  | cons char rest inductionHypothesis =>
    obtain ⟨digitIs, small⟩ := digitValue?_of_isDigit (all char List.mem_cons_self)
    simp only [continue?, digitIs, if_pos small]
    rw [inductionHypothesis fun other member => all other (List.mem_cons_of_mem _ member),
      Nat.ofDigitChars_cons, Nat.mul_comm]

theorem isDigit_of_mem_repr {number : Nat} {char : Char} (member : char ∈ number.repr.toList) :
    char.isDigit = true := by
  rw [Nat.toList_repr] at member
  exact Nat.isDigit_of_mem_toDigits (by decide) (by decide) member

theorem exists_toList_repr (number : Nat) :
    ∃ first rest, number.repr.toList = first :: rest := by
  rw [Nat.toList_repr]
  exact List.exists_cons_of_ne_nil Nat.toDigits_ne_nil

/-- The decimal digits of a number read as the number. -/
theorem read?_repr (number : Nat) : read? 10 number.repr.toList = some number := by
  have digits : continue? 10 0 number.repr.toList = some number := by
    rw [continue?_of_isDigit fun _ => isDigit_of_mem_repr, Nat.toList_repr,
      Nat.ofDigitChars_ten_toDigits]
  obtain ⟨first, rest, shape⟩ := exists_toList_repr number
  rw [shape] at digits ⊢
  exact digits

theorem readBelow?_repr {number bound : Nat} (small : number < bound) :
    readBelow? 10 bound number.repr.toList = some number := by
  rw [readBelow?, read?_repr, Option.filter_some, if_pos (decide_eq_true small)]

/-- Different numbers have different digits. -/
theorem repr_injective {first second : Nat} (equal : first.repr = second.repr) :
    first = second := by
  have both := read?_repr first
  rw [equal, read?_repr] at both
  exact (Option.some.inj both).symm

end Numeral

/-! ### Identifiers with a number in them -/

theorem Keyword.ofText?_eq_none {word : String} (other : ∀ keyword : Keyword, keyword.text ≠ word) :
    Keyword.ofText? word = none := by
  rw [ofText?, List.find?_eq_none]
  intro keyword _ equal
  exact other keyword (eq_of_beq equal)

theorem isWordChar_of_isDigit {char : Char} (digit : char.isDigit = true) :
    isWordChar char = true := by
  rw [isWordChar, Char.isAlphanum, digit, Bool.or_true, Bool.true_or]

/-- A stem and a number make an identifier. No reserved word has an underscore,
so a stem with one keeps clear of all of them. -/
theorem isIdentifier_append_repr (stem : String) {first : Char} {rest : List Char}
    (shape : stem.toList = first :: rest) (start : isWordStart first = true)
    (word : rest.all isWordChar = true) (marked : '_' ∈ stem.toList) (number : Nat) :
    isIdentifier (stem ++ number.repr) = true := by
  have plain : ∀ keyword : Keyword, '_' ∉ keyword.text.toList := by
    intro keyword
    cases keyword <;> decide
  have unreserved : Keyword.ofText? (stem ++ number.repr) = none := by
    refine Keyword.ofText?_eq_none fun keyword equal => plain keyword ?_
    rw [equal, String.toList_append]
    exact List.mem_append_left _ marked
  have digits : number.repr.toList.all isWordChar = true := by
    rw [List.all_eq_true]
    exact fun char member => isWordChar_of_isDigit (Numeral.isDigit_of_mem_repr member)
  rw [isIdentifier, String.toList_append, shape]
  simp only [List.cons_append, List.all_append, start, word, digits, unreserved,
    Option.isNone_none, Bool.and_self]

theorem append_repr_injective {stem : String} {first second : Nat}
    (equal : stem ++ first.repr = stem ++ second.repr) : first = second := by
  refine Numeral.repr_injective (String.toList_inj.mp ?_)
  have both := congrArg String.toList equal
  rw [String.toList_append, String.toList_append] at both
  exact List.append_cancel_left both

namespace Decode

theorem isIdentifier_stateName (index : Nat) : isIdentifier (stateName index) = true :=
  isIdentifier_append_repr "State_" rfl (by decide) (by decide) (by decide) index

theorem stateName_injective {first second : Nat} (equal : stateName first = stateName second) :
    first = second :=
  append_repr_injective equal

end Decode

theorem ItemKind.isIdentifier_fallbackName (kind : ItemKind) (id : Nat) :
    isIdentifier (kind.fallbackName id) = true := by
  cases kind
  · exact isIdentifier_append_repr "Library_" rfl (by decide) (by decide) (by decide) id
  · exact isIdentifier_append_repr "Behaviour_" rfl (by decide) (by decide) (by decide) id
  · exact isIdentifier_append_repr "Sequence_" rfl (by decide) (by decide) (by decide) id

theorem ItemKind.fallbackName_injective {kind : ItemKind} {first second : Nat}
    (equal : kind.fallbackName first = kind.fallbackName second) : first = second := by
  cases kind <;> exact append_repr_injective equal

/-! ### The catalogue -/

namespace Catalogue

/-- What makes the names of a catalogue unambiguous: they are distinct
identifiers that fit in an ID, and none looks like a generic spelling. -/
structure Clear (catalogue : Catalogue) : Prop where
  distinct : catalogue.names.Nodup
  few : catalogue.names.length ≤ 65536
  identifiers : ∀ name ∈ catalogue.names, isIdentifier name = true
  special : ∀ name ∈ catalogue.names,
    catalogue.generic.toList.isPrefixOf name.toList = false
  start : ∃ first rest, catalogue.generic.toList = first :: rest ∧
    isWordStart first = true ∧ rest.all isWordChar = true
  marked : '_' ∈ catalogue.generic.toList

theorem commands_clear : commands.Clear where
  distinct := by decide
  few := by decide
  identifiers := by decide
  special := by decide
  start := ⟨_, _, rfl, by decide, by decide⟩
  marked := by decide

theorem conditions_clear : conditions.Clear where
  distinct := by decide
  few := by decide
  identifiers := by decide
  special := by decide
  start := ⟨_, _, rfl, by decide, by decide⟩
  marked := by decide

variable {catalogue : Catalogue}

theorem genericId?_append (text : String) :
    catalogue.genericId? (catalogue.generic ++ text) =
      Numeral.readBelow? 10 65536 text.toList := by
  have leads : catalogue.generic.toList.isPrefixOf
      (catalogue.generic.toList ++ text.toList) = true :=
    List.isPrefixOf_iff_prefix.mpr (List.prefix_append _ _)
  rw [genericId?, String.toList_append, if_pos leads, ← String.length_toList, List.drop_left]

/-- A generic spelling is none of the names, so its number counts. -/
theorem id?_append (clear : catalogue.Clear) (text : String) :
    catalogue.id? (catalogue.generic ++ text) =
      (Numeral.readBelow? 10 65536 text.toList).map UInt16.ofNat := by
  have unlisted : catalogue.names.idxOf? (catalogue.generic ++ text) = none := by
    rw [List.idxOf?_eq_none_iff]
    intro member
    have notGeneric := clear.special _ member
    rw [String.toList_append, List.isPrefixOf_iff_prefix.mpr (List.prefix_append _ _)] at notGeneric
    exact Bool.noConfusion notGeneric
  rw [id?, unlisted, ← genericId?_append]

/-- A name of the catalogue stands for its place. -/
theorem id?_of_listed (clear : catalogue.Clear) {known : String} {id : UInt16}
    (found : catalogue.names[id.toNat]? = some known) : catalogue.id? known = some id := by
  obtain ⟨bound, atIndex⟩ := List.getElem?_eq_some_iff.mp found
  have place : catalogue.names.idxOf? known = some id.toNat := by
    rw [← atIndex, List.idxOf?_eq_some_iff]
    refine ⟨bound, ?_, fun other before equal => ?_⟩
    · rfl
    · have same := (List.getElem_inj clear.distinct).mp equal
      omega
  rw [id?, place]
  exact congrArg some UInt16.ofNat_toNat

/-- The canonical name of an ID stands for the ID. -/
theorem id?_name (clear : catalogue.Clear) (id : UInt16) :
    catalogue.id? (catalogue.name id) = some id := by
  rw [name]
  split
  · next known found => exact id?_of_listed clear found
  · show catalogue.id? (catalogue.generic ++ id.toNat.repr) = some id
    rw [id?_append clear, Numeral.readBelow?_repr id.toNat_lt, Option.map_some, UInt16.ofNat_toNat]

/-- The canonical name of an ID is an identifier. -/
theorem isIdentifier_name (clear : catalogue.Clear) (id : UInt16) :
    isIdentifier (catalogue.name id) = true := by
  rw [name]
  split
  · next known found => exact clear.identifiers known (List.mem_of_getElem? found)
  · obtain ⟨first, rest, shape, start, word⟩ := clear.start
    exact isIdentifier_append_repr _ shape start word clear.marked id.toNat

end Catalogue

end BehaviourScript
