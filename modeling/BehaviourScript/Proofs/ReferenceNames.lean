/-
This file says which names a host may give its assets, and what becomes of them.
An identifier is taken as a symbol, and a number of 64 bits in its shortest
spelling as that number; no other name is taken. Assets of a kind that the host
has no names for keep their IDs.
-/

import BehaviourScript.Proofs.Spelling
import BehaviourScript.Resolver

namespace BehaviourScript

namespace Numeral

theorem toList_toString_negSucc (magnitude : Nat) :
    (toString (Int.negSucc magnitude)).toList = '-' :: (magnitude + 1).repr.toList := by
  show ("-" ++ (magnitude + 1).repr).toList = _
  rw [String.toList_append]
  rfl

/-- A number is read back from its shortest spelling. -/
theorem readSigned?_toString (number : Int) :
    readSigned? (toString number).toList = some number := by
  cases number with
  | ofNat magnitude =>
    show readSigned? magnitude.repr.toList = _
    have digits : ∀ char ∈ magnitude.repr.toList, char.isDigit = true :=
      fun _ => isDigit_of_mem_repr
    unfold readSigned?
    split
    · next shape => exact absurd (digits '-' (shape ▸ List.mem_cons_self)) (by decide)
    · next shape => exact absurd (digits '+' (shape ▸ List.mem_cons_self)) (by decide)
    · rw [read?_repr]
      rfl
  | negSucc magnitude =>
    rw [toList_toString_negSucc, readSigned?, read?_repr]
    rfl

theorem toString_int_injective {first second : Int} (same : toString first = toString second) :
    first = second := by
  have both := readSigned?_toString first
  rw [same, readSigned?_toString] at both
  exact (Option.some.inj both).symm

/-- A number starts with a digit or a sign, as no word does. -/
theorem isIdentifier_toString (number : Int) : isIdentifier (toString number) = false := by
  have plain (text : String) (first : Char) (rest : List Char) (shape : text.toList = first :: rest)
      (other : isWordStart first = false) : isIdentifier text = false := by
    rw [isIdentifier, shape]
    simp only [other, Bool.false_and]
  cases number with
  | ofNat magnitude =>
    obtain ⟨first, rest, shape⟩ := exists_toList_repr magnitude
    have digit : first.isDigit = true := isDigit_of_mem_repr (shape ▸ List.mem_cons_self)
    exact plain _ first rest shape (isWordStart_of_isDigit digit)
  | negSucc magnitude => exact plain _ '-' _ (toList_toString_negSucc magnitude) (by decide)

end Numeral

/-- The names that a host may give an asset, with the references that they are. -/
inductive Reference.Names : String → Reference → Prop
  | identifier {name : String} : isIdentifier name = true → Names name (.symbol name)
  | number {value : Int} :
      -9223372036854775808 ≤ value → value ≤ 9223372036854775807 →
      Names (toString value) (.literal value)

namespace Reference

theorem ofName?_eq_some_iff {name : String} {reference : Reference} :
    ofName? name = some reference ↔ Names name reference := by
  unfold ofName?
  constructor
  · intro taken
    split at taken
    · next identifier =>
      cases taken
      exact .identifier identifier
    · split at taken
      · next value _ =>
        split at taken
        · next bounds =>
          obtain ⟨low, high, rfl⟩ := bounds
          cases taken
          exact .number low (by omega)
        · cases taken
      · cases taken
  · rintro (identifier | @⟨value, low, high⟩)
    · rw [if_pos identifier]
    · rw [if_neg (by rw [Numeral.isIdentifier_toString]; decide), Numeral.readSigned?_toString]
      exact if_pos ⟨low, by omega, rfl⟩

/-- A name is taken as one reference only. -/
theorem Names.unique {name : String} {first second : Reference} (one : Names name first)
    (other : Names name second) : first = second :=
  Option.some.inj ((ofName?_eq_some_iff.mpr one).symm.trans (ofName?_eq_some_iff.mpr other))

end Reference

namespace DecompileResolvers

variable {resolvers : DecompileResolvers} {capability : Capability} {id : Int}

/-- Without names of a kind, an ID is written as it is. -/
theorem reference_of_none (missing : resolvers.get? capability = none) :
    resolvers.reference capability id = .ok (.literal id) := by
  rw [reference, missing]

/-- With names of a kind, an ID is written as the reference that its name is. -/
theorem reference_eq_ok_iff {nameOf : Int → Option String} {written : Reference}
    (installed : resolvers.get? capability = some nameOf) :
    resolvers.reference capability id = .ok written ↔
      ∃ name, nameOf id = some name ∧ Reference.Names name written := by
  rw [reference, installed]
  dsimp only
  cases nameOf id with
  | none => simp only [reduceCtorEq, false_and, exists_false]
  | some name =>
    simp only [Option.some.injEq, exists_eq_left', ← Reference.ofName?_eq_some_iff]
    cases Reference.ofName? name with
    | none => simp only [reduceCtorEq]
    | some taken => rw [Except.ok.injEq, Option.some.injEq]

end DecompileResolvers

end BehaviourScript
