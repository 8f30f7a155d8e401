/-
This file follows an ID through a set of tables and back. A table may hold any
names. If its name for an ID is an identifier, that is written as a symbol, and
the table gives the symbol back its ID. If it is a number, the number is written,
and a number stands for itself and is not looked up again. So the way back leads
to the ID it came from, unless the table calls the ID by another number.
-/

import BehaviourScript.Proofs.Resolvers

namespace BehaviourScript

namespace ResolverSet

/-- The name that a set has for an ID is a number, and not the ID. -/
def Misnumbers (set : ResolverSet) (capability : Capability) (id number : Int) : Prop :=
  number ≠ id ∧
    ∃ map, set.table? capability = some map ∧ map.name? id = some (toString number)

/-- A kind without a table has no names. -/
theorem not_misnumbers {set : ResolverSet} {capability : Capability}
    (absent : set.table? capability = none) (id number : Int) :
    ¬set.Misnumbers capability id number := by
  rintro ⟨_, map, given, _⟩
  rw [absent] at given
  cases given

theorem misnumbers_iff {set : ResolverSet} {capability : Capability} {map : SymbolMap}
    (present : set.table? capability = some map) {id : Int} {name : String}
    (known : map.name? id = some name) (number : Int) :
    set.Misnumbers capability id number ↔ number ≠ id ∧ name = toString number := by
  unfold Misnumbers
  simp only [present, Option.some.injEq, exists_eq_left', known]

/-- What is written for an ID is read as that ID exactly if the set does not call it by another
number, and as that number if it does. -/
theorem reference_reference_iff {set : ResolverSet} {capability : Capability} {id : Int}
    (fits : capability.format.holds id = true) {reference : Reference}
    (found : set.decompileResolvers.reference capability id = .ok reference) :
    (set.compileResolvers.reference capability reference = .ok id ↔
        ∀ number, ¬set.Misnumbers capability id number) ∧
      ∀ number, set.Misnumbers capability id number →
        set.compileResolvers.reference capability reference = .ok number := by
  cases present : set.table? capability with
  | none =>
    have missing : set.decompileResolvers.get? capability = none := by
      rw [decompileResolvers_get?, present, Option.map_none]
    rw [DecompileResolvers.reference_of_none missing] at found
    cases found
    have named := not_misnumbers present id
    exact ⟨iff_of_true rfl named, fun number misnumbered => absurd misnumbered (named number)⟩
  | some map =>
    obtain ⟨name, known, taken⟩ := decompileResolvers_reference present found
    simp only [misnumbers_iff present known]
    cases taken with
    | identifier identifier =>
      have named (number : Int) : name ≠ toString number := by
        rintro rfl
        rw [Numeral.isIdentifier_toString] at identifier
        cases identifier
      exact ⟨iff_of_true (compileResolvers_id present known fits) fun number both =>
        named number both.2, fun number both => absurd both.2 (named number)⟩
    | @number value low high =>
      -- the number is its own ID, whatever the table says
      have resolved : set.compileResolvers.reference capability (.literal value) = .ok value := rfl
      have same (number : Int) : toString value = toString number ↔ value = number :=
        ⟨Numeral.toString_int_injective, congrArg toString⟩
      simp only [resolved, Except.ok.injEq, same]
      refine ⟨⟨?_, fun named => ?_⟩, fun number => And.right⟩
      · rintro rfl number ⟨other, equal⟩
        exact other equal.symm
      · by_contra other
        exact named value ⟨other, rfl⟩

/-- A set that calls one object by its own number and one by the number of another. -/
def crateNumbers : ResolverSet where
  objects := some (.ofList [("7", 7), ("9", 400)])

theorem reference_reference_iff_crates :
    crateNumbers.decompileResolvers.reference .globalObject 7 = .ok (.literal 7) ∧
      crateNumbers.compileResolvers.reference .globalObject (.literal 7) = .ok 7 ∧
      crateNumbers.Misnumbers .globalObject 400 9 ∧
      crateNumbers.decompileResolvers.reference .globalObject 400 = .ok (.literal 9) ∧
      crateNumbers.compileResolvers.reference .globalObject (.literal 9) = .ok 9 := by
  have own : crateNumbers.decompileResolvers.reference .globalObject 7 = .ok (.literal 7) := by
    decide +kernel
  have other : crateNumbers.decompileResolvers.reference .globalObject 400 = .ok (.literal 9) := by
    decide +kernel
  have named (number : Int) : ¬crateNumbers.Misnumbers .globalObject 7 number := by
    rintro ⟨different, map, given, known⟩
    cases given
    have seven : (SymbolMap.ofList [("7", 7), ("9", 400)]).name? 7 = some (toString (7 : Int)) := by
      decide +kernel
    exact different (Numeral.toString_int_injective (Option.some.inj (known.symm.trans seven)))
  have misnumbered : crateNumbers.Misnumbers .globalObject 400 9 :=
    ⟨by decide, _, rfl, by decide +kernel⟩
  exact ⟨own, (reference_reference_iff (by decide) own).1.mpr named, misnumbered, other,
    (reference_reference_iff (by decide) other).2 9 misnumbered⟩

/-- An object that is called by the number of another is read as the other. -/
theorem not_reference_reference_crate :
    Capability.globalObject.format.holds 400 = true ∧
      crateNumbers.decompileResolvers.reference .globalObject 400 = .ok (.literal 9) ∧
      crateNumbers.compileResolvers.reference .globalObject (.literal 9) ≠ .ok 400 := by
  decide +kernel

end ResolverSet

end BehaviourScript
