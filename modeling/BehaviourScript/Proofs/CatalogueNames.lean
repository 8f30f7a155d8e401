/-
This file says which names the catalogues know. A name stands for an ID if it is
listed at the place of the ID, or if it is the generic word and the ID's number in
decimal digits, with any zeros in front. So an ID may have several names. One of
them is canonical: it is an identifier, and it stands for the ID again.
-/

import BehaviourScript.Proofs.Lexemes
import BehaviourScript.Proofs.Names

namespace BehaviourScript

namespace Catalogue

open Lexeme

/-- The names of an ID. -/
inductive Spells (catalogue : Catalogue) : String → UInt16 → Prop
  | listed {name : String} {id : UInt16} :
      catalogue.names[id.toNat]? = some name → Spells catalogue name id
  | generic {digits : List Char} {id : UInt16} :
      digits ≠ [] → (∀ char ∈ digits, IsDecimal char) → value 10 digits = id.toNat →
      Spells catalogue (catalogue.generic ++ String.ofList digits) id

variable {catalogue : Catalogue} {name : String} {id : UInt16}

/-- The numbers that are read as IDs. -/
theorem map_readBelow?_eq_some_iff {digits : List Char} :
    (Numeral.readBelow? 10 65536 digits).map UInt16.ofNat = some id ↔
      digits ≠ [] ∧ (∀ char ∈ digits, IsDecimal char) ∧ value 10 digits = id.toNat := by
  have small : id.toNat < 65536 := id.toNat_lt
  simp only [Option.map_eq_some_iff, Numeral.readBelow?, Option.filter_eq_some_iff,
    read?_eq_some_iff, decide_eq_true_eq, ← isDecimal_iff]
  constructor
  · rintro ⟨number, ⟨⟨nonempty, decimal, rfl⟩, below⟩, rfl⟩
    exact ⟨nonempty, decimal, (UInt16.toNat_ofNat_of_lt' below).symm⟩
  · rintro ⟨nonempty, decimal, same⟩
    exact ⟨id.toNat, ⟨⟨nonempty, decimal, same⟩, small⟩, UInt16.ofNat_toNat⟩

theorem Spells.id?_eq (clear : catalogue.Clear) (spells : catalogue.Spells name id) :
    catalogue.id? name = some id := by
  cases spells with
  | listed found => exact id?_of_listed clear found
  | generic nonempty decimal same =>
    rw [id?_append clear, String.toList_ofList]
    exact map_readBelow?_eq_some_iff.mpr ⟨nonempty, decimal, same⟩

theorem spells_of_id? (clear : catalogue.Clear) (found : catalogue.id? name = some id) :
    catalogue.Spells name id := by
  unfold id? at found
  split at found
  · next index place =>
    obtain ⟨bound, atIndex, _⟩ := List.idxOf?_eq_some_iff.mp place
    have small : index < 65536 := Nat.lt_of_lt_of_le bound clear.few
    cases found
    refine .listed (List.getElem?_eq_some_iff.mpr ⟨?_, ?_⟩)
    · rwa [UInt16.toNat_ofNat_of_lt' small]
    · simpa only [UInt16.toNat_ofNat_of_lt' small] using atIndex
  · unfold genericId? at found
    split at found
    · next leads =>
      obtain ⟨digits, shape⟩ := List.isPrefixOf_iff_prefix.mp leads
      have spelled : name = catalogue.generic ++ String.ofList digits := by
        refine String.toList_inj.mp ?_
        rw [String.toList_append, String.toList_ofList, shape]
      rw [← shape, ← String.length_toList, List.drop_left] at found
      obtain ⟨nonempty, decimal, number⟩ := map_readBelow?_eq_some_iff.mp found
      rw [spelled]
      exact .generic nonempty decimal number
    · cases found

/-- A command's or a condition's ID is found for exactly the names that spell it, and its canonical
name is an identifier and one of them. -/
theorem id?_eq_some_iff_spells : ∀ catalogue ∈ [commands, conditions], ∀ name id,
    (catalogue.id? name = some id ↔ catalogue.Spells name id) ∧
      (catalogue.id? name = some id → isIdentifier (catalogue.name id) = true ∧
        catalogue.id? (catalogue.name id) = some id) := by
  have allClear : ∀ catalogue ∈ [commands, conditions], catalogue.Clear :=
    List.forall_mem_cons.mpr ⟨commands_clear, List.forall_mem_singleton.mpr conditions_clear⟩
  intro catalogue known name id
  have clear := allClear catalogue known
  exact ⟨⟨spells_of_id? clear, Spells.id?_eq clear⟩,
    fun _ => ⟨isIdentifier_name clear id, id?_name clear id⟩⟩

-- Zeros in front, and the number of an ID that has a name.
theorem id?_eq_some_iff_spells_zeros :
    commands.id? "Command_0000000700" = some 700 ∧ commands.Spells "Command_0000000700" 700 ∧
      commands.name 700 = "Command_700" ∧ commands.id? "Command_700" = some 700 ∧
      conditions.Spells "Condition_7" 7 ∧ conditions.id? "Condition_7" = some 7 ∧
      isIdentifier "Random" = true ∧ conditions.id? "Random" = some 7 := by
  have command := id?_eq_some_iff_spells commands (by simp) "Command_0000000700" 700
  have condition := id?_eq_some_iff_spells conditions (by simp) "Condition_7" 7
  have long : commands.id? "Command_0000000700" = some 700 := by decide +kernel
  have short : commands.name 700 = "Command_700" := by decide +kernel
  have number : conditions.Spells "Condition_7" 7 :=
    .generic (List.cons_ne_nil '7' []) (List.forall_mem_singleton.mpr (by decide))
      (by decide +kernel)
  obtain ⟨_, sameCommand⟩ := command.2 long
  obtain ⟨identifier, sameCondition⟩ := condition.2 (condition.1.mpr number)
  rw [short] at sameCommand
  exact ⟨long, command.1.mp long, short, sameCommand, number, condition.1.mpr number, identifier,
    sameCondition⟩

end Catalogue

end BehaviourScript
