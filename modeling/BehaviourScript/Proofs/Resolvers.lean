/-
This file shows that the two directions of a set of tables undo each other: the
name that a table has for an ID is resolved to that ID again. Names must be
identifiers, since other names do not come back from a text as names.
-/

import BehaviourScript.Proofs.Integers
import BehaviourScript.Proofs.Names
import BehaviourScript.Proofs.Outcomes
import BehaviourScript.Proofs.Printed.Kinds
import BehaviourScript.Proofs.ReferenceNames
import BehaviourScript.Proofs.SymbolMaps

namespace BehaviourScript

open Outcome

/-- All names of a table are identifiers. -/
def SymbolMap.Named (map : SymbolMap) : Prop := ∀ entry ∈ map.entries, isIdentifier entry.1 = true
  deriving Decidable

namespace ResolverSet

/-- The table of a kind of asset. -/
def table? (set : ResolverSet) : Capability → Option SymbolMap
  | .graph => set.graphs
  | .stateGraph => set.stateGraphs
  | .globalObject => set.objects

/-- All names of all tables are identifiers. -/
def Named (set : ResolverSet) : Prop :=
  ∀ capability, ∀ map ∈ set.table? capability, map.Named

theorem decompileResolvers_get? (set : ResolverSet) (capability : Capability) :
    set.decompileResolvers.get? capability = (set.table? capability).map (·.name?) := by
  cases capability <;> rfl

theorem compileResolvers_get? (set : ResolverSet) (capability : Capability) :
    set.compileResolvers.get? capability = (set.table? capability).map (·.resolve capability) := by
  cases capability <;> rfl

/-- A name of a table is resolved to its ID, if assets of the kind can have it. -/
theorem compileResolvers_id {set : ResolverSet} {capability : Capability} {map : SymbolMap}
    (present : set.table? capability = some map) {name : String} {id : Int}
    (known : map.name? id = some name) (fits : capability.format.holds id = true) :
    set.compileResolvers.id capability name = .ok id := by
  have resolved := map.mirrored.resolve_eq_some_iff.mpr ⟨fits, known⟩
  unfold CompileResolvers.id
  rw [compileResolvers_get?, present, Option.map_some, Option.bind_some, resolved]

/-- What is written for an ID that a table is asked for. -/
theorem decompileResolvers_reference {set : ResolverSet} {capability : Capability}
    {map : SymbolMap} (present : set.table? capability = some map) {id : Int}
    {reference : Reference}
    (found : set.decompileResolvers.reference capability id = .ok reference) :
    ∃ name, map.name? id = some name ∧ Reference.Names name reference := by
  refine (DecompileResolvers.reference_eq_ok_iff ?_).mp found
  rw [decompileResolvers_get?, present, Option.map_some]

end ResolverSet

theorem Capability.natAbs_lt {capability : Capability} {id : Int}
    (fits : capability.format.holds id = true) : id.natAbs < Token.numberBound := by
  have low : -2 ^ 31 ≤ capability.format.min := by cases capability <;> decide
  have high : capability.format.max < 2 ^ 32 := by cases capability <;> decide
  have bounds := IntFormat.holds_iff.mp fits
  unfold Token.numberBound
  omega

/-- A reference that the host writes for an ID. -/
def DecompileResolvers.Writes (names : DecompileResolvers) (reference : Reference) : Prop :=
  ∃ capability id, capability.format.holds id = true ∧
    names.reference capability id = .ok reference

/-- Whatever the host answers, a symbol that is written is an identifier. -/
theorem DecompileResolvers.isIdentifier_of_reference {names : DecompileResolvers}
    {capability : Capability} {id : Int} {symbol : String}
    (found : names.reference capability id = .ok (.symbol symbol)) : isIdentifier symbol = true := by
  cases installed : names.get? capability with
  | none =>
    rw [reference_of_none installed] at found
    cases found
  | some nameOf =>
    obtain ⟨_, _, taken⟩ := (reference_eq_ok_iff installed).mp found
    cases taken with
    | identifier identifier => exact identifier

/-- A library's behaviour has an identifier from the host, or a name and an attribute that its ID
gives. -/
theorem Decode.entryName_shape {names : DecompileResolvers} {id : Nat} {name : String}
    {attributes : List Attribute} (found : entryName names id = .ok (name, attributes)) :
    isIdentifier name = true ∧ (attributes = [] ∨ attributes = [attr (.globalIndex (number id))]) := by
  unfold entryName at found
  rw [bind_eq_ok] at found
  obtain ⟨identifier?, known, given⟩ := found
  rw [ofResolution_eq_ok] at known
  cases identifier? with
  | none =>
    cases given
    exact ⟨ItemKind.isIdentifier_fallbackName .behaviour id, .inr rfl⟩
  | some symbol =>
    cases given
    refine ⟨?_, .inl rfl⟩
    unfold DecompileResolvers.graphIdentifier at known
    split at known
    · cases known
    · split at known
      · next referred =>
        cases known
        exact DecompileResolvers.isIdentifier_of_reference referred
      · cases known
      · cases known

/-- What the host writes for IDs is what it reads as these IDs. -/
structure Inverse (names : DecompileResolvers) (ids : CompileResolvers) : Prop where
  reference : ∀ capability {id reference}, capability.format.holds id = true →
    names.reference capability id = .ok reference →
    ids.reference capability reference = .ok id ∧ reference.Spellable
  entryName : ∀ {id : Nat} {name attributes}, IntFormat.u32.holds id = true →
    Decode.entryName names id = .ok (name, attributes) →
    isIdentifier name = true ∧ (attributes = [] ∧ ids.id .graph name = .ok id ∨
      attributes = [Decode.attr (.globalIndex (Decode.number id))])
  entryName_injective : ∀ {first second : Nat} {name firstAttributes secondAttributes},
    IntFormat.u32.holds first = true → IntFormat.u32.holds second = true →
    Decode.entryName names first = .ok (name, firstAttributes) →
    Decode.entryName names second = .ok (name, secondAttributes) → first = second

theorem Inverse.spellable {names : DecompileResolvers} {ids : CompileResolvers}
    (inverse : Inverse names ids) {reference : Reference} (written : names.Writes reference) :
    reference.Spellable := by
  obtain ⟨capability, id, fits, found⟩ := written
  exact (inverse.reference capability fits found).2

namespace ResolverSet

variable {set : ResolverSet} (named : set.Named)

include named

/-- A table that has a name for an ID gives it as a symbol, which is resolved to the ID. -/
theorem reference_of_table {capability : Capability} {map : SymbolMap}
    (present : set.table? capability = some map) {id : Int} {reference : Reference}
    (fits : capability.format.holds id = true)
    (found : set.decompileResolvers.reference capability id = .ok reference) :
    ∃ name, reference = .symbol name ∧ isIdentifier name = true ∧
      set.compileResolvers.id capability name = .ok id := by
  obtain ⟨name, known, taken⟩ := decompileResolvers_reference present found
  have identifier := named capability map present _ (map.mirrored.name?_eq_some_iff.mp known)
  exact ⟨name, taken.unique (.identifier identifier), identifier,
    compileResolvers_id present known fits⟩

theorem entryName_eq_ok {id : Nat} (fits : IntFormat.u32.holds id = true) {name : String}
    {attributes : List Attribute}
    (found : Decode.entryName set.decompileResolvers id = .ok (name, attributes)) :
    (∃ map, set.graphs = some map ∧ attributes = [] ∧ isIdentifier name = true ∧
      set.compileResolvers.id .graph name = .ok (id : Int)) ∨
    set.graphs = none ∧ name = ItemKind.behaviour.fallbackName id ∧
      attributes = [Decode.attr (.globalIndex (Decode.number id))] := by
  unfold Decode.entryName at found
  rw [bind_eq_ok] at found
  obtain ⟨identifier?, known, given⟩ := found
  rw [ofResolution_eq_ok] at known
  unfold DecompileResolvers.graphIdentifier at known
  cases present : set.graphs with
  | none =>
    rw [if_pos (by show (set.graphs.map _).isNone = true; rw [present]; rfl)] at known
    cases known
    cases given
    exact .inr ⟨rfl, rfl, rfl⟩
  | some map =>
    rw [if_neg (by show ¬(set.graphs.map _).isNone = true; rw [present]; exact nofun)] at known
    cases referred : set.decompileResolvers.reference .graph id with
    | error error =>
      rw [referred] at known
      exact nomatch known
    | ok reference =>
      have table : set.table? .graph = some map := present
      obtain ⟨symbol, rfl, identifier, resolved⟩ := reference_of_table named table fits referred
      rw [referred] at known
      cases known
      cases given
      exact .inl ⟨map, rfl, rfl, identifier, resolved⟩

theorem inverse : Inverse set.decompileResolvers set.compileResolvers where
  reference := by
    intro capability id reference fits found
    cases present : set.table? capability with
    | none =>
      unfold DecompileResolvers.reference at found
      rw [decompileResolvers_get?, present] at found
      cases found
      exact ⟨rfl, Capability.natAbs_lt fits⟩
    | some map =>
      obtain ⟨name, rfl, identifier, resolved⟩ := reference_of_table named present fits found
      exact ⟨resolved, identifier⟩
  entryName := by
    intro id name attributes fits found
    rcases entryName_eq_ok named fits found with
      ⟨_, _, rfl, identifier, resolved⟩ | ⟨_, rfl, rfl⟩
    · exact ⟨identifier, .inl ⟨rfl, resolved⟩⟩
    · exact ⟨ItemKind.isIdentifier_fallbackName .behaviour id, .inr rfl⟩
  entryName_injective := by
    intro first second name firstAttributes secondAttributes firstFits secondFits firstFound
      secondFound
    rcases entryName_eq_ok named firstFits firstFound with
      ⟨map, present, _, _, firstId⟩ | ⟨absent, firstName, _⟩
    · rcases entryName_eq_ok named secondFits secondFound with
        ⟨_, _, _, _, secondId⟩ | ⟨absent, _, _⟩
      · rw [firstId] at secondId
        exact Int.ofNat_inj.mp (Except.ok.inj secondId)
      · rw [present] at absent
        exact nomatch absent
    · rcases entryName_eq_ok named secondFits secondFound with
        ⟨map, present, _, _, _⟩ | ⟨_, secondName, _⟩
      · rw [present] at absent
        exact nomatch absent
      · exact ItemKind.fallbackName_injective (firstName.symm.trans secondName)

end ResolverSet

end BehaviourScript
