/-
This file says when a decompiled text can be read, whatever names the host has.
A name from the host is written only if it is an identifier or a number in its
shortest spelling. All of these can be read again but one: the least number of
64 bits has a spelling, but a text spells it as a minus sign and a number that is
one too great. So a decompiled text reads as what was decoded exactly if the host
did not give that number as a name.
-/

import BehaviourScript.Proofs.Decompilation

namespace BehaviourScript

open Outcome
open Token (numberBound)

/-- The least number of 64 bits. -/
def leastNumber : Int := -9223372036854775808

/-- A host gives an asset the least number as its name. -/
def DecompileResolvers.NamesLeast (resolvers : DecompileResolvers) : Prop :=
  ∃ capability nameOf id, resolvers.get? capability = some nameOf ∧
    nameOf id = some "-9223372036854775808"

/-! ### What the host writes -/

/-- What a name stands for can be spelled, unless it is the least number. -/
theorem Reference.Names.spellable {name : String} {reference : Reference}
    (taken : Names name reference) :
    reference.Spellable ∨ reference = .literal leastNumber ∧ name = "-9223372036854775808" := by
  cases taken with
  | identifier identifier => exact .inl identifier
  | @number value low high =>
    by_cases least : value = leastNumber
    · subst least
      exact .inr ⟨rfl, rfl⟩
    · refine .inl ?_
      unfold leastNumber at least
      show value.natAbs < numberBound
      unfold numberBound
      omega

theorem DecompileResolvers.Writes.spellable {resolvers : DecompileResolvers}
    {reference : Reference} (written : resolvers.Writes reference) :
    reference.Spellable ∨ reference = .literal leastNumber ∧ resolvers.NamesLeast := by
  obtain ⟨capability, id, fits, found⟩ := written
  cases installed : resolvers.get? capability with
  | none =>
    rw [reference_of_none installed] at found
    cases found
    exact .inl (Capability.natAbs_lt fits)
  | some nameOf =>
    obtain ⟨name, known, taken⟩ := (reference_eq_ok_iff installed).mp found
    refine taken.spellable.imp_right fun ⟨least, spelled⟩ => ?_
    exact ⟨least, capability, nameOf, id, installed, known.trans (congrArg some spelled)⟩

/-! ### References of a tree -/

namespace Script

theorem references_mapExpr (change : Expr → Expr) (script : Script) :
    (script.mapExpr change).references = script.references := by
  have inBehaviour (content : Behaviour) :
      (content.mapExpr change).references = content.references := by
    unfold Behaviour.references Behaviour.mapExpr
    rw [List.filterMap_map]
    cases content.starter with
    | none => rfl
    | some setup =>
      simp only [Option.map_some, Option.toList_some, List.flatMap_singleton, Starter.mapExpr,
        List.map_map]
      rfl
  cases script with
  | library content =>
    show (content.behaviours.map _).flatMap Behaviour.references = _
    rw [List.flatMap_map]
    exact congrArg content.behaviours.flatMap (funext inBehaviour)
  | behaviour content => exact inBehaviour content
  | sequence content => exact List.map_map

/-- What can be spelled has references that can be spelled. -/
theorem Spellable.references {script : Script} (spellable : script.Spellable) :
    ∀ reference ∈ script.references, reference.Spellable := by
  have inBehaviour (content : Behaviour) (spellable : content.Spellable) :
      ∀ reference ∈ content.references, reference.Spellable := by
    obtain ⟨_, _, _, starter, states, _⟩ := spellable
    refine List.forall_mem_append.mpr ⟨?_, ?_⟩
    · intro reference member
      obtain ⟨setup, given, inSetup⟩ := List.mem_flatMap.mp member
      obtain ⟨assigner, inAssigners, rfl⟩ := List.mem_map.mp inSetup
      exact (starter setup (Option.mem_toList.mp given) assigner inAssigners).1
    · intro reference member
      obtain ⟨state, inStates, target⟩ := List.mem_filterMap.mp member
      exact (states state inStates).2.2.1 reference target
  cases script with
  | library content =>
    intro reference member
    obtain ⟨behaviour, inBehaviours, used⟩ := List.mem_flatMap.mp member
    exact inBehaviour behaviour (spellable.2.2.2 behaviour inBehaviours) reference used
  | behaviour content => exact inBehaviour content spellable
  | sequence content =>
    intro reference member
    obtain ⟨pack, inPacks, rfl⟩ := List.mem_map.mp member
    exact (spellable.2.2.2.1 pack inPacks).1

end Script

/-! ### Decompiled texts -/

/-- A text reads as a tree, up to places and the spelling of negative numbers. -/
def ReadsAs (text : String) (script : Script) : Prop :=
  ∃ tokens result, tokenize text = .ok tokens ∧ parse tokens = .ok result ∧
    result.erase = script.reread

/-- A text that reads as a tree spells the tree's references. -/
theorem ReadsAs.ne_leastNumber {text : String} {script : Script} (reads : ReadsAs text script) :
    ∀ reference ∈ script.references, reference ≠ .literal leastNumber := by
  obtain ⟨tokens, result, split, run, same⟩ := reads
  have spellable := parseSource_spellable (parseSource_eq_ok.mpr ⟨tokens, split, run⟩)
  have spelled := spellable.references
  rw [same, Script.reread, Script.references_mapExpr] at spelled
  rintro reference member rfl
  exact absurd (spelled _ member) (by decide)

/-- A decompiled text reads as what was decoded exactly if no reference in it is the least number;
and none is unless the host says so. -/
theorem readsAs_decompile {kind : ItemKind} {bytes : Bytes} {name : String}
    {resolvers : DecompileResolvers} {options : PrintOptions} {text : String}
    (done : decompile kind bytes name resolvers options = .ok text) :
    ∃ script, decode kind bytes name resolvers = .ok script ∧
      (ReadsAs text script ↔ ∀ reference ∈ script.references, reference ≠ .literal leastNumber) ∧
      (¬resolvers.NamesLeast → ReadsAs text script) := by
  obtain ⟨script, decoded, rfl⟩ := decompile_eq_ok.mp done
  obtain ⟨identifier, formatted⟩ := decode_eq_ok_iff.mp decoded
  have written (reference : Reference) (member : reference ∈ script.references) :=
    (Restored.script_written formatted reference member).spellable
  have shallow := Script.shallow_of_words (Restored.script_words formatted)
  have reads (spellable : ∀ reference ∈ script.references, reference.Spellable) :
      ReadsAs (script.print options) script := by
    have whole := Restored.script_spellable_of_references formatted spellable identifier
    obtain ⟨result, read, same⟩ := parseSource_print whole shallow options
    obtain ⟨tokens, split, run⟩ := parseSource_eq_ok.mp read
    exact ⟨tokens, result, split, run, same⟩
  refine ⟨script, decoded, ⟨ReadsAs.ne_leastNumber, fun other => ?_⟩, fun quiet => ?_⟩
  · refine reads fun reference member => (written reference member).resolve_right fun least => ?_
    exact other reference member least.1
  · exact reads fun reference member => (written reference member).resolve_right fun least =>
      quiet least.2

/-- A host that has one name for all graphs. -/
def oneName (name : String) : DecompileResolvers where
  graphs := some fun _ => some name

/-- A sequence with a pack that runs along with script 7. -/
def escort : Bytes := [0, 0, 1, 0, 1, 0, 0, 0, 1, 0, 1, 0, 0, 0, 7, 0, 0, 0]

def escortText (script : String) : String :=
  "[GlobalIndex(0)]\n[InstanceType(0)]\nsequence Escort \x7b\n\tpack(" ++ script ++
    ") \x7b\n\t\tWait(1);\n\t\x7d\n\x7d\n"

theorem readsAs_decompile_escort :
    decompile .sequence escort "Escort" (oneName "-9223372036854775807") {} =
        .ok (escortText "-9223372036854775807") ∧
      ∃ script, decode .sequence escort "Escort" (oneName "-9223372036854775807") = .ok script ∧
        ReadsAs (escortText "-9223372036854775807") script := by
  have done : decompile .sequence escort "Escort" (oneName "-9223372036854775807") {} =
      .ok (escortText "-9223372036854775807") := by decide +kernel
  have quiet : ¬(oneName "-9223372036854775807").NamesLeast := by
    rintro ⟨capability, nameOf, id, given, known⟩
    cases capability <;> cases given
    have same : "-9223372036854775807" = "-9223372036854775808" := Option.some.inj known
    exact absurd same (by decide)
  obtain ⟨script, decoded, _, reads⟩ := readsAs_decompile done
  exact ⟨done, script, decoded, reads quiet⟩

/-- The least number is decompiled to a text that does not even split into tokens. -/
theorem not_readsAs_decompile_least :
    decompile .sequence escort "Escort" (oneName "-9223372036854775808") {} =
        .ok (escortText "-9223372036854775808") ∧
      tokenize (escortText "-9223372036854775808") =
        .error (.malformedNumber "9223372036854775808" ⟨4, 8, 60⟩) := by
  decide +kernel

end BehaviourScript
