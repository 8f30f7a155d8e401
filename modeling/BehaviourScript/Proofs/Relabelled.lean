/-
This file proves that a host's names do nothing to a binary but name what is in
it. Decoding with names succeeds exactly if decoding without them does and the
host has a name for every ID that it is asked for; and then the two scripts
differ only in the references to these IDs and in what the behaviours of a
library are called.

The two runs are compared through the binary format. Record by record, the bytes
that can be read with names are those that can be read without them, as long as
their IDs are known, and they stand for the same values with the names put in.
No length, count, flag or jump is touched by that, so the comparison goes through
rows and chains.
-/

import BehaviourScript.Proofs.Binary.Assets
import BehaviourScript.Proofs.Binary.Scripts
import BehaviourScript.Proofs.ReferenceNames

namespace BehaviourScript

open Decode (attr number)

/-! ### Names for IDs -/

namespace DecompileResolvers

variable (resolvers : DecompileResolvers)

/-- A host that has names for assets of a kind has one for this ID, and it can be written. -/
def Knows (capability : Capability) (id : Int) : Prop :=
  ∀ nameOf, resolvers.get? capability = some nameOf →
    ∃ name reference, nameOf id = some name ∧ Reference.Names name reference

/-- The host knows each of these assets, which are IDs with their kinds. -/
def KnowsAll (assets : List Asset) : Prop :=
  ∀ asset ∈ assets, resolvers.Knows asset.1 asset.2

/-- What the host writes for an ID that it knows. -/
def label (capability : Capability) (id : Int) : Reference :=
  match resolvers.reference capability id with
  | .ok reference => reference
  | .error _ => .literal id

variable {resolvers}

/-- A reference is given if the host knows the ID, and it is what the host writes. -/
theorem reference_eq_ok_iff_label {capability : Capability} {id : Int} {written : Reference} :
    resolvers.reference capability id = .ok written ↔
      resolvers.Knows capability id ∧ resolvers.label capability id = written := by
  have known : (∃ reference, resolvers.reference capability id = .ok reference) ↔
      resolvers.Knows capability id := by
    unfold Knows
    cases installed : resolvers.get? capability with
    | none =>
      refine iff_of_true ⟨_, reference_of_none installed⟩ fun nameOf given => ?_
      cases given
    | some nameOf =>
      simp only [reference_eq_ok_iff installed, Option.some.injEq, forall_eq']
      exact exists_comm.trans (by simp only [exists_and_left])
  rw [← known, label]
  cases resolvers.reference capability id with
  | ok reference => simp
  | error error => simp

theorem knowsAll_append {first second : List Asset} :
    resolvers.KnowsAll (first ++ second) ↔ resolvers.KnowsAll first ∧ resolvers.KnowsAll second :=
  List.forall_mem_append

theorem knowsAll_flatMap {α : Type} {items : List α} {assets : α → List Asset} :
    resolvers.KnowsAll (items.flatMap assets) ↔ ∀ item ∈ items, resolvers.KnowsAll (assets item) :=
  List.forall_mem_flatMap

theorem knowsAll_singleton {capability : Capability} {id : Int} :
    resolvers.KnowsAll [(capability, id)] ↔ resolvers.Knows capability id :=
  List.forall_mem_singleton

end DecompileResolvers

/-! ### The names of what a script refers to -/

/-- The name that a reference is, if it is one. -/
def Reference.symbol? : Reference → Option String
  | literal _ => none
  | symbol name => some name

section Relabel

variable (resolvers : DecompileResolvers)

def Reference.relabel (capability : Capability) : Reference → Reference
  | literal id => resolvers.label capability id
  | symbol name => symbol name

def Assigner.relabel (assigner : Assigner) : Assigner :=
  { assigner with object := assigner.object.relabel resolvers .globalObject }

def Starter.relabel (starter : Starter) : Starter :=
  { starter with assigners := starter.assigners.map (Assigner.relabel resolvers) }

def State.relabel (state : State) : State :=
  { state with target := state.target.map (Reference.relabel resolvers .stateGraph) }

def Behaviour.relabel (behaviour : Behaviour) : Behaviour :=
  { behaviour with
    starter := behaviour.starter.map (Starter.relabel resolvers)
    states := behaviour.states.map (State.relabel resolvers) }

/-- A behaviour of a library. If the host has an identifier for it, that is its name, and no
attribute needs to tell its ID. -/
def Behaviour.relabelEntry (behaviour : Behaviour) : Behaviour :=
  match behaviour.graphId?.bind fun id => (resolvers.label .graph id).symbol? with
  | some name =>
    { behaviour.relabel resolvers with
      name := name
      attributes := behaviour.attributes.filter fun attr => attr.kind.globalIndex?.isNone }
  | none => behaviour.relabel resolvers

def CommandPack.relabel (pack : CommandPack) : CommandPack :=
  { pack with script := pack.script.relabel resolvers .graph }

/-- A script with the host's names in the place of IDs. -/
def Script.relabel : Script → Script
  | library content =>
    library { content with
      behaviours := content.behaviours.map (Behaviour.relabelEntry resolvers) }
  | behaviour content => behaviour (content.relabel resolvers)
  | sequence content =>
    sequence { content with packs := content.packs.map (CommandPack.relabel resolvers) }

end Relabel

/-! ### Formats with changed values -/

/-- A format has the bytes of another one whose values pass a test, for those values changed. -/
def Format.Changes {α β : Type} (plain : Format α) (test : α → Prop) (change : α → β)
    (format : Format β) : Prop :=
  ∀ bytes value, format bytes value ↔ ∃ given, plain bytes given ∧ test given ∧ change given = value

namespace Format.Changes

variable {α β : Type} {test : α → Prop} {change : α → β}

theorem optional {plain : Format α} {format : Format β} (changes : Changes plain test change format) :
    Changes plain.Optional (fun given => ∀ item ∈ given, test item) (Option.map change)
      format.Optional := by
  intro bytes value
  constructor
  · rintro (_ | formatted)
    · exact ⟨none, .absent, by simp, rfl⟩
    · obtain ⟨given, plainly, passes, rfl⟩ := (changes _ _).mp formatted
      exact ⟨some given, .present plainly, by simpa using passes, rfl⟩
  · rintro ⟨given, plainly | plainly, passes, rfl⟩
    · exact .absent
    · exact .present ((changes _ _).mpr ⟨_, plainly, passes _ rfl, rfl⟩)

/-- The bytes of a row are those of plain items that pass, changed one by one. -/
theorem rows {plain : Format α} {format : Format β} (changes : Changes plain test change format) :
    Changes plain.Rows (fun given => ∀ item ∈ given, test item) (List.map change)
      format.Rows := by
  intro bytes values
  constructor
  · intro formatted
    induction formatted with
    | nil => exact ⟨[], .nil, List.forall_mem_nil _, rfl⟩
    | cons first _ inductionHypothesis =>
      obtain ⟨item, plainly, passes, rfl⟩ := (changes _ _).mp first
      obtain ⟨items, others, pass, rfl⟩ := inductionHypothesis
      exact ⟨item :: items, .cons plainly others, List.forall_mem_cons.mpr ⟨passes, pass⟩, rfl⟩
  · rintro ⟨items, plainly, pass, rfl⟩
    induction plainly with
    | nil => exact .nil
    | cons first _ inductionHypothesis =>
      rw [List.forall_mem_cons] at pass
      exact .cons ((changes _ _).mpr ⟨_, first, pass.1, rfl⟩) (inductionHypothesis pass.2)

/-- Whether another link follows is not changed. -/
theorem links {plain : Nat → Format (α × Bool)} {format : Nat → Format (β × Bool)}
    (changes : ∀ index, Changes (plain index) (fun given => test given.1) (Prod.map change id)
      (format index)) (index : Nat) :
    Changes (Links plain index) (fun given => ∀ item ∈ given, test item) (List.map change)
      (Links format index) := by
  intro bytes values
  constructor
  · intro formatted
    induction formatted with
    | nil => exact ⟨[], .nil, List.forall_mem_nil _, rfl⟩
    | cons first _ inductionHypothesis =>
      obtain ⟨⟨item, hasNext⟩, plainly, passes, same⟩ := (changes _ _ _).mp first
      obtain ⟨items, others, pass, rfl⟩ := inductionHypothesis
      cases same
      rw [List.isEmpty_map] at plainly
      exact ⟨item :: items, .cons plainly others, List.forall_mem_cons.mpr ⟨passes, pass⟩, rfl⟩
  · rintro ⟨items, plainly, pass, rfl⟩
    induction plainly with
    | nil => exact .nil
    | @cons _ _ _ item items first _ inductionHypothesis =>
      rw [List.forall_mem_cons] at pass
      refine .cons ((changes _ _ _).mpr ⟨_, first, pass.1, ?_⟩) (inductionHypothesis pass.2)
      rw [List.isEmpty_map]
      rfl

end Format.Changes

/-! ### Records -/

namespace Format

open DecompileResolvers

variable {resolvers : DecompileResolvers}

/-- An assigner is read with names if its object is known. -/
theorem assigner_changes : Changes (assigner .numbersOnly)
    (fun given => resolvers.KnowsAll given.ids) (Assigner.relabel resolvers)
    (assigner resolvers) := by
  intro bytes value
  constructor
  · rintro ⟨fits, found, small⟩
    obtain ⟨known, rfl⟩ := reference_eq_ok_iff_label.mp found
    exact ⟨_, .intro fits (reference_numbersOnly _ _) small, knowsAll_singleton.mpr known, rfl⟩
  · rintro ⟨given, ⟨fits, found, small⟩, known, rfl⟩
    rw [reference_numbersOnly] at found
    cases found
    exact .intro fits (reference_eq_ok_iff_label.mpr ⟨knowsAll_singleton.mp known, rfl⟩) small

theorem starter_changes : Changes (starter .numbersOnly)
    (fun given => resolvers.KnowsAll given.ids) (Starter.relabel resolvers)
    (starter resolvers) := by
  intro bytes value
  constructor
  · rintro ⟨few, rows⟩
    obtain ⟨assigners, plainly, known, rfl⟩ := (assigner_changes.rows _ _).mp rows
    rw [List.length_map] at few ⊢
    exact ⟨_, .intro few plainly, knowsAll_flatMap.mpr known, rfl⟩
  · rintro ⟨_, @⟨assigners, bytes, few, rows⟩, known, rfl⟩
    have changed := (assigner_changes.rows _ _).mpr ⟨assigners, rows, knowsAll_flatMap.mp known, rfl⟩
    rw [← List.length_map (Assigner.relabel resolvers)] at few ⊢
    exact .intro few changed

/-- What a state runs is read with names if it is known. Object slots are not asked for. -/
theorem target_iff {slot : Bool} {word : Int} {attributes : List Attribute}
    {reference : Option Reference} :
    target resolvers slot word attributes reference ↔
      ∃ given, target .numbersOnly slot word attributes given ∧
        resolvers.KnowsAll (given.toList.flatMap (Reference.ids .stateGraph)) ∧
        given.map (Reference.relabel resolvers .stateGraph) = reference := by
  constructor
  · rintro (⟨low, high⟩ | _ | ⟨low, high, found⟩)
    · exact ⟨none, .slot low high, List.forall_mem_nil _, rfl⟩
    · exact ⟨none, .nothing, List.forall_mem_nil _, rfl⟩
    · obtain ⟨known, rfl⟩ := reference_eq_ok_iff_label.mp found
      exact ⟨_, .graph low high (reference_numbersOnly _ _), knowsAll_singleton.mpr known, rfl⟩
  · rintro ⟨given, ⟨low, high⟩ | _ | ⟨low, high, found⟩, known, rfl⟩
    · exact .slot low high
    · exact .nothing
    · rw [reference_numbersOnly] at found
      cases found
      exact .graph low high (reference_eq_ok_iff_label.mpr ⟨knowsAll_singleton.mp known, rfl⟩)

/-- A state is read with names if what it runs is known. -/
theorem state_changes (index : Nat) : Changes (state .numbersOnly index)
    (fun given => resolvers.KnowsAll given.1.1.ids)
    (Prod.map (Prod.map (State.relabel resolvers) id) id) (state resolvers index) := by
  intro bytes value
  constructor
  · rintro ⟨inside, targeted, packet, rows, few⟩
    obtain ⟨given, plainly, known, rfl⟩ := target_iff.mp targeted
    exact ⟨_, .intro inside plainly packet rows few, known, rfl⟩
  · rintro ⟨_, ⟨inside, targeted, packet, rows, few⟩, known, rfl⟩
    exact .intro inside (target_iff.mpr ⟨_, targeted, known, rfl⟩) packet rows few

theorem states_changes : Changes (Links (state .numbersOnly) 0)
    (fun given => ∀ entry ∈ given, resolvers.KnowsAll entry.1.ids)
    (List.map (Prod.map (State.relabel resolvers) id)) (Links (state resolvers) 0) := by
  refine Changes.links ?_ 0
  exact state_changes

/-- A behaviour is read with names if its objects and the graphs of its states are known. -/
theorem behaviour_changes (name : String) (attributes : List Attribute) :
    Changes (behaviour .numbersOnly name attributes) (fun given => resolvers.KnowsAll given.ids)
      (Behaviour.relabel resolvers) (behaviour resolvers name attributes) := by
  have parts (setup : Option Starter) (states : List (State × List Nat)) :
      resolvers.KnowsAll (setup.toList.flatMap Starter.ids ++
          (states.map Prod.fst).flatMap State.ids) ↔
        (∀ starter ∈ setup, resolvers.KnowsAll starter.ids) ∧
          ∀ entry ∈ states, resolvers.KnowsAll entry.1.ids := by
    rw [knowsAll_append, knowsAll_flatMap, knowsAll_flatMap, List.forall_mem_map]
    simp only [Option.mem_toList, Option.mem_def]
  have shown (states : List (State × List Nat)) :
      (states.map (Prod.map (State.relabel resolvers) id)).map Prod.fst =
        (states.map Prod.fst).map (State.relabel resolvers) := by
    rw [List.map_map, List.map_map]
    rfl
  have jumpsInside (states : List (State × List Nat)) :
      (∀ entry ∈ states.map (Prod.map (State.relabel resolvers) id), ∀ target ∈ entry.2,
          target < (states.map (Prod.map (State.relabel resolvers) id)).length) ↔
        ∀ entry ∈ states, ∀ target ∈ entry.2, target < states.length := by
    rw [List.forall_mem_map, List.length_map]
    rfl
  intro bytes value
  constructor
  · rintro ⟨inside, startFits, priorityFits, unknownFits, setupFormat, links, jumps⟩
    obtain ⟨setup, setupPlainly, setupKnown, rfl⟩ := (starter_changes.optional _ _).mp setupFormat
    obtain ⟨states, plainly, known, rfl⟩ := (states_changes _ _).mp links
    rw [List.length_map] at inside
    rw [Option.isSome_map, shown]
    exact ⟨_, .intro inside startFits priorityFits unknownFits setupPlainly plainly
      ((jumpsInside states).mp jumps), (parts _ _).mpr ⟨setupKnown, known⟩, rfl⟩
  · rintro ⟨_, @⟨start, priority, unknown, setup, states, setupBytes, stateBytes, inside, startFits,
      priorityFits, unknownFits, setupPlainly, plainly, jumps⟩, known, rfl⟩
    obtain ⟨setupKnown, statesKnown⟩ := (parts _ _).mp known
    have setupFormat := (starter_changes.optional _ _).mpr ⟨setup, setupPlainly, setupKnown, rfl⟩
    have links := (states_changes _ _).mpr ⟨states, plainly, statesKnown, rfl⟩
    rw [← List.length_map (Prod.map (State.relabel resolvers) id)] at inside
    have written : behaviour resolvers name attributes _ _ := .intro inside startFits priorityFits
      unknownFits setupFormat links ((jumpsInside states).mpr jumps)
    rw [Option.isSome_map, shown] at written
    exact written

/-! ### Whole scripts -/

/-- The name of a behaviour and the attributes in front of its own are no part of its bytes. -/
theorem behaviour.renamed {name : String} {attributes : List Attribute} {bytes : Bytes}
    {content : Behaviour} (formatted : behaviour resolvers name attributes bytes content) :
    ∃ own, content.name = name ∧ content.attributes = attributes ++ own ∧
      (∀ attr ∈ own, attr.kind.globalIndex? = none) ∧
      ∀ other others, behaviour resolvers other others bytes
        { content with name := other, attributes := others ++ own } := by
  obtain @⟨start, priority, unknown, setup, states, setupBytes, stateBytes, inside, startFits,
    priorityFits, unknownFits, setupFormat, links, jumps⟩ := formatted
  refine ⟨[attr (.priority (number priority)), attr (.startFrom (Decode.stateName start))]
    ++ Decode.unknownAttribute unknown, rfl, List.append_assoc .., ?_, fun other others => ?_⟩
  · unfold Decode.unknownAttribute
    split <;> simp [attr, Attribute.Kind.globalIndex?]
  · rw [← List.append_assoc]
    exact .intro inside startFits priorityFits unknownFits setupFormat links jumps

theorem graphIdentifier_eq_ok_iff {id : Int} {identifier? : Option String} :
    resolvers.graphIdentifier id = .ok identifier? ↔
      resolvers.Knows .graph id ∧ (resolvers.label .graph id).symbol? = identifier? := by
  unfold graphIdentifier
  split
  · next missing =>
    have none : resolvers.get? .graph = none := Option.isNone_iff_eq_none.mp missing
    obtain ⟨known, written⟩ := reference_eq_ok_iff_label.mp (@reference_of_none _ _ id none)
    rw [written, Except.ok.injEq]
    exact (and_iff_right known).symm
  · cases found : resolvers.reference .graph id with
    | ok reference =>
      obtain ⟨known, rfl⟩ := reference_eq_ok_iff_label.mp found
      rw [and_iff_right known]
      cases resolvers.label .graph id <;> exact ⟨Except.ok.inj, congrArg _⟩
    | error error =>
      refine iff_of_false (by simp) fun both => ?_
      rw [reference_eq_ok_iff_label.mpr ⟨both.1, rfl⟩] at found
      cases found

/-- What a behaviour of a library is called and the attribute that tells its ID, by the identifier
that the host has for it, if any. -/
def entryShell (id : Nat) : Option String → String × List Attribute
  | some name => (name, [])
  | none => (ItemKind.behaviour.fallbackName id, [attr (.globalIndex (number id))])

/-- A behaviour of a library gets its name and its attribute from what the host writes for its
ID. -/
theorem entryName_eq_ok_iff {id : Nat} {shell : String × List Attribute} :
    Decode.entryName resolvers id = .ok shell ↔
      resolvers.Knows .graph id ∧ entryShell id (resolvers.label .graph id).symbol? = shell := by
  unfold Decode.entryName
  simp only [Outcome.bind_eq_ok, Outcome.ofResolution_eq_ok, graphIdentifier_eq_ok_iff]
  constructor
  · rintro ⟨_, ⟨known, rfl⟩, given⟩
    refine ⟨known, ?_⟩
    revert given
    cases (resolvers.label .graph id).symbol? <;> exact Except.ok.inj
  · rintro ⟨known, rfl⟩
    refine ⟨_, ⟨known, rfl⟩, ?_⟩
    cases (resolvers.label .graph id).symbol? <;> rfl

theorem entryName_numbersOnly (id : Nat) :
    Decode.entryName .numbersOnly id = .ok (entryShell id none) := rfl

/-- A behaviour that tells its ID is called as the host says, and all but its name and that
attribute stay. -/
theorem relabelEntry_eq {content : Behaviour} {id : Nat} {own : List Attribute}
    (name : content.name = (entryShell id none).1)
    (attributes : content.attributes = (entryShell id none).2 ++ own)
    (plain : ∀ attr ∈ own, attr.kind.globalIndex? = none) :
    content.graphId? = some (id : Int) ∧
      content.relabelEntry resolvers =
        { content.relabel resolvers with
          name := (entryShell id (resolvers.label .graph id).symbol?).1
          attributes := (entryShell id (resolvers.label .graph id).symbol?).2 ++ own } := by
  have found : content.graphId? = some (id : Int) := by
    unfold Behaviour.graphId?
    rw [attributes]
    rfl
  refine ⟨found, ?_⟩
  unfold Behaviour.relabelEntry
  rw [found, Option.bind_some, attributes]
  cases (resolvers.label .graph id).symbol? with
  | none =>
    show _ = ({ content.relabel resolvers with name := _, attributes := _ } : Behaviour)
    rw [← name, ← attributes]
    rfl
  | some symbol =>
    have kept : own.filter (fun attr => attr.kind.globalIndex?.isNone) = own :=
      List.filter_eq_self.mpr fun attr member => by rw [plain attr member]; rfl
    show ({ content.relabel resolvers with name := _, attributes := own.filter _ } : Behaviour) = _
    rw [kept]
    rfl

/-- The IDs of a behaviour of a library: that of its graph, and those in it. -/
theorem entry_changes : Changes (entry .numbersOnly)
    (fun given => resolvers.KnowsAll
      (given.2.graphId?.toList.map (Capability.graph, ·) ++ given.2.ids))
    (Prod.map id (Behaviour.relabelEntry resolvers)) (entry resolvers) := by
  have parts {content : Behaviour} {id : Nat} (found : content.graphId? = some (id : Int)) :
      resolvers.KnowsAll (content.graphId?.toList.map (Capability.graph, ·) ++ content.ids) ↔
        resolvers.Knows .graph id ∧ resolvers.KnowsAll content.ids := by
    rw [found, knowsAll_append]
    exact and_congr_left' knowsAll_singleton
  intro bytes value
  constructor
  · rintro @⟨id, name, attributes, content, bytes, fits, short, named, formatted⟩
    obtain ⟨graphKnown, shell⟩ := entryName_eq_ok_iff.mp named
    obtain ⟨given, plainly, known, rfl⟩ := (behaviour_changes _ _ _ _).mp formatted
    obtain ⟨own, sameName, sameAttributes, plain, renamed⟩ := plainly.renamed
    obtain ⟨found, relabelled⟩ := @relabelEntry_eq resolvers
      { given with name := (entryShell id none).1, attributes := (entryShell id none).2 ++ own } id
      own rfl rfl plain
    refine ⟨(id, _), .intro fits short (entryName_numbersOnly id) (renamed _ _),
      (parts found).mpr ⟨graphKnown, known⟩, congrArg (Prod.mk id) (relabelled.trans ?_)⟩
    rw [shell, ← sameName, ← sameAttributes]
    rfl
  · rintro ⟨_, @⟨id, name, attributes, content, bytes, fits, short, named, formatted⟩, known, rfl⟩
    rw [entryName_numbersOnly] at named
    cases named
    obtain ⟨own, sameName, sameAttributes, plain, renamed⟩ := formatted.renamed
    obtain ⟨found, relabelled⟩ := @relabelEntry_eq resolvers content id own sameName
      sameAttributes plain
    obtain ⟨graphKnown, inside⟩ := (parts found).mp known
    have changed (shell : String × List Attribute) :=
      (behaviour_changes shell.1 shell.2 _ _).mpr ⟨_, renamed shell.1 shell.2, inside, rfl⟩
    have written : entry resolvers _ (id, _) :=
      .intro fits short (entryName_eq_ok_iff.mpr ⟨graphKnown, rfl⟩) (changed _)
    show entry resolvers _ (id, content.relabelEntry resolvers)
    rw [relabelled]
    exact written

/-- A library is read with names if every ID in it is known. -/
theorem library_changes (name : String) : Changes (library .numbersOnly name)
    (fun given => resolvers.KnowsAll (Script.library given).ids)
    (fun given => { given with
      behaviours := given.behaviours.map (Behaviour.relabelEntry resolvers) })
    (library resolvers name) := by
  intro bytes value
  have shown (entries : List (Nat × Behaviour)) :
      (entries.map (Prod.map id (Behaviour.relabelEntry resolvers))).map Prod.snd =
        (entries.map Prod.snd).map (Behaviour.relabelEntry resolvers) := by
    rw [List.map_map, List.map_map]
    rfl
  have parts (entries : List (Nat × Behaviour)) (name : String) (attributes : List Attribute) :
      resolvers.KnowsAll
          (Script.library ⟨attributes, name, [], entries.map Prod.snd, .dummy⟩).ids ↔
        ∀ entry ∈ entries, resolvers.KnowsAll
          (entry.2.graphId?.toList.map (Capability.graph, ·) ++ entry.2.ids) := by
    rw [Script.ids, knowsAll_flatMap, List.forall_mem_map]
  constructor
  · rintro ⟨few, small, rows⟩
    obtain ⟨entries, plainly, known, rfl⟩ := (entry_changes.rows _ _).mp rows
    rw [List.length_map] at few ⊢
    rw [shown]
    exact ⟨_, .intro few small plainly, (parts _ _ _).mpr known, rfl⟩
  · rintro ⟨_, @⟨unknown, entries, bytes, few, small, plainly⟩, known, rfl⟩
    have rows := (entry_changes.rows _ _).mpr ⟨entries, plainly, (parts _ _ _).mp known, rfl⟩
    rw [← List.length_map (Prod.map id (Behaviour.relabelEntry resolvers))] at few ⊢
    have written : library resolvers name _ _ := .intro few small rows
    rw [shown] at written
    exact written

theorem pack_changes : Changes (pack .numbersOnly) (fun given => resolvers.KnowsAll given.ids)
    (CommandPack.relabel resolvers) (pack resolvers) := by
  intro bytes value
  constructor
  · rintro ⟨row, fits, found⟩
    obtain ⟨known, rfl⟩ := reference_eq_ok_iff_label.mp found
    exact ⟨_, .intro row fits (reference_numbersOnly _ _), knowsAll_singleton.mpr known, rfl⟩
  · rintro ⟨given, ⟨row, fits, found⟩, known, rfl⟩
    rw [reference_numbersOnly] at found
    cases found
    exact .intro row fits (reference_eq_ok_iff_label.mpr ⟨knowsAll_singleton.mp known, rfl⟩)

/-- A sequence is read with names if the scripts of its packs are known. -/
theorem sequence_changes (name : String) : Changes (sequence .numbersOnly name)
    (fun given => resolvers.KnowsAll (Script.sequence given).ids)
    (fun given => { given with packs := given.packs.map (CommandPack.relabel resolvers) })
    (sequence resolvers name) := by
  intro bytes value
  constructor
  · rintro ⟨typeFits, indexFits, unknownFits, few, rows, row⟩
    obtain ⟨packs, plainly, known, rfl⟩ := (pack_changes.rows _ _).mp rows
    rw [List.length_map] at few ⊢
    exact ⟨_, .intro typeFits indexFits unknownFits few plainly row, knowsAll_flatMap.mpr known, rfl⟩
  · rintro ⟨_, @⟨instanceType, globalIndex, unknown, packs, commands, packBytes, rowBytes, typeFits,
      indexFits, unknownFits, few, plainly, row⟩, known, rfl⟩
    have rows := (pack_changes.rows _ _).mpr ⟨packs, plainly, knowsAll_flatMap.mp known, rfl⟩
    rw [← List.length_map (CommandPack.relabel resolvers)] at few ⊢
    exact .intro typeFits indexFits unknownFits few rows row

/-- A script is read with names if every ID in it is known, and is then the plain one
relabelled. -/
theorem script_changes (name : String) (kind : ItemKind) : Changes (script .numbersOnly name kind)
    (fun given => resolvers.KnowsAll given.ids) (Script.relabel resolvers)
    (script resolvers name kind) := by
  intro bytes value
  constructor
  · rintro (formatted | formatted | formatted)
    · obtain ⟨content, plainly, known, rfl⟩ := (library_changes name _ _).mp formatted
      exact ⟨_, .library plainly, known, rfl⟩
    · obtain ⟨content, plainly, known, rfl⟩ := (behaviour_changes name [] _ _).mp formatted
      exact ⟨_, .behaviour plainly, known, rfl⟩
    · obtain ⟨content, plainly, known, rfl⟩ := (sequence_changes name _ _).mp formatted
      exact ⟨_, .sequence plainly, known, rfl⟩
  · rintro ⟨_, plainly | plainly | plainly, known, rfl⟩
    · exact .library ((library_changes name _ _).mpr ⟨_, plainly, known, rfl⟩)
    · exact .behaviour ((behaviour_changes name [] _ _).mpr ⟨_, plainly, known, rfl⟩)
    · exact .sequence ((sequence_changes name _ _).mpr ⟨_, plainly, known, rfl⟩)

end Format

/-- Bytes decode with the names of a host exactly if they decode without names and the host knows
every ID in them that it has names for; and to the same script, with the names put in. The IDs are
found in the bytes by a walk that neither the host nor the decoding has a part in, and they are
those of the script without names. -/
theorem decode_eq_ok_iff_relabel {kind : ItemKind} {bytes : Bytes} {name : String}
    {resolvers : DecompileResolvers} {script : Script} :
    decode kind bytes name resolvers = .ok script ↔
      ∃ plain, decode kind bytes name .numbersOnly = .ok plain ∧
        plain.ids = Walk.assets kind bytes ∧ resolvers.KnowsAll (Walk.assets kind bytes) ∧
        plain.relabel resolvers = script := by
  rw [decode_eq_ok_iff, Format.script_changes name kind bytes script]
  simp only [decode_eq_ok_iff]
  constructor
  · rintro ⟨identifier, plain, formatted, known, same⟩
    have found := Walk.assets_eq formatted
    exact ⟨plain, ⟨identifier, formatted⟩, found.symm, found ▸ known, same⟩
  · rintro ⟨plain, ⟨identifier, formatted⟩, found, known, same⟩
    exact ⟨identifier, plain, formatted, found ▸ known, same⟩

/-- A library of one behaviour, whose one state runs a graph. -/
def gatePost : Bytes := [1, 0, 0, 0, 2, 0, 0, 0, 8, 0, 0, 0, 0, 0, 0, 0, 0, 0, 7, 0]

/-- A host that has names for both graphs. -/
def gateNames : DecompileResolvers where
  graphs := some fun id => if id = 2 then some "Gate" else none
  stateGraphs := some fun id => if id = 7 then some "Open" else none

/-- The library with a name and attributes for its behaviour and a reference for its graph. -/
def namedGate (name : String) (attributes : List Attribute) (graph : Reference) : Script :=
  .library {
    attributes := []
    name := "Posts"
    consts := []
    behaviours := [{
      attributes := attributes ++ [attr (.priority (number 0)), attr (.startFrom "State_0")]
      name := name
      consts := []
      starter := none
      states := [⟨[], "State_0", some graph, [], .dummy⟩]
      span := .dummy }]
    span := .dummy }

theorem decode_eq_ok_iff_relabel_gate :
    decode .library gatePost "Posts" .numbersOnly =
        .ok (namedGate "Behaviour_2" [attr (.globalIndex (number 2))] (.literal 7)) ∧
      Walk.assets .library gatePost = [(.graph, 2), (.stateGraph, 7)] ∧
      decode .library gatePost "Posts" gateNames = .ok (namedGate "Gate" [] (.symbol "Open")) := by
  have plain : decode .library gatePost "Posts" .numbersOnly =
      .ok (namedGate "Behaviour_2" [attr (.globalIndex (number 2))] (.literal 7)) := by
    decide +kernel
  have found : Walk.assets .library gatePost = [(.graph, 2), (.stateGraph, 7)] := by
    decide +kernel
  have known : gateNames.KnowsAll (Walk.assets .library gatePost) := by
    rw [found, DecompileResolvers.KnowsAll, List.forall_mem_cons, List.forall_mem_singleton]
    constructor
    · rintro _ ⟨⟩
      exact ⟨"Gate", _, rfl, .identifier (by decide +kernel)⟩
    · rintro _ ⟨⟩
      exact ⟨"Open", _, rfl, .identifier (by decide +kernel)⟩
  exact ⟨plain, found, decode_eq_ok_iff_relabel.mpr ⟨_, plain, found.symm ▸ rfl, known, rfl⟩⟩

end BehaviourScript
