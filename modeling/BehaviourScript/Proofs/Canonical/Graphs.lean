/-
This file goes on from bodies to states, to the assigners of a starter, and to
whole behaviours: what the encoder writes for each of them is the binary format
of its canonical form. Jumps and starts are places among the states of the
behaviour, and the analysis has seen that they are there.
-/

import BehaviourScript.Proofs.Canonical.Attributes

namespace BehaviourScript

open Outcome

namespace Encode

variable {env : Env} {resolvers : CompileResolvers}

/-! ### States -/

theorem usesObjectSlot_eq (content : State) :
    content.usesObjectSlot =
      (Canonical.pick Attribute.Kind.useObjectSlot? content.attributes).isSome := by
  unfold State.usesObjectSlot Canonical.pick
  rw [List.isSome_findSome?]
  refine congrArg (List.any _) (funext fun attr => ?_)
  cases attr.kind <;> rfl

/-- What is written for the target of a state is of the format. -/
theorem stateTarget_formatted {content : State} {slot : Option Int}
    (apart : ¬(slot.isSome = true ∧ content.target.isSome = true)) {word : Int}
    (emitted : stateTarget resolvers slot content = .ok word) :
    Format.target .numbersOnly slot.isSome word
      (slot.toList.map fun slot => Decode.attr (.useObjectSlot (Decode.number slot)))
      (content.target.map fun reference => .literal (resolvers.idOf .stateGraph reference)) := by
  unfold stateTarget at emitted
  cases slot with
  | some slot =>
    cases target : content.target with
    | some reference => exact absurd ⟨rfl, target ▸ rfl⟩ apart
    | none =>
      obtain ⟨fits, rfl⟩ := Quantity.fit_eq_ok.mp emitted
      have bounds := Quantity.holds_iff.mp fits
      exact .slot bounds.1 bounds.2
  | none =>
    cases target : content.target with
    | some reference =>
      rw [target] at emitted
      simp only [bind_eq_ok, ofResolution_eq_ok] at emitted
      obtain ⟨id, found, fitted⟩ := emitted
      obtain ⟨fits, rfl⟩ := Quantity.fit_eq_ok.mp fitted
      have bounds := Quantity.holds_iff.mp fits
      rw [Option.map_some, CompileResolvers.idOf_eq found]
      exact .graph bounds.1 bounds.2 rfl
    | none =>
      rw [target] at emitted
      cases emitted
      exact .nothing

/-- The places of the states that a state jumps to. -/
def jumps (states : List State) (content : State) : List Nat :=
  content.bodies.filterMap fun body => body.jump.map (Canonical.place states)

theorem place_lt {states : List State} {name : String} (member : name ∈ states.map State.name) :
    Canonical.place states name < states.length := by
  obtain ⟨state, inStates, rfl⟩ := List.mem_map.mp member
  exact List.findIdx_lt_length_of_exists ⟨state, inStates, beq_self_eq_true _⟩

/-- The jumps of a state that passes the checks lead to states. -/
theorem jumps_lt {states : List State} {content : State}
    (passes : env.checkState (states.map State.name) content = .ok ()) :
    ∀ target ∈ jumps states content, target < states.length := by
  intro target member
  obtain ⟨body, inBodies, jumped⟩ := List.mem_filterMap.mp member
  obtain ⟨name, jump, rfl⟩ := Option.map_eq_some_iff.mp jumped
  have checked := (Env.checkState_eq_ok.mp passes).2.2 body inBodies
  exact place_lt ((Env.checkBody_eq_ok.mp checked).2.2 name jump)

theorem stateAttributes_eq (env : Env) (attributes : List Attribute) :
    Canonical.stateAttributes env attributes =
      (((Canonical.pick Attribute.Kind.useObjectSlot? attributes).map env.value).toList.map
        fun slot => Decode.attr (.useObjectSlot (Decode.number slot)))
      ++ Format.stateAttributes
        ((Canonical.pick Attribute.Kind.controlPacket? attributes).map (Canonical.controlPacket env))
        (attributes.any (·.kind = .nonBlocking)) (attributes.any (·.kind = .skipFirstBody)) := by
  unfold Canonical.stateAttributes Format.stateAttributes
  rw [Option.toList_map, Option.toList_map, List.map_map, List.map_map, List.append_assoc,
    List.append_assoc, List.append_assoc]
  rfl

/-- What is written for a state is of the format. -/
theorem state_formatted {states : List State} (few : states.length ≤ Decode.stateLimit)
    {index : Nat} (inside : index < Decode.stateLimit) {hasNext : Bool} {content : State}
    (passes : env.checkState (states.map State.name) content = .ok ()) {bytes : Bytes}
    (emitted : state resolvers env states hasNext content = .ok bytes) :
    Format.state .numbersOnly index bytes
      ((Canonical.state env resolvers states index content, jumps states content), hasNext) := by
  obtain ⟨attributesPass, apart, _⟩ := Env.checkState_eq_ok.mp passes
  rw [state_eq] at emitted
  simp only [bind_eq_ok, pure_eq_ok] at emitted
  obtain ⟨count, fitted, settings, run, word, targeted, packetBytes, packetEmitted, parts,
    bodiesEmitted, rfl⟩ := emitted
  obtain ⟨fewBodies, rfl⟩ := Quantity.fit_eq_ok.mp fitted
  have settled := stateSettings_eq (Env.checkAttributes_eq_ok.mp attributesPass).1 run
  subst settled
  have packet := optional_formatted (fun packet picked _ =>
    controlPacket_formatted
      (Env.checkControlPacket_eq_ok.mp (checkControlPacket_of_pick attributesPass picked)).1.1)
    packetEmitted
  have target := stateTarget_formatted (by
    rw [usesObjectSlot_eq] at apart
    rwa [Option.isSome_map]) targeted
  have bodies := rows_formatted (fun _ _ _ => body_formatted few) (mapM_eq_ok.mp bodiesEmitted)
  have written : Format.state .numbersOnly index _ ((⟨_ ++ Format.stateAttributes _
      (content.attributes.any (·.kind = .nonBlocking))
      (content.attributes.any (·.kind = .skipFirstBody)), _, _, _, _⟩, _), hasNext) :=
    .intro (Nat.ne_of_lt inside) target packet bodies (by
      rw [List.length_map]
      exact Int.ofNat_le.mp (Quantity.holds_iff.mp fewBodies).2)
  rw [List.length_map, Option.isSome_map (f := Canonical.controlPacket env), List.map_map,
    List.filterMap_map, ← stateAttributes_eq] at written
  exact written

/-- What is written for a row of states is a chain of the format. -/
theorem states_formatted {all : List State} (few : all.length ≤ Decode.stateLimit) {index : Nat}
    {row : List State} (inside : index + row.length ≤ Decode.stateLimit)
    (passes : ∀ content ∈ row, env.checkState (all.map State.name) content = .ok ())
    {bytes : Bytes} (emitted : states resolvers env all row = .ok bytes) :
    Format.Links (Format.state .numbersOnly) index bytes (row.mapIdx fun position content =>
      (Canonical.state env resolvers all (index + position) content, jumps all content)) := by
  induction row generalizing index bytes with
  | nil =>
    cases emitted
    exact .nil
  | cons first rest inductionHypothesis =>
    unfold states at emitted
    simp only [bind_eq_ok, pure_eq_ok] at emitted
    obtain ⟨head, headEmitted, tail, tailEmitted, rfl⟩ := emitted
    rw [List.length_cons] at inside
    rw [List.forall_mem_cons] at passes
    have behind := @inductionHypothesis (index + 1) (by omega) passes.2 tail tailEmitted
    simp only [Nat.add_right_comm index 1] at behind
    rw [List.mapIdx_cons]
    refine .cons ?_ behind
    have same {β : Type} (image : Nat → State → β) : (rest.mapIdx image).isEmpty = rest.isEmpty := by
      rw [Bool.eq_iff_iff, List.isEmpty_iff, List.isEmpty_iff, List.mapIdx_eq_nil_iff]
    rw [same]
    exact state_formatted few (by omega) passes.1 headEmitted

/-! ### Starters -/

/-- The fields of an assigner with their nibbles. -/
abbrev fieldNibbles : List (String × Layout.Field) :=
  Catalogue.assignerFields.zip Layout.Assigner.nibbles

theorem mem_of_nibble {name : String} {nibble : Layout.Field}
    (known : assignerNibble? name = some nibble) : (name, nibble) ∈ fieldNibbles :=
  Assoc.mem_of_get? known

theorem nibble_of_mem : ∀ entry ∈ fieldNibbles, assignerNibble? entry.1 = some entry.2 := by
  decide

/-- The nibbles of different fields do not overlap. -/
theorem nibbles_apart : ∀ first ∈ fieldNibbles, ∀ second ∈ fieldNibbles,
    first.1 ≠ second.1 → first.2.Apart second.2 := by
  decide

theorem nibble_max : ∀ entry ∈ fieldNibbles, entry.2.max = 15 ∧ entry.2.Inside 16 := by
  decide

theorem assignerField_value {field : Assign} {entry : Layout.Field × Nat}
    (emitted : assignerField env field = .ok entry) :
    (field.name, entry.1) ∈ fieldNibbles ∧ env.value field.value = entry.2 ∧ entry.2 ≤ 15 := by
  unfold assignerField at emitted
  cases known : assignerNibble? field.name with
  | none =>
    rw [known] at emitted
    exact nomatch emitted
  | some nibble =>
    rw [known] at emitted
    simp only [bind_eq_ok, pure_eq_ok] at emitted
    obtain ⟨value, measured, rfl⟩ := emitted
    obtain ⟨same, fits⟩ := Quantity.measure_value measured
    have bounds : 0 ≤ value ∧ value ≤ 15 := Quantity.holds_iff.mp fits
    exact ⟨mem_of_nibble known, by rw [same]; omega, by omega⟩

/-- Each nibble holds the value of its field, or zero. -/
theorem get_pack_fields {fields : List Assign} {entries : List (Layout.Field × Nat)}
    (emitted : List.Forall₂ (fun field entry => assignerField env field = .ok entry) fields entries)
    (distinct : (fields.map Assign.name).Nodup) {name : String} {nibble : Layout.Field}
    (known : (name, nibble) ∈ fieldNibbles) :
    (Canonical.assigned env fields name).getD 0 = nibble.get (Layout.pack entries) := by
  induction emitted with
  | nil =>
    rw [Layout.get_pack_of_apart fun _ member => absurd member List.not_mem_nil]
    rfl
  | @cons field entry fields entries first others inductionHypothesis =>
    obtain ⟨held, same, small⟩ := assignerField_value first
    rw [List.map_cons, List.nodup_cons] at distinct
    have behind := inductionHypothesis distinct.2
    rw [Layout.get_pack_cons]
    by_cases equal : field.name = name
    · have place : entry.1 = nibble := by
        have here := nibble_of_mem _ held
        rw [equal, nibble_of_mem _ known] at here
        exact (Option.some.inj here).symm
      subst place
      obtain ⟨greatest, inside⟩ := nibble_max _ held
      have own : entry.1.get (Layout.pack [entry]) = entry.2 :=
        Layout.get_pack (List.pairwise_singleton ..) List.mem_cons_self
          (Nat.le_trans inside (by decide)) (greatest ▸ small)
      have none : entry.1.get (Layout.pack entries) = 0 := by
        rw [Canonical.assigned_eq_none env (equal ▸ distinct.1)] at behind
        exact (Int.ofNat.inj behind).symm
      rw [Canonical.assigned_cons_self env equal, own, none, Nat.or_zero]
      exact same
    · have none : nibble.get (Layout.pack [entry]) = 0 := by
        refine Layout.get_pack_of_apart fun other member => ?_
        rw [List.mem_singleton.mp member]
        exact nibbles_apart _ held _ known equal
      rw [Canonical.assigned_cons_other env equal, behind, none, Nat.zero_or]

/-- The fields that are read back are those whose values are not zero. -/
theorem assignerFields_eq {fields : List Assign} {entries : List (Layout.Field × Nat)}
    (emitted : List.Forall₂ (fun field entry => assignerField env field = .ok entry) fields entries)
    (distinct : (fields.map Assign.name).Nodup) :
    Decode.assignerFields (Layout.pack entries) =
      Catalogue.assignerFields.filterMap fun name =>
        ((Canonical.assigned env fields name).filter (· ≠ 0)).map fun value =>
          ⟨name, Decode.number value, .dummy⟩ := by
  have names : Catalogue.assignerFields = fieldNibbles.map Prod.fst := rfl
  unfold Decode.assignerFields
  rw [names, List.filterMap_map]
  refine List.filterMap_congr fun ⟨name, nibble⟩ member => ?_
  have held := get_pack_fields emitted distinct member
  dsimp only [Function.comp_apply]
  cases given : Canonical.assigned env fields name with
  | none =>
    rw [given] at held
    rw [if_pos (Int.ofNat.inj held).symm]
    rfl
  | some value =>
    rw [given] at held
    have same : value = nibble.get (Layout.pack entries) := held
    rw [Option.filter_some, same]
    by_cases zero : nibble.get (Layout.pack entries) = 0
    · simp [zero]
    · simp [zero]

theorem inside_of_fields {fields : List Assign} {entries : List (Layout.Field × Nat)}
    (emitted : List.Forall₂ (fun field entry => assignerField env field = .ok entry)
      fields entries) : ∀ entry ∈ entries, entry.1.Inside 16 := by
  induction emitted with
  | nil => exact nofun
  | cons first _ inductionHypothesis =>
    have here := nibble_max _ (assignerField_value first).1
    exact List.forall_mem_cons.mpr ⟨here.2, inductionHypothesis⟩

/-- An assigner is written with the fields packed, whether or not names are given twice. -/
theorem assigner_packed {content : Assigner} {bytes : Bytes}
    (emitted : assigner resolvers env content = .ok bytes) :
    ∃ entries, List.Forall₂ (fun field entry => assignerField env field = .ok entry)
        content.fields entries ∧
      Format.assigner .numbersOnly bytes ⟨.literal (resolvers.idOf .globalObject content.object),
        Decode.assignerFields (Layout.pack entries), .dummy⟩ := by
  unfold assigner at emitted
  simp only [bind_eq_ok, pure_eq_ok, ofResolution_eq_ok] at emitted
  obtain ⟨id, found, object, fitted, entries, fields, rfl⟩ := emitted
  obtain ⟨fits, rfl⟩ := Quantity.fit_eq_ok.mp fitted
  have fields := mapM_eq_ok.mp fields
  have small : Layout.pack entries < IntFormat.u16.modulus :=
    Layout.pack_lt (inside_of_fields fields)
  rw [CompileResolvers.idOf_eq found]
  exact ⟨entries, fields, .intro fits rfl small⟩

/-- What is written for an assigner is of the format. -/
theorem assigner_formatted {content : Assigner} (passes : env.checkAssigner content = .ok ())
    {bytes : Bytes} (emitted : assigner resolvers env content = .ok bytes) :
    Format.assigner .numbersOnly bytes (Canonical.assigner env resolvers content) := by
  obtain ⟨entries, fields, written⟩ := assigner_packed emitted
  rw [assignerFields_eq fields (Env.checkAssigner_eq_ok.mp passes).1] at written
  exact written

theorem starter_formatted {content : Starter}
    (passes : ∀ assigner ∈ content.assigners, env.checkAssigner assigner = .ok ())
    {bytes : Bytes} (emitted : starter resolvers env content = .ok bytes) :
    Format.starter .numbersOnly bytes (Canonical.starter env resolvers content) := by
  unfold starter at emitted
  simp only [bind_eq_ok, pure_eq_ok] at emitted
  obtain ⟨count, fitted, parts, emitted, rfl⟩ := emitted
  obtain ⟨few, rfl⟩ := Quantity.fit_eq_ok.mp fitted
  have rows := rows_formatted (fun content member _ => assigner_formatted (passes content member))
    (mapM_eq_ok.mp emitted)
  have written := Format.starter.intro (by
    rw [List.length_map]
    exact (IntFormat.le_max_iff rfl).mp (Quantity.holds_iff.mp few).2) rows
  rw [List.length_map] at written
  exact written

/-! ### Behaviours -/

theorem unknownAttribute_eq {attributes : List Attribute} {value : Nat}
    (picked : Canonical.pickValue env Attribute.Kind.unknown? attributes = value) :
    Decode.unknownAttribute value = Canonical.unknown env attributes := by
  unfold Decode.unknownAttribute Canonical.unknown
  rw [picked]
  exact if_congr Int.ofNat_inj.symm rfl rfl

/-- What is written for a behaviour is of the format. -/
theorem behaviour_formatted {placement : Placement} {content : Behaviour}
    (nonempty : content.states ≠ []) (passes : env.checkBehaviour placement content = .ok ())
    {bytes : Bytes} (emitted : behaviour resolvers env content = .ok bytes) (name : String)
    (attributes : List Attribute) :
    Format.behaviour .numbersOnly name attributes bytes
      (Canonical.behaviour env resolvers name attributes content) := by
  obtain ⟨attributesPass, _, _, assignersPass, statesPass⟩ := Env.checkBehaviour_eq_ok.mp passes
  rw [behaviour_eq] at emitted
  simp only [bind_eq_ok, pure_eq_ok] at emitted
  obtain ⟨_, fitted, settings, run, setupBytes, setupEmitted, stateBytes, statesEmitted, rfl⟩ :=
    emitted
  have few : content.states.length ≤ Decode.stateLimit :=
    Int.ofNat_le.mp (Quantity.holds_iff.mp (Quantity.fit_eq_ok.mp fitted).1).2
  obtain ⟨⟨start, inside⟩, ⟨priority, lowPriority⟩, unknown, lowUnknown⟩ :=
    graphSettings_picked (Env.checkAttributes_eq_ok.mp attributesPass).1 nonempty run
  have setup := optional_formatted (fun setup given _ => starter_formatted
    (assignersPass setup given)) setupEmitted
  have fromZero : 0 + content.states.length ≤ Decode.stateLimit := by rwa [Nat.zero_add]
  have rows := states_formatted few fromZero statesPass statesEmitted
  simp only [Nat.zero_add] at rows
  have near : ∀ entry ∈ content.states.mapIdx fun position state =>
      (Canonical.state env resolvers content.states position state, jumps content.states state),
      ∀ target ∈ entry.2, target < content.states.length := by
    intro entry member
    obtain ⟨position, within, rfl⟩ := List.mem_mapIdx.mp member
    exact jumps_lt (statesPass _ (List.getElem_mem within))
  have records : (content.states.mapIdx fun position state =>
      (Canonical.state env resolvers content.states position state,
        jumps content.states state)).map Prod.fst =
      content.states.mapIdx (Canonical.state env resolvers content.states) := by
    refine List.ext_getElem? fun position => ?_
    rw [List.getElem?_map, List.getElem?_mapIdx, List.getElem?_mapIdx, Option.map_map]
    rfl
  have starting : settings.startState ≤ Layout.Graph.startState.max :=
    Nat.le_of_lt_succ (Nat.lt_of_lt_of_le inside few)
  have written : Format.behaviour .numbersOnly name attributes _ _ :=
    .intro (by rwa [List.length_mapIdx]) starting lowPriority lowUnknown setup rows
      (by rwa [List.length_mapIdx])
  rw [records, Option.isSome_map, unknownAttribute_eq unknown] at written
  unfold Canonical.behaviour
  rw [start, priority]
  exact written

end Encode

end BehaviourScript
