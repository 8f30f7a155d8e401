/-
This file shows that the encoder needs no analysis to write a binary that can be
decoded. A script that was only read may give attributes, states, settings and
fields twice or in the wrong place. That decides what is written, but whatever is
written is the binary format of some script: every number is checked against its
place on the way, and jumps and starts are looked up among the states.
-/

import BehaviourScript.Proofs.Compilation
import BehaviourScript.Proofs.Likeness.Form

namespace BehaviourScript

open Outcome

/-! ### Taking in attributes -/

/-- What holds of a part whenever an attribute decides it goes on to hold. -/
theorem Taken.keeps {γ δ : Type} {Given : γ → δ → Prop} {picked : Option γ} {before after : δ}
    (taken : Taken Given picked before after) {Good : δ → Prop}
    (each : ∀ {value held}, Given value held → Good held) (good : Good before) : Good after := by
  cases taken with
  | kept => exact good
  | given decided => exact each decided

theorem foldlM_keeps {σ : Type} {step : σ → Attribute → Outcome σ} {attributes : List Attribute}
    {first last : σ} {Good : σ → Prop}
    (each : ∀ {settings next attr}, step settings attr = .ok next → Good settings → Good next)
    (good : Good first) (run : attributes.foldlM step first = .ok last) : Good last := by
  induction attributes generalizing first with
  | nil =>
    cases run
    exact good
  | cons attr rest inductionHypothesis =>
    rw [List.foldlM_cons, bind_eq_ok] at run
    obtain ⟨next, stepped, others⟩ := run
    exact inductionHypothesis (each stepped good) others

namespace Encode

variable {env : Env} {resolvers : CompileResolvers} {table : SymbolTable}

/-! ### Parts and rows -/

theorem exists_optional {α β : Type} {write : α → Outcome Bytes} {format : Format β}
    {part : Option α}
    (each : ∀ {value bytes}, write value = .ok bytes → ∃ read, format bytes read)
    {bytes : Bytes} (emitted : optional write part = .ok bytes) :
    ∃ read : Option β, read.isSome = part.isSome ∧ format.Optional bytes read := by
  cases part with
  | none =>
    cases emitted
    exact ⟨none, rfl, .absent⟩
  | some value =>
    obtain ⟨read, written⟩ := each emitted
    exact ⟨some read, rfl, .present written⟩

theorem exists_rows {α β : Type} {write : α → Outcome Bytes} {format : Format β} {row : List α}
    (each : ∀ {value bytes}, write value = .ok bytes → ∃ read, format bytes read)
    {parts : List Bytes}
    (emitted : List.Forall₂ (fun value bytes => write value = .ok bytes) row parts) :
    ∃ read, read.length = row.length ∧ format.Rows parts.flatten read := by
  induction emitted with
  | nil => exact ⟨[], rfl, .nil⟩
  | cons first _ inductionHypothesis =>
    obtain ⟨value, written⟩ := each first
    obtain ⟨others, length, behind⟩ := inductionHypothesis
    exact ⟨value :: others, congrArg (· + 1) length, .cons written behind⟩

/-! ### States -/

/-- An object slot counts before a graph. -/
theorem exists_stateTarget {content : State} {slot : Option Int} {word : Int}
    (emitted : stateTarget resolvers slot content = .ok word) :
    ∃ attributes reference,
      Format.target .numbersOnly slot.isSome word attributes reference := by
  cases slot with
  | some slot =>
    obtain ⟨fits, rfl⟩ := Quantity.fit_eq_ok.mp emitted
    have bounds := Quantity.holds_iff.mp fits
    exact ⟨_, _, .slot bounds.1 bounds.2⟩
  | none => exact ⟨_, _, stateTarget_formatted (fun both => by cases both.1) emitted⟩

theorem body_target_lt {states : List State} {content : StateBody} {bytes : Bytes}
    (emitted : body env states content = .ok bytes) :
    ∀ name ∈ content.jump, Canonical.place states name < states.length := by
  intro name given
  rw [body_eq, bind_eq_ok] at emitted
  obtain ⟨word, found, _⟩ := emitted
  unfold jump at found
  rw [given] at found
  simp only [map_eq_pure_bind, bind_eq_ok] at found
  obtain ⟨index, placed, _⟩ := found
  obtain ⟨rfl, inside⟩ := stateIndex_place placed
  exact inside

theorem exists_state {states : List State} (few : states.length ≤ Decode.stateLimit) {index : Nat}
    (inside : index < Decode.stateLimit) {hasNext : Bool} {content : State} {bytes : Bytes}
    (emitted : state resolvers env states hasNext content = .ok bytes) :
    ∃ read, Format.state .numbersOnly index bytes (read, hasNext) ∧
      ∀ target ∈ read.2, target < states.length := by
  rw [state_eq] at emitted
  simp only [bind_eq_ok, pure_eq_ok] at emitted
  obtain ⟨count, fitted, settings, _, word, targeted, packetBytes, packetEmitted, parts,
    bodiesEmitted, rfl⟩ := emitted
  obtain ⟨fewBodies, rfl⟩ := Quantity.fit_eq_ok.mp fitted
  obtain ⟨attributes, reference, target⟩ := exists_stateTarget targeted
  obtain ⟨packet, given, packetWritten⟩ := exists_optional (fun emitted =>
    have ⟨_, _, written⟩ := controlPacket_collected emitted
    ⟨_, written⟩) packetEmitted
  have eachBody := mapM_eq_ok.mp bodiesEmitted
  have bodies := rows_formatted (fun _ _ _ => body_formatted few) eachBody
  have written : Format.state .numbersOnly index _ ((⟨_ ++ Format.stateAttributes _
      settings.nonBlocking settings.skipFirstBody, _, _, _, _⟩, _), hasNext) :=
    .intro (Nat.ne_of_lt inside) target packetWritten bodies (by
      rw [List.length_map]
      exact Int.ofNat_le.mp (Quantity.holds_iff.mp fewBodies).2)
  rw [List.length_map, given, List.filterMap_map] at written
  -- no check has seen the jumps, but the encoder has looked every one of them up
  refine ⟨_, written, fun target member => ?_⟩
  obtain ⟨content, inBodies, jumped⟩ := List.mem_filterMap.mp member
  obtain ⟨name, jump, rfl⟩ := Option.map_eq_some_iff.mp jumped
  obtain ⟨_, _, bodyEmitted⟩ := exists_mem_of_forall₂ eachBody content inBodies
  exact body_target_lt bodyEmitted name jump

theorem exists_states {all : List State} (few : all.length ≤ Decode.stateLimit) {index : Nat}
    {row : List State} (inside : index + row.length ≤ Decode.stateLimit) {bytes : Bytes}
    (emitted : states resolvers env all row = .ok bytes) :
    ∃ read, read.length = row.length ∧ Format.Links (Format.state .numbersOnly) index bytes read ∧
      ∀ entry ∈ read, ∀ target ∈ entry.2, target < all.length := by
  induction row generalizing index bytes with
  | nil =>
    cases emitted
    exact ⟨[], rfl, .nil, List.forall_mem_nil _⟩
  | cons first rest inductionHypothesis =>
    unfold states at emitted
    simp only [bind_eq_ok, pure_eq_ok] at emitted
    obtain ⟨head, headEmitted, tail, tailEmitted, rfl⟩ := emitted
    rw [List.length_cons] at inside
    obtain ⟨others, length, behind, near⟩ := @inductionHypothesis (index + 1) (by omega) tail
      tailEmitted
    have within : index < Decode.stateLimit := by omega
    obtain ⟨value, written, here⟩ := exists_state few within headEmitted
    refine ⟨value :: others, congrArg (· + 1) length, .cons ?_ behind,
      List.forall_mem_cons.mpr ⟨here, near⟩⟩
    have same : others.isEmpty = rest.isEmpty := by
      rw [Bool.eq_iff_iff, List.isEmpty_iff_length_eq_zero, List.isEmpty_iff_length_eq_zero, length]
    rw [same]
    exact written

/-! ### Behaviours -/

theorem exists_starter {content : Starter} {bytes : Bytes}
    (emitted : starter resolvers env content = .ok bytes) :
    ∃ read, Format.starter .numbersOnly bytes read := by
  unfold starter at emitted
  simp only [bind_eq_ok, pure_eq_ok] at emitted
  obtain ⟨count, fitted, parts, emitted, rfl⟩ := emitted
  obtain ⟨few, rfl⟩ := Quantity.fit_eq_ok.mp fitted
  obtain ⟨assigners, length, rows⟩ := exists_rows (fun emitted =>
    have ⟨_, _, written⟩ := assigner_packed emitted
    ⟨_, written⟩) (mapM_eq_ok.mp emitted)
  rw [← length] at few ⊢
  exact ⟨_, .intro ((IntFormat.le_max_iff rfl).mp (Quantity.holds_iff.mp few).2) rows⟩

/-- The start that is written is a state, and the numbers fit their fields. -/
structure GraphSettings.Fits (states : List State) (settings : GraphSettings) : Prop where
  start : settings.startState < states.length
  priority : settings.priority ≤ Layout.Graph.priority.max
  unknown : settings.unknown ≤ Layout.Graph.unknown.max

theorem graphSettings_fit {content : Behaviour} (nonempty : content.states ≠ [])
    {settings : GraphSettings}
    (run : content.attributes.foldlM (graphSetting env content) {} = .ok settings) :
    settings.Fits content.states := by
  refine foldlM_keeps (fun {before next attr} stepped fits => ?_)
    ⟨List.length_pos_iff.mpr nonempty, Nat.zero_le _, Nat.zero_le _⟩ run
  obtain ⟨start, priority, unknown⟩ := graphSetting_taken stepped
  exact ⟨start.keeps And.right fits.start, priority.keeps And.right fits.priority,
    unknown.keeps And.right fits.unknown⟩

theorem exists_behaviour {content : Behaviour} (nonempty : content.states ≠ []) {bytes : Bytes}
    (emitted : behaviour resolvers env content = .ok bytes) (name : String)
    (attributes : List Attribute) :
    ∃ read, Format.behaviour .numbersOnly name attributes bytes read := by
  rw [behaviour_eq] at emitted
  simp only [bind_eq_ok, pure_eq_ok] at emitted
  obtain ⟨_, fitted, settings, run, setupBytes, setupEmitted, stateBytes, statesEmitted, rfl⟩ :=
    emitted
  have few : content.states.length ≤ Decode.stateLimit :=
    Int.ofNat_le.mp (Quantity.holds_iff.mp (Quantity.fit_eq_ok.mp fitted).1).2
  have fits := graphSettings_fit nonempty run
  obtain ⟨setup, given, setupWritten⟩ := exists_optional exists_starter setupEmitted
  have fromZero : 0 + content.states.length ≤ Decode.stateLimit := by rwa [Nat.zero_add]
  obtain ⟨states, length, rows, near⟩ := exists_states few fromZero statesEmitted
  have starting : settings.startState ≤ Layout.Graph.startState.max :=
    Nat.le_of_lt_succ (Nat.lt_of_lt_of_le fits.start few)
  rw [← given]
  exact ⟨_, .intro (length ▸ fits.start) starting fits.priority fits.unknown setupWritten rows
    (length ▸ near)⟩

/-! ### Whole scripts -/

theorem exists_entries {row : List Behaviour} (nonempty : ∀ content ∈ row, content.states ≠ [])
    {taken : List (Int × String)} {bytes : Bytes}
    (emitted : entries resolvers table taken row = .ok bytes) :
    ∃ read, read.length = row.length ∧ (Format.entry .numbersOnly).Rows bytes read := by
  induction row generalizing taken bytes with
  | nil =>
    cases emitted
    exact ⟨[], rfl, .nil⟩
  | cons first rest inductionHypothesis =>
    rw [List.forall_mem_cons] at nonempty
    obtain ⟨id, graph, others, found, graphEmitted, short, othersEmitted, rfl⟩ :=
      entries_cons_eq_ok emitted
    obtain ⟨index, small, rfl, _⟩ := graphId_value found
    obtain ⟨value, written⟩ := exists_behaviour nonempty.1 graphEmitted _ _
    obtain ⟨values, length, behind⟩ := inductionHypothesis nonempty.2 othersEmitted
    refine ⟨(index, value) :: values, congrArg (· + 1) length, .cons ?_ behind⟩
    exact .intro small ((IntFormat.le_max_iff rfl).mp (IntFormat.holds_iff.mp short).2) rfl written

theorem exists_library {content : Library}
    (nonempty : ∀ behaviour ∈ content.behaviours, behaviour.states ≠ []) {bytes : Bytes}
    (emitted : library resolvers table content = .ok bytes) :
    ∃ read, Format.library .numbersOnly content.name bytes read := by
  rw [library_eq] at emitted
  simp only [bind_eq_ok, pure_eq_ok] at emitted
  obtain ⟨count, fitted, unknown, measured, rowBytes, rowEmitted, rfl⟩ := emitted
  obtain ⟨few, rfl⟩ := Quantity.fit_eq_ok.mp fitted
  obtain ⟨unknown, small, rfl, _⟩ := libraryUnknown_value measured
  obtain ⟨read, length, rows⟩ := exists_entries nonempty rowEmitted
  rw [← length] at few ⊢
  exact ⟨_, .intro ((IntFormat.le_max_iff rfl).mp (Quantity.holds_iff.mp few).2) small rows⟩

structure SequenceSettings.Fits (settings : SequenceSettings) : Prop where
  instanceType : settings.instanceType ≤ Layout.Sequence.instanceType.max
  globalIndex : settings.globalIndex ≤ Layout.Sequence.globalIndex.max
  unknown : settings.unknown ≤ Layout.Sequence.unknown.max

theorem sequenceSettings_fit {name : String} {attributes : List Attribute}
    {settings : SequenceSettings}
    (run : attributes.foldlM (sequenceSetting env name) {} = .ok settings) : settings.Fits := by
  refine foldlM_keeps (fun {before next attr} stepped fits => ?_)
    ⟨Nat.zero_le _, Nat.zero_le _, Nat.zero_le _⟩ run
  obtain ⟨instanceType, globalIndex, unknown⟩ := sequenceSetting_taken stepped
  exact ⟨instanceType.keeps And.right fits.instanceType,
    globalIndex.keeps And.right fits.globalIndex, unknown.keeps And.right fits.unknown⟩

theorem exists_sequence {content : Sequence} {bytes : Bytes}
    (emitted : sequence resolvers env content = .ok bytes) :
    ∃ read, Format.sequence .numbersOnly content.name bytes read := by
  unfold sequence at emitted
  simp only [bind_eq_ok, pure_eq_ok] at emitted
  obtain ⟨settings, run, count, fitted, parts, packsEmitted, rowBytes, rowEmitted, rfl⟩ := emitted
  obtain ⟨few, rfl⟩ := Quantity.fit_eq_ok.mp fitted
  have fits := sequenceSettings_fit run
  obtain ⟨packs, length, rows⟩ := exists_rows (fun emitted => ⟨_, pack_formatted emitted⟩)
    (mapM_eq_ok.mp packsEmitted)
  rw [← length] at few ⊢
  exact ⟨_, .intro fits.instanceType fits.globalIndex fits.unknown
    (Int.ofNat_le.mp (Quantity.holds_iff.mp few).2) rows (commandPack_formatted rowEmitted)⟩

end Encode

/-- Whatever is written for a script whose behaviours have states is a script's binary format. -/
theorem exists_formatted {resolvers : CompileResolvers} {table : SymbolTable} {script : Script}
    (nonempty : script.HasStates) {bytes : Bytes}
    (emitted : emit resolvers table script = .ok bytes) :
    ∃ read, Format.script .numbersOnly script.name script.kind bytes read := by
  cases script with
  | library content =>
    obtain ⟨read, written⟩ := Encode.exists_library nonempty emitted
    exact ⟨_, .library written⟩
  | behaviour content =>
    obtain ⟨read, written⟩ := Encode.exists_behaviour nonempty emitted content.name []
    exact ⟨_, .behaviour written⟩
  | sequence content =>
    obtain ⟨read, written⟩ := Encode.exists_sequence emitted
    exact ⟨_, .sequence written⟩

/-! ### Scripts that were read -/

theorem exists_decode {resolvers : CompileResolvers} {table : SymbolTable} {script : Script}
    (named : isIdentifier script.name = true) (nonempty : script.HasStates) {bytes : Bytes}
    (emitted : emit resolvers table script = .ok bytes) :
    ∃ read, decode script.kind bytes script.name .numbersOnly = .ok read := by
  obtain ⟨read, written⟩ := exists_formatted nonempty emitted
  exact ⟨read, decode_eq_ok_iff.mpr ⟨named, written⟩⟩

/-- Whatever is written for a script that was read, without any analysis and with any consts and
names from the host, can be decoded. A script that was read from a text has an identifier for a
name; tokens that no text has might give it another one. -/
theorem decode_emit_unchecked :
    (∀ source script, parseSource source = .ok script → ∀ resolvers table bytes,
      emit resolvers table script = .ok bytes →
        ∃ read, decode script.kind bytes script.name .numbersOnly = .ok read) ∧
    ∀ tokens script, parse tokens = .ok script → isIdentifier script.name = true →
      ∀ resolvers table bytes, emit resolvers table script = .ok bytes →
        ∃ read, decode script.kind bytes script.name .numbersOnly = .ok read := by
  constructor
  · intro source script read resolvers table bytes emitted
    obtain ⟨_, _, run⟩ := parseSource_eq_ok.mp read
    exact exists_decode (Script.isIdentifier_name (parseSource_spellable read))
      (parse_hasStates run) emitted
  · intro tokens script run named resolvers table bytes emitted
    exact exists_decode named (parse_hasStates run) emitted

/-- A behaviour that gives an attribute, a setting, a field and a state twice, has an attribute that
only states have, and a state with an object slot and a graph. -/
def piledText : String :=
  "[Priority(1)][NonBlocking][Priority(2)]behaviour Pile\x7b" ++
    "starter\x7bassign 9(status=4,status=3);\x7d" ++
    "[UseObjectSlot(7)][ControlPacket(gravity=1,gravity=Far)]state Rest(5)\x7b" ++
    "do\x7bgoto Rest;\x7d\x7dstate Rest()\x7b\x7d\x7d"

def piledTable : SymbolTable := .ofScope ⟨[("Far", .of 2 0 .dummy)]⟩

-- The nibble of `status` is 7: the bits of both values.
def piledBinary : Bytes :=
  [0, 2, 1, 0, 1, 0, 9, 0, 0, 7, 129, 3, 7, 0, 0, 4, 0, 0, 2, 0, 0, 0, 0, 0, 0, 255, 255]

theorem decode_emit_unchecked_piled :
    ∃ script, parseSource piledText = .ok script ∧
      emit .numbersOnly piledTable script = .ok piledBinary ∧
      ∃ read, decode script.kind piledBinary script.name .numbersOnly = .ok read := by
  have run : (parseSource piledText >>= emit .numbersOnly piledTable) = .ok piledBinary := by
    decide +kernel
  obtain ⟨script, read, emitted⟩ := bind_eq_ok.mp run
  exact ⟨script, read, emitted, decode_emit_unchecked.1 _ _ read _ _ _ emitted⟩

end BehaviourScript
