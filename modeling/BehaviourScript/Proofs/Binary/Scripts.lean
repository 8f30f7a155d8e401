/-
This file shows that the decoders of behaviours, libraries and sequences read
the binary format, and with them that a byte string decodes exactly if it is in
the format of a script.
-/

import BehaviourScript.Proofs.Binary.Decoding

namespace BehaviourScript

namespace Decode

open Decoder

variable (resolvers : DecompileResolvers)

/-! ### Behaviours -/

theorem reference_reads (capability : Capability) (ident : Int) :
    Reads (lift (Outcome.ofResolution (resolvers.reference capability ident))) id
      fun bytes reference => bytes = [] ∧ resolvers.reference capability ident = .ok reference :=
  (Reads.lift _).congr fun _ _ => and_congr_right fun _ => Outcome.ofResolution_eq_ok

theorem assigner_reads : Reads (assigner resolvers) id (Format.assigner resolvers) := by
  have word : Reads (nat .u16) id _ := .nat rfl
  refine ((Reads.int .u16).bindValue fun ident =>
    (reference_reads resolvers .globalObject ident).bindValue fun object =>
      word.bindValue fun word => .pure _ id).congr fun bytes value => ⟨?_, ?_⟩
  · rintro ⟨_, _, ident, rfl, ⟨fits, rfl⟩, _, _, object, rfl, ⟨rfl, found⟩, _, _, word, rfl,
      ⟨small, rfl⟩, rfl, rfl⟩
    rw [List.append_nil, List.nil_append]
    exact .intro fits found small
  · rintro @⟨ident, object, word, fits, found, small⟩
    exact ⟨_, _, ident, rfl, ⟨fits, rfl⟩, [], _, object, rfl, ⟨rfl, found⟩, _, [], word,
      (List.append_nil _).symm, ⟨small, rfl⟩, rfl, rfl⟩

theorem starter_reads : Reads (starter resolvers) id (Format.starter resolvers) := by
  have count : Reads (nat .u16) id _ := .nat rfl
  refine (count.bindValue fun count => ((assigner_reads resolvers).timesValue count).bindValue
    fun assigners => .pure _ id).congr fun bytes value => ⟨?_, ?_⟩
  · rintro ⟨_, _, count, rfl, ⟨small, rfl⟩, _, _, assigners, rfl, ⟨rfl, rows⟩, rfl, rfl⟩
    rw [List.append_nil]
    exact .intro small rows
  · rintro @⟨assigners, bytes, small, rows⟩
    exact ⟨_, _, assigners.length, rfl, ⟨small, rfl⟩, _, [], assigners, (List.append_nil _).symm,
      ⟨rfl, rows⟩, rfl, rfl⟩

/-- What a behaviour takes from its records: the header, the starter and the states. -/
def GraphRecords.shown (records : GraphRecords) :
    Nat × Option Starter × List (State × List Nat) :=
  (records.header, records.starter, records.states.map StateRecord.shown)

theorem states_reads : Reads (chain (state resolvers)) (List.map StateRecord.shown)
    fun bytes states => states ≠ [] ∧ Format.Links (Format.state resolvers) 0 bytes states := by
  refine Reads.chain (state_reads resolvers) fun formatted empty => ?_
  cases formatted
  simp only [List.append_eq_nil_iff] at empty
  exact IntFormat.encode_ne_nil _ _ empty.1.1.1

theorem graphRecords_eq : graphRecords resolvers =
    (offset >>= fun start => header .behaviourHeader .u32 Layout.Graph.reserved >>= fun word =>
      (if Layout.Graph.hasStarter.flag word then some <$> starter resolvers else pure none) >>=
        fun setup => chain (state resolvers) >>= fun states =>
          pure ⟨start, word, setup, states⟩) := by
  unfold graphRecords
  simp only [ite_bind]

theorem graphRecords_reads : Reads (graphRecords resolvers) GraphRecords.shown
    fun bytes (word, setup, states) =>
      word < IntFormat.u32.modulus ∧ Layout.Graph.reserved.get word = 0 ∧
        setup.isSome = Layout.Graph.hasStarter.flag word ∧ states ≠ [] ∧
        ∃ setupBytes stateBytes, bytes = IntFormat.u32.encode word ++ setupBytes ++ stateBytes ∧
          (Format.starter resolvers).Optional setupBytes setup ∧
          Format.Links (Format.state resolvers) 0 stateBytes states := by
  have header : Reads (header .behaviourHeader .u32 Layout.Graph.reserved) id _ := .header rfl _ _
  have built (start word : Nat) (setup : Option Starter) (records : List StateRecord)
      (states : List (State × List Nat)) (shown : records.map StateRecord.shown = states) :
      Reads (pure (⟨start, word, setup, records⟩ : GraphRecords)) GraphRecords.shown fun bytes value =>
        bytes = [] ∧ (word, setup, states) = value := by
    rw [← shown]
    exact .pure _ _
  rw [graphRecords_eq]
  refine (Reads.offset fun start => header.bindValue fun word =>
    ((starter_reads resolvers).optional (Layout.Graph.hasStarter.flag word)).bindValue fun setup =>
      (states_reads resolvers).bind (built start word setup)).congr
    fun bytes (word, setup, states) => ⟨?_, ?_⟩
  · rintro ⟨_, _, _, rfl, ⟨small, clear, rfl⟩, _, _, _, rfl, ⟨given, setupFormat⟩, _, _, _, rfl,
      ⟨some, links⟩, rfl, ⟨⟩⟩
    refine ⟨small, clear, given, some, _, _, ?_, setupFormat, links⟩
    rw [List.append_nil, List.append_assoc]
  · rintro ⟨small, clear, given, some, setupBytes, stateBytes, rfl, setupFormat, links⟩
    rw [List.append_assoc]
    exact ⟨_, _, word, rfl, ⟨small, clear, rfl⟩, _, _, setup, rfl, ⟨given, setupFormat⟩, _, [], states,
      (List.append_nil _).symm, ⟨some, links⟩, rfl, rfl⟩

theorem lostJump?_eq_none {records : GraphRecords} {states : List (State × List Nat)}
    (shown : records.states.map StateRecord.shown = states) :
    records.lostJump? = none ↔ ∀ entry ∈ states, ∀ target ∈ entry.2, target < states.length := by
  have length : states.length = records.states.length := by rw [← shown, List.length_map]
  unfold GraphRecords.lostJump?
  rw [List.find?_eq_none, length, ← shown, List.forall_mem_map]
  simp only [List.mem_flatMap, decide_eq_true_eq, Nat.not_le, StateRecord.shown]
  constructor
  · intro each record member target inJumps
    obtain ⟨jump, found, rfl⟩ := List.mem_map.mp inJumps
    exact each jump ⟨record, member, found⟩
  · rintro each jump ⟨record, member, found⟩
    exact each record member jump.target (List.mem_map_of_mem found)

/-- The behaviour that records make. -/
def builtBehaviour (name : String) (attributes : List Attribute) (word : Nat)
    (setup : Option Starter) (states : List (State × List Nat)) : Behaviour where
  attributes := attributes
    ++ [attr (.priority (number (Layout.Graph.priority.get word))),
      attr (.startFrom (stateName (Layout.Graph.startState.get word)))]
    ++ unknownAttribute (Layout.Graph.unknown.get word)
  name := name
  consts := []
  starter := setup
  states := states.map Prod.fst
  span := .dummy

theorem graphBehaviour_eq_ok {records : GraphRecords} {word : Nat} {setup : Option Starter}
    {states : List (State × List Nat)} (shown : records.shown = (word, setup, states))
    {name : String} {attributes : List Attribute} {content : Behaviour} :
    records.behaviour name attributes = .ok content ↔
      (∀ entry ∈ states, ∀ target ∈ entry.2, target < states.length) ∧
        Layout.Graph.startState.get word < states.length ∧
        builtBehaviour name attributes word setup states = content := by
  simp only [GraphRecords.shown, Prod.mk.injEq] at shown
  obtain ⟨rfl, rfl, shown⟩ := shown
  have length : states.length = records.states.length := by rw [← shown, List.length_map]
  have content : states.map Prod.fst = records.states.map StateRecord.state := by
    rw [← shown, List.map_map]
    rfl
  rw [← lostJump?_eq_none shown]
  unfold GraphRecords.behaviour builtBehaviour
  rw [content, length]
  cases records.lostJump? with
  | some jump => exact ⟨nofun, nofun⟩
  | none =>
    simp only [true_and]
    split
    · next inside => exact ⟨fun same => ⟨inside, Except.ok.inj same⟩, fun same => congrArg _ same.2⟩
    · next outside => exact ⟨nofun, fun same => absurd same.1 outside⟩

theorem behaviour_reads (name : String) (attributes : List Attribute) :
    Reads (behaviour resolvers name attributes) id
      (Format.behaviour resolvers name attributes) := by
  have built (records : GraphRecords) (image : Nat × Option Starter × List (State × List Nat))
      (shown : records.shown = image) :
      Reads (lift (records.behaviour name attributes)) id fun bytes content => bytes = [] ∧
        (∀ entry ∈ image.2.2, ∀ target ∈ entry.2, target < image.2.2.length) ∧
          Layout.Graph.startState.get image.1 < image.2.2.length ∧
          builtBehaviour name attributes image.1 image.2.1 image.2.2 = content :=
    (Reads.lift _).congr fun _ _ => and_congr_right fun _ => graphBehaviour_eq_ok shown
  refine ((graphRecords_reads resolvers).bind built).congr fun bytes content => ⟨?_, ?_⟩
  · rintro ⟨_, _, ⟨word, setup, states⟩, rfl, ⟨small, clear, given, _, _, _, rfl, setupFormat, links⟩,
      rfl, near, inside, rfl⟩
    have whole : Layout.pack [(Layout.Graph.startState, Layout.Graph.startState.get word),
        (Layout.Graph.priority, Layout.Graph.priority.get word),
        (Layout.Graph.hasStarter, Layout.Graph.hasStarter.get word),
        (Layout.Graph.unknown, Layout.Graph.unknown.get word)] = word :=
      Layout.Graph.shape.pack_get small clear
    have written : Format.behaviour resolvers name attributes _
        (builtBehaviour name attributes word setup states) :=
      .intro inside (Layout.Field.get_le_max _ _) (Layout.Field.get_le_max _ _)
        (Layout.Field.get_le_max _ _) setupFormat links near
    rw [given, Layout.Field.toNat_flag Layout.Graph.hasStarter rfl, whole] at written
    rwa [List.append_nil]
  · rintro @⟨start, priority, unknown, setup, states, setupBytes, stateBytes, inside, startFits,
      priorityFits, unknownFits, setupFormat, links, near⟩
    have same : [(Layout.Graph.startState, start), (Layout.Graph.priority, priority),
        (Layout.Graph.hasStarter, setup.isSome.toNat), (Layout.Graph.unknown, unknown)].map Prod.fst =
      Layout.Graph.shape.fields := rfl
    have some : states ≠ [] := List.ne_nil_of_length_pos (Nat.zero_lt_of_lt inside)
    have given := Layout.Shape.flag_pack same Layout.Graph.hasStarter setup.isSome (by simp)
      (by decide)
    have startHeld := Layout.Shape.get_pack same List.mem_cons_self startFits
    refine ⟨_, [], (_, setup, states), (List.append_nil _).symm,
      ⟨Layout.Shape.pack_lt same, Layout.Shape.reserved_pack same, given.symm, some, _, _, rfl,
        setupFormat, links⟩, rfl, near, ?_, ?_⟩
    · rw [startHeld]
      exact inside
    · unfold builtBehaviour
      rw [startHeld, Layout.Shape.get_pack same (by simp) priorityFits,
        Layout.Shape.get_pack same (by simp) unknownFits]

/-! ### Libraries -/

theorem entry_eq : entry resolvers =
    (nat .u32 >>= fun ident => nat .u32 >>= fun declared => offset >>= fun start =>
      (lift (entryName resolvers ident) >>= fun named => behaviour resolvers named.1 named.2) >>=
        fun graph => offset >>= fun stop =>
          if stop - start = declared then pure graph
          else fail (.lengthMismatch ident declared (stop - start))) := by
  unfold entry
  simp only [bind_assoc]

theorem entry_reads : Reads (entry resolvers) id fun bytes content =>
    ∃ ident, Format.entry resolvers bytes (ident, content) := by
  have word : Reads (nat .u32) id _ := .nat rfl
  have graph (ident declared : Nat) := ((Reads.lift (entryName resolvers ident)).bindValue fun named =>
    behaviour_reads resolvers named.1 named.2).measured declared (.lengthMismatch ident declared)
  rw [entry_eq]
  refine (word.bindValue fun ident => word.bindValue fun declared => graph ident declared).congr
    fun bytes content => ⟨?_, ?_⟩
  · rintro ⟨_, _, ident, rfl, ⟨identFits, rfl⟩, _, _, declared, rfl, ⟨small, rfl⟩, rfl, _, _,
      ⟨name, attributes⟩, rfl, ⟨rfl, named⟩, formatted⟩
    rw [← List.append_assoc]
    exact ⟨ident, .intro identFits small named formatted⟩
  · rintro ⟨ident, @⟨_, name, attributes, _, bytes, identFits, small, named, formatted⟩⟩
    rw [List.append_assoc]
    exact ⟨_, _, ident, rfl, ⟨identFits, rfl⟩, _, _, bytes.length, rfl, ⟨small, rfl⟩, rfl, [], bytes,
      (name, attributes), rfl, ⟨rfl, named⟩, formatted⟩

theorem library_reads (name : String) :
    Reads (library resolvers name) id (Format.library resolvers name) := by
  have word : Reads (nat .u16) id _ := .nat rfl
  refine (word.bindValue fun count => word.bindValue fun unknown =>
    ((entry_reads resolvers).timesValue count).bindValue fun behaviours => .pure _ id).congr
    fun bytes content => ⟨?_, ?_⟩
  · rintro ⟨_, _, count, rfl, ⟨few, rfl⟩, _, _, unknown, rfl, ⟨small, rfl⟩, _, _, behaviours, rfl,
      ⟨rfl, rows⟩, rfl, rfl⟩
    obtain ⟨entries, entryRows, rfl⟩ := Format.rows_snd_iff.mp rows
    rw [List.length_map] at few ⊢
    rw [List.append_nil, ← List.append_assoc]
    exact .intro few small entryRows
  · rintro @⟨unknown, entries, bytes, few, small, rows⟩
    rw [List.append_assoc]
    exact ⟨_, _, entries.length, rfl, ⟨few, rfl⟩, _, _, unknown, rfl, ⟨small, rfl⟩, _, [], _,
      (List.append_nil _).symm, ⟨List.length_map _, Format.rows_snd_iff.mpr ⟨entries, rows, rfl⟩⟩,
      rfl, rfl⟩

/-! ### Sequences -/

theorem pack_reads : Reads (pack resolvers) id (Format.pack resolvers) := by
  refine (commandPack_reads.bindValue fun row => (Reads.int .u16).bindValue fun ident =>
    (reference_reads resolvers .graph ident).bindValue fun script => .pure _ id).congr
    fun bytes value => ⟨?_, ?_⟩
  · rintro ⟨_, _, row, rfl, formatted, _, _, ident, rfl, ⟨fits, rfl⟩, _, _, script, rfl, ⟨rfl, found⟩,
      rfl, rfl⟩
    rw [List.append_nil, List.append_nil]
    exact .intro formatted fits found
  · rintro @⟨ident, script, row, bytes, formatted, fits, found⟩
    exact ⟨_, _, row, rfl, formatted, _, [], ident, (List.append_nil _).symm, ⟨fits, rfl⟩, [], [],
      script, rfl, ⟨rfl, found⟩, rfl, rfl⟩

theorem sequence_reads (name : String) :
    Reads (sequence resolvers name) id (Format.sequence resolvers name) := by
  have word : Reads (nat .u32) id _ := .nat rfl
  refine (word.bindValue fun word => ((pack_reads resolvers).timesValue _).bindValue fun packs =>
    commandPack_reads.bindValue fun row => .pure _ id).congr fun bytes content => ⟨?_, ?_⟩
  · rintro ⟨_, _, word, rfl, ⟨small, rfl⟩, _, _, packs, rfl, ⟨count, rows⟩, _, _, row, rfl, formatted,
      rfl, rfl⟩
    have clear : (⟨0, 0⟩ : Layout.Field).get word = 0 := Nat.and_zero _
    have whole : Layout.pack [(Layout.Sequence.instanceType, Layout.Sequence.instanceType.get word),
        (Layout.Sequence.globalIndex, Layout.Sequence.globalIndex.get word),
        (Layout.Sequence.packCount, Layout.Sequence.packCount.get word),
        (Layout.Sequence.unknown, Layout.Sequence.unknown.get word)] = word :=
      Layout.Sequence.shape.pack_get small clear
    have few : packs.length ≤ Layout.Sequence.packCount.max := count ▸ Layout.Field.get_le_max _ _
    have written : Format.sequence resolvers name _ ⟨[attr (.globalIndex (number
        (Layout.Sequence.globalIndex.get word))), attr (.instanceType (number
        (Layout.Sequence.instanceType.get word)))] ++ unknownAttribute
        (Layout.Sequence.unknown.get word), name, [], packs, row, .dummy⟩ :=
      .intro (Layout.Field.get_le_max _ _) (Layout.Field.get_le_max _ _)
        (Layout.Field.get_le_max _ _) few rows formatted
    rw [count, whole, List.append_assoc] at written
    rwa [List.append_nil]
  · rintro @⟨instanceType, globalIndex, unknown, packs, row, packBytes, rowBytes, typeFits, indexFits,
      unknownFits, few, rows, formatted⟩
    have same : [(Layout.Sequence.instanceType, instanceType),
        (Layout.Sequence.globalIndex, globalIndex), (Layout.Sequence.packCount, packs.length),
        (Layout.Sequence.unknown, unknown)].map Prod.fst = Layout.Sequence.shape.fields := rfl
    have count := Layout.Shape.get_pack same (by simp) few
    rw [List.append_assoc]
    refine ⟨_, _, _, rfl, ⟨Layout.Shape.pack_lt same, rfl⟩, _, _, packs, rfl, ⟨count.symm, rows⟩, _,
      [], row, (List.append_nil _).symm, formatted, rfl, ?_⟩
    rw [Layout.Shape.get_pack same List.mem_cons_self typeFits,
      Layout.Shape.get_pack same (by simp) indexFits,
      Layout.Shape.get_pack same (by simp) unknownFits]
    rfl

/-! ### Whole scripts -/

theorem script_reads (kind : ItemKind) (name : String) :
    Reads (script resolvers kind name) id (Format.script resolvers name kind) := by
  cases kind with
  | library =>
    refine ((library_reads resolvers name).map Script.library Script.library fun _ => rfl).congr
      fun bytes value => ⟨?_, ?_⟩
    · rintro ⟨content, formatted, rfl⟩
      exact .library formatted
    · intro formatted
      cases formatted with
      | library formatted => exact ⟨_, formatted, rfl⟩
  | behaviour =>
    refine ((behaviour_reads resolvers name []).map Script.behaviour Script.behaviour
      fun _ => rfl).congr fun bytes value => ⟨?_, ?_⟩
    · rintro ⟨content, formatted, rfl⟩
      exact .behaviour formatted
    · intro formatted
      cases formatted with
      | behaviour formatted => exact ⟨_, formatted, rfl⟩
  | sequence =>
    refine ((sequence_reads resolvers name).map Script.sequence Script.sequence
      fun _ => rfl).congr fun bytes value => ⟨?_, ?_⟩
    · rintro ⟨content, formatted, rfl⟩
      exact .sequence formatted
    · intro formatted
      cases formatted with
      | sequence formatted => exact ⟨_, formatted, rfl⟩

end Decode

/-- Bytes decode exactly if they are a script in the binary format, and to that script. -/
theorem decode_eq_ok_iff {kind : ItemKind} {bytes : Bytes} {name : String}
    {resolvers : DecompileResolvers} {script : Script} :
    decode kind bytes name resolvers = .ok script ↔
      isIdentifier name = true ∧ Format.script resolvers name kind bytes script := by
  unfold decode
  split
  · next valid =>
    rw [(Decode.script_reads resolvers kind name).run_eq_ok_iff]
    exact ⟨fun formatted => ⟨valid, formatted⟩, And.right⟩
  · next invalid => exact ⟨nofun, fun formatted => absurd formatted.1 invalid⟩

end BehaviourScript
