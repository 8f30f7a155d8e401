/-
This file finds the IDs of assets in a binary without reading a script from it. A
walk goes from record to record by the counts, flags and lengths in their words
and notes the IDs on its way: those of graphs, of what states run, of objects and
of the scripts of packs. It checks nothing and never fails. In bytes that stand
for a script it finds the IDs of that script.
-/

import BehaviourScript.Proofs.Binary.Format
import BehaviourScript.Proofs.Binary.Words
import BehaviourScript.Proofs.Canonical.Form
import BehaviourScript.Proofs.ReferenceNames
import Mathlib.Logic.Function.Iterate

namespace BehaviourScript

theorem DecompileResolvers.reference_numbersOnly (capability : Capability) (id : Int) :
    numbersOnly.reference capability id = .ok (.literal id) :=
  reference_of_none (by cases capability <;> rfl)

/-- The ID of an asset with the kind of name that a host may have for it. -/
abbrev Asset := Capability × Int

/-! ### The assets of a script -/

/-- The ID that a reference is, if it is one. -/
def Reference.ids (capability : Capability) : Reference → List Asset
  | literal id => [(capability, id)]
  | symbol _ => []

def Assigner.ids (assigner : Assigner) : List Asset :=
  assigner.object.ids .globalObject

def Starter.ids (starter : Starter) : List Asset :=
  starter.assigners.flatMap Assigner.ids

def State.ids (state : State) : List Asset :=
  state.target.toList.flatMap (Reference.ids .stateGraph)

def Behaviour.ids (behaviour : Behaviour) : List Asset :=
  behaviour.starter.toList.flatMap Starter.ids ++ behaviour.states.flatMap State.ids

/-- The ID that an attribute of a behaviour gives it. -/
def Behaviour.graphId? (behaviour : Behaviour) : Option Int :=
  match Canonical.pick Attribute.Kind.globalIndex? behaviour.attributes with
  | some (.number id _) => some id
  | _ => none

def CommandPack.ids (pack : CommandPack) : List Asset := pack.script.ids .graph

/-- The IDs in a script that stand for assets of the host. -/
def Script.ids : Script → List Asset
  | library content => content.behaviours.flatMap fun behaviour =>
      behaviour.graphId?.toList.map (Capability.graph, ·) ++ behaviour.ids
  | behaviour content => content.ids
  | sequence content => content.packs.flatMap CommandPack.ids

/-! ### The walk -/

namespace Walk

/-- The integer that bytes begin with. -/
def int (format : IntFormat) (bytes : Bytes) : Int := format.decode (bytes.take format.width)

/-- The word that bytes begin with. -/
def word (format : IntFormat) (bytes : Bytes) : Nat := (int format bytes).toNat

/-- What stands behind an integer. -/
def past (format : IntFormat) (bytes : Bytes) : Bytes := bytes.drop format.width

section Lengths

variable {format : IntFormat} {bytes : Bytes}

theorem length_past_le (format : IntFormat) (bytes : Bytes) :
    (past format bytes).length ≤ bytes.length := by
  rw [past, List.length_drop]
  exact Nat.sub_le _ _

theorem length_past_lt (nonempty : bytes ≠ []) : (past format bytes).length < bytes.length := by
  have some := List.length_pos_iff.mpr nonempty
  have wide : 0 < format.width := by cases format <;> decide
  rw [past, List.length_drop]
  omega

theorem length_iterate_le {skip : Bytes → Bytes}
    (shortens : ∀ bytes, (skip bytes).length ≤ bytes.length) (count : Nat) (bytes : Bytes) :
    (skip^[count] bytes).length ≤ bytes.length := by
  induction count generalizing bytes with
  | zero => exact Nat.le_refl _
  | succ count inductionHypothesis =>
    exact Nat.le_trans (inductionHypothesis (skip bytes)) (shortens bytes)

/-- There are bytes where a flag is set. -/
theorem ne_nil_of_flag {field : Layout.Field} (set : field.flag (word format bytes) = true) :
    bytes ≠ [] := by
  rintro rfl
  have clear : word format [] = 0 := by cases format <;> rfl
  rw [clear, Layout.Field.flag, Layout.Field.get, Nat.zero_shiftRight, Nat.zero_and] at set
  exact absurd set (by decide)

end Lengths

/-- What stands behind a command. -/
def command (bytes : Bytes) : Bytes :=
  (past .i32)^[Layout.Command.argCount.get (word .u32 bytes)] (past .u32 bytes)

theorem length_command_le (bytes : Bytes) : (command bytes).length ≤ (past .u32 bytes).length :=
  length_iterate_le (length_past_le .i32) _ _

/-- What stands behind a row of commands that is not empty. -/
def row (bytes : Bytes) : Bytes :=
  if Layout.Command.hasNext.flag (word .u32 bytes) then row (command bytes) else command bytes
termination_by bytes.length
decreasing_by
  exact Nat.lt_of_le_of_lt (length_command_le bytes)
    (length_past_lt (ne_nil_of_flag (by assumption)))

/-- What stands behind a condition. -/
def condition (bytes : Bytes) : Bytes := past .i32 (past .u16 (past .u16 bytes))

/-- What stands behind a body. -/
def body (bytes : Bytes) : Bytes :=
  let word := word .u16 bytes
  let rest := past .i16 (past .u16 bytes)
  let rest := if Layout.Body.hasCondition.flag word then condition rest else rest
  if Layout.Body.hasCommands.flag word then row rest else rest

/-- What stands behind a control packet. -/
def controlPacket (bytes : Bytes) : Bytes :=
  let word := word .u32 bytes
  let names := Decode.maskedSettings (Layout.ControlPacket.settingsMask.get word)
  (past .i32)^[Layout.ControlPacket.dataCount.get word]
    ((past .u8)^[names.length] (past .u32 bytes))

/-- What stands behind a state. -/
def state (bytes : Bytes) : Bytes :=
  let word := word .u16 bytes
  let rest := past .i16 (past .u16 bytes)
  let rest := if Layout.State.hasControlPacket.flag word then controlPacket rest else rest
  body^[Layout.State.bodyCount.get word] rest

theorem length_row_le (bytes : Bytes) : (row bytes).length ≤ bytes.length := by
  have shorter (bytes : Bytes) : (command bytes).length ≤ bytes.length :=
    Nat.le_trans (length_command_le bytes) (length_past_le .u32 bytes)
  fun_induction row bytes with
  | case1 bytes _ inductionHypothesis => exact Nat.le_trans inductionHypothesis (shorter bytes)
  | case2 bytes _ => exact shorter bytes

theorem length_body_le (bytes : Bytes) : (body bytes).length ≤ bytes.length := by
  have test (bytes : Bytes) : (condition bytes).length ≤ bytes.length :=
    Nat.le_trans (length_past_le _ _) (Nat.le_trans (length_past_le _ _) (length_past_le _ _))
  have header : (past .i16 (past .u16 bytes)).length ≤ bytes.length :=
    Nat.le_trans (length_past_le _ _) (length_past_le _ _)
  unfold body
  dsimp only
  split
  · refine Nat.le_trans (length_row_le _) ?_
    split
    · exact Nat.le_trans (test _) header
    · exact header
  · split
    · exact Nat.le_trans (test _) header
    · exact header

theorem length_state_le (bytes : Bytes) : (state bytes).length ≤ (past .u16 bytes).length := by
  have packet (bytes : Bytes) : (controlPacket bytes).length ≤ bytes.length :=
    Nat.le_trans (length_iterate_le (length_past_le _) _ _)
      (Nat.le_trans (length_iterate_le (length_past_le _) _ _) (length_past_le _ _))
  have header := length_past_le .i16 (past .u16 bytes)
  refine Nat.le_trans (length_iterate_le length_body_le _ _) ?_
  split
  · exact Nat.le_trans (packet _) header
  · exact header

/-- The ID of the graph that a state runs, unless it runs none or one of an object slot. -/
def target (bytes : Bytes) : List Asset :=
  let id := int .i16 (past .u16 bytes)
  if Layout.State.usesObjectSlot.flag (word .u16 bytes) || id == noIndex then []
  else [(.stateGraph, id)]

/-- The assets of a chain of states. -/
def states (bytes : Bytes) : List Asset :=
  target bytes ++
    if Layout.State.hasNext.flag (word .u16 bytes) then states (state bytes) else []
termination_by bytes.length
decreasing_by
  exact Nat.lt_of_le_of_lt (length_state_le bytes)
    (length_past_lt (ne_nil_of_flag (by assumption)))

/-- What is found in a number of records. -/
def collect (found : Bytes → List Asset) (skip : Bytes → Bytes) : Nat → Bytes → List Asset
  | 0, _ => []
  | count + 1, bytes => found bytes ++ collect found skip count (skip bytes)

/-- What stands behind an assigner. -/
def assigner (bytes : Bytes) : Bytes := past .u16 (past .u16 bytes)

/-- The object of an assigner. -/
def object (bytes : Bytes) : List Asset := [(.globalObject, int .u16 bytes)]

/-- The assets of a behaviour's graph. -/
def graph (bytes : Bytes) : List Asset :=
  let rest := past .u32 bytes
  if Layout.Graph.hasStarter.flag (word .u32 bytes) then
    let count := word .u16 rest
    let rest := past .u16 rest
    collect object assigner count rest ++ states (assigner^[count] rest)
  else states rest

/-- The assets of a behaviour in a library, behind its ID and its length. -/
def entry (bytes : Bytes) : List Asset :=
  (.graph, int .u32 bytes) :: graph (past .u32 (past .u32 bytes))

/-- What stands behind a behaviour in a library. -/
def behindEntry (bytes : Bytes) : Bytes :=
  let rest := past .u32 bytes
  (past .u32 rest).drop (word .u32 rest)

/-- What stands behind the commands of a pack. -/
def commandPack (bytes : Bytes) : Bytes :=
  let rest := past .u16 bytes
  if Layout.Pack.hasCommands.flag (word .u16 bytes) then row rest else rest

/-- What stands behind a pack. -/
def pack (bytes : Bytes) : Bytes := past .u16 (commandPack bytes)

/-- The script of a pack. -/
def packScript (bytes : Bytes) : List Asset := [(.graph, int .u16 (commandPack bytes))]

/-- The IDs in a binary that stand for assets of the host. -/
def assets : ItemKind → Bytes → List Asset
  | .library, bytes => collect entry behindEntry (word .u16 bytes) (past .u16 (past .u16 bytes))
  | .behaviour, bytes => graph bytes
  | .sequence, bytes =>
    collect packScript pack (Layout.Sequence.packCount.get (word .u32 bytes)) (past .u32 bytes)

/-! ### The walk through the format -/

section Integers

variable {format : IntFormat} {rest : Bytes}

theorem past_encode (value : Int) : past format (format.encode value ++ rest) = rest :=
  List.drop_left' (format.length_encode value)

theorem int_encode {value : Int} (fits : format.holds value = true) :
    int format (format.encode value ++ rest) = value := by
  rw [int, List.take_left' (format.length_encode value), IntFormat.decode_encode fits]

theorem word_encode {value : Nat} (natural : format.signed = false)
    (small : value < format.modulus) : word format (format.encode value ++ rest) = value := by
  have low : format.min ≤ value := by
    rw [IntFormat.min, natural]
    exact Int.natCast_nonneg value
  have fits : format.holds value = true :=
    IntFormat.holds_iff.mpr ⟨low, (IntFormat.le_max_iff natural).mpr small⟩
  rw [word, int_encode fits, Int.toNat_natCast]

/-- A packed word is found in front. -/
theorem word_pack (format : IntFormat) {shape : Layout.Shape}
    {entries : List (Layout.Field × Nat)} (same : entries.map Prod.fst = shape.fields)
    (natural : format.signed = false) (whole : 2 ^ shape.bits = format.modulus) :
    word format (format.encode (Layout.pack entries) ++ rest) = Layout.pack entries :=
  word_encode natural (whole ▸ Layout.Shape.pack_lt same)

end Integers

section Parts

variable {α : Type} {skip : Bytes → Bytes} {item : Format α} {bytes : Bytes}

/-- A function goes past what stands in a format. -/
def Skips (skip : Bytes → Bytes) (item : Format α) : Prop :=
  ∀ ⦃bytes : Bytes⦄ ⦃value : α⦄, item bytes value → ∀ rest, skip (bytes ++ rest) = rest

theorem skips_int (format : IntFormat) : Skips (past format) (Format.int format) := by
  rintro _ value ⟨_, rfl⟩ rest
  exact past_encode value

/-- A row is skipped item by item. -/
theorem Skips.rows (skips : Skips skip item) {values : List α} (formatted : item.Rows bytes values)
    (rest : Bytes) : skip^[values.length] (bytes ++ rest) = rest := by
  induction formatted with
  | nil => rfl
  | cons first _ inductionHypothesis =>
    rw [List.append_assoc, List.length_cons, Function.iterate_succ_apply, skips first]
    exact inductionHypothesis

theorem Skips.optional (skips : Skips skip item) {value : Option α}
    (formatted : item.Optional bytes value) (rest : Bytes) :
    (if value.isSome = true then skip (bytes ++ rest) else bytes ++ rest) = rest := by
  cases formatted with
  | absent => rfl
  | present formatted => exact skips formatted rest

/-- What is found in each record is found in a row of them. -/
theorem collect_rows {found : Bytes → List Asset} {ids : α → List Asset}
    (skips : Skips skip item)
    (finds : ∀ ⦃bytes : Bytes⦄ ⦃value : α⦄, item bytes value →
      ∀ rest, found (bytes ++ rest) = ids value)
    {values : List α} (formatted : item.Rows bytes values) (rest : Bytes) :
    collect found skip values.length (bytes ++ rest) = values.flatMap ids := by
  induction formatted with
  | nil => rfl
  | cons first _ inductionHypothesis =>
    rw [List.append_assoc, List.length_cons, collect, finds first, skips first,
      inductionHypothesis, List.flatMap_cons]

end Parts

variable {bytes : Bytes}

/-! #### Commands and bodies -/

/-- A command is skipped with its arguments, and its flag says whether another follows. -/
theorem command_append {value : Command} {hasNext : Bool}
    (formatted : Format.command bytes (value, hasNext)) (rest : Bytes) :
    command (bytes ++ rest) = rest ∧
      Layout.Command.hasNext.flag (word .u32 (bytes ++ rest)) = hasNext := by
  cases formatted with
  | @intro id args _ few words =>
    have same : [(Layout.Command.id, id.toNat), (Layout.Command.argCount, args.length),
        (Layout.Command.hasNext, hasNext.toNat)].map Prod.fst = Layout.Command.shape.fields := rfl
    have behind := (skips_int .i32).rows (Format.rows_int_iff.mpr ⟨words, rfl⟩) rest
    rw [List.append_assoc, command, word_pack .u32 same rfl rfl, past_encode,
      Layout.Shape.get_pack same (by simp) few]
    exact ⟨behind, Layout.Shape.flag_pack same _ hasNext (by simp) (by decide)⟩

/-- A row of commands is walked to its end, by the flags that say that another follows. -/
theorem row_append {index : Nat} {commands : List Command}
    (formatted : Format.Links (fun _ => Format.command) index bytes commands) (rest : Bytes) :
    (if (!commands.isEmpty) = true then row (bytes ++ rest) else bytes ++ rest) = rest := by
  induction formatted with
  | nil => rfl
  | @cons _ front behind command others first _ inductionHypothesis =>
    obtain ⟨skipped, next⟩ := command_append first (behind ++ rest)
    show row (front ++ behind ++ rest) = rest
    rw [List.append_assoc, row, next, skipped]
    exact inductionHypothesis

theorem commandPack_append {commands : List Command} (formatted : Format.commandPack bytes commands)
    (rest : Bytes) : commandPack (bytes ++ rest) = rest := by
  cases formatted with
  | @intro rowBytes _ row =>
    have same : [(Layout.Pack.hasCommands, (!commands.isEmpty).toNat)].map Prod.fst =
      Layout.Pack.shape.fields := rfl
    rw [List.append_assoc, Layout.putFlag_eq_pack, commandPack, past_encode,
      word_pack .u16 same rfl rfl,
      Layout.Shape.flag_pack same _ (!commands.isEmpty) (by simp) (by decide)]
    exact row_append row rest

theorem skips_condition : Skips condition Format.condition := by
  rintro _ _ ⟨_⟩ rest
  rw [condition, List.append_assoc, List.append_assoc, past_encode, past_encode, past_encode]

/-- A body is skipped with its condition and its commands, by its flags. -/
theorem skips_body : Skips body Format.body := by
  rintro _ _ @⟨target, test, commands, testBytes, rowBytes, _, condition, row⟩ rest
  have same : [(Layout.Body.hasCondition, test.isSome.toNat),
      (Layout.Body.hasCommands, (!commands.isEmpty).toNat)].map Prod.fst =
    Layout.Body.shape.fields := rfl
  have flag (field : Layout.Field) (set : Bool) := Layout.Shape.flag_pack same field set
  unfold body
  simp only [List.append_assoc, past_encode, word_pack .u16 same rfl rfl,
    flag Layout.Body.hasCondition test.isSome (by simp) (by decide),
    flag Layout.Body.hasCommands (!commands.isEmpty) (by simp) (by decide),
    skips_condition.optional condition, row_append row]

/-! #### States -/

theorem settings_append {mask : Nat} {entries : List (String × Nat)} {assigns : List Assign}
    (formatted : Format.settings mask entries bytes assigns) (rest : Bytes) :
    (past .u8)^[(entries.filter fun entry =>
      (Encode.settingField entry.2).flag mask).length] (bytes ++ rest) = rest := by
  induction formatted with
  | nil => rfl
  | skip clear _ inductionHypothesis =>
    rwa [List.filter_cons_of_neg (by simp [clear])]
  | take set first _ inductionHypothesis =>
    rw [List.filter_cons_of_pos (by simp [set]), List.length_cons, List.append_assoc,
      Function.iterate_succ_apply, skips_int .u8 first, inductionHypothesis]

/-- A packet is skipped with the settings of its mask and its data words. -/
theorem skips_controlPacket : Skips controlPacket Format.controlPacket := by
  rintro _ _ @⟨mask, assigns, data, settingBytes, small, settings, few, words⟩ rest
  have same : [(Layout.ControlPacket.settingsMask, mask),
      (Layout.ControlPacket.dataCount, data.length)].map Prod.fst =
    Layout.ControlPacket.shape.fields := rfl
  have behind := (skips_int .i32).rows (Format.rows_int_iff.mpr ⟨words, rfl⟩) rest
  unfold controlPacket
  simp only [List.append_assoc, past_encode, word_pack .u32 same rfl rfl,
    Layout.Shape.get_pack same List.mem_cons_self small,
    Layout.Shape.get_pack same (List.mem_cons_of_mem _ List.mem_cons_self) few,
    Decode.maskedSettings, List.length_map, settings_append settings, behind]

/-- At a state the walk notes what the state runs, goes on behind it and knows whether another
state follows. -/
theorem state_append {index : Nat} {value : State} {targets : List Nat} {hasNext : Bool}
    (formatted : Format.state .numbersOnly index bytes ((value, targets), hasNext))
    (rest : Bytes) :
    state (bytes ++ rest) = rest ∧ target (bytes ++ rest) = value.ids ∧
      Layout.State.hasNext.flag (word .u16 (bytes ++ rest)) = hasNext := by
  cases formatted with
  | @intro slot skipFirst nonBlocking _ word slotAttributes reference packet bodies packetBytes
      bodyBytes _ runs packetFormat bodyRows few =>
    have same : [(Layout.State.bodyCount, bodies.length),
        (Layout.State.skipFirstBody, skipFirst.toNat),
        (Layout.State.nonBlocking, nonBlocking.toNat),
        (Layout.State.usesObjectSlot, slot.toNat),
        (Layout.State.hasControlPacket, packet.isSome.toNat),
        (Layout.State.hasNext, hasNext.toNat)].map Prod.fst = Layout.State.shape.fields := rfl
    have flag (field : Layout.Field) (set : Bool) := Layout.Shape.flag_pack same field set
    refine ⟨?_, ?_, ?_⟩
    · unfold state
      simp only [List.append_assoc, past_encode, word_pack .u16 same rfl rfl,
        Layout.Shape.get_pack same List.mem_cons_self few,
        flag Layout.State.hasControlPacket packet.isSome (by simp) (by decide),
        skips_controlPacket.optional packetFormat, skips_body.rows bodyRows]
    · unfold target
      simp only [List.append_assoc, past_encode, word_pack .u16 same rfl rfl, int_encode runs.holds,
        flag Layout.State.usesObjectSlot slot (by simp) (by decide)]
      cases runs with
      | slot => rfl
      | nothing => rfl
      | graph natural _ named =>
        rw [DecompileResolvers.reference_numbersOnly] at named
        cases named
        have proper : (word == noIndex) = false := by
          refine beq_eq_false_iff_ne.mpr fun same => ?_
          rw [same] at natural
          exact absurd natural (by decide)
        rw [proper]
        rfl
    · rw [List.append_assoc, List.append_assoc, List.append_assoc, word_pack .u16 same rfl rfl,
        flag Layout.State.hasNext hasNext (by simp) (by decide)]

/-- The walk along a chain of states notes what they run. -/
theorem states_append {index : Nat} {entries : List (State × List Nat)} (some : entries ≠ [])
    (formatted : Format.Links (Format.state .numbersOnly) index bytes entries) (rest : Bytes) :
    states (bytes ++ rest) = (entries.map Prod.fst).flatMap State.ids := by
  induction formatted with
  | nil => exact absurd rfl some
  | @cons _ front behind entry others first _ inductionHypothesis =>
    obtain ⟨skipped, found, next⟩ := state_append first (behind ++ rest)
    rw [List.append_assoc, states, found, next, skipped, List.map_cons, List.flatMap_cons]
    refine congrArg (entry.1.ids ++ ·) ?_
    cases others with
    | nil => rfl
    | cons second others => exact inductionHypothesis (List.cons_ne_nil _ _)

/-! #### Graphs and scripts -/

theorem skips_assigner : Skips assigner (Format.assigner .numbersOnly) := by
  rintro _ _ ⟨_⟩ rest
  rw [assigner, List.append_assoc, past_encode, past_encode]

theorem object_append {value : Assigner} (formatted : Format.assigner .numbersOnly bytes value)
    (rest : Bytes) : object (bytes ++ rest) = value.ids := by
  cases formatted with
  | intro fits named _ =>
    rw [DecompileResolvers.reference_numbersOnly] at named
    cases named
    rw [object, List.append_assoc, int_encode fits]
    rfl

/-- In a graph the walk finds the objects of its starter and what its states run. -/
theorem graph_append {name : String} {attributes : List Attribute} {value : Behaviour}
    (formatted : Format.behaviour .numbersOnly name attributes bytes value) (rest : Bytes) :
    graph (bytes ++ rest) = value.ids := by
  cases formatted with
  | @intro start priority unknown setup entries setupBytes stateBytes started _ _ _ setupFormat
      links =>
    have same : [(Layout.Graph.startState, start), (Layout.Graph.priority, priority),
        (Layout.Graph.hasStarter, setup.isSome.toNat),
        (Layout.Graph.unknown, unknown)].map Prod.fst = Layout.Graph.shape.fields := rfl
    have some : entries ≠ [] :=
      List.ne_nil_of_length_pos (Nat.lt_of_le_of_lt (Nat.zero_le _) started)
    have found := states_append some links rest
    unfold graph
    rw [List.append_assoc, List.append_assoc]
    simp only [past_encode, word_pack .u32 same rfl rfl,
      Layout.Shape.flag_pack same Layout.Graph.hasStarter setup.isSome (by simp) (by decide)]
    cases setupFormat with
    | absent => exact found
    | present starterFormat =>
      cases starterFormat with
      | @intro assigners assignerBytes few rows =>
        have objects :=
          collect_rows skips_assigner (fun _ _ => object_append) rows (stateBytes ++ rest)
        have behind := skips_assigner.rows rows (stateBytes ++ rest)
        simp only [Option.isSome_some, if_true, List.append_assoc, past_encode,
          word_encode rfl few, objects, behind, found]
        exact congrArg (· ++ _) (List.append_nil _).symm

/-- In an entry the walk finds the ID and what its graph has. -/
theorem entry_append {value : Nat × Behaviour} (formatted : Format.entry .numbersOnly bytes value)
    (rest : Bytes) :
    entry (bytes ++ rest) = value.2.graphId?.toList.map (Capability.graph, ·) ++ value.2.ids := by
  cases formatted with
  | @intro id name attributes content graphBytes small _ named formatted =>
    have fits : IntFormat.u32.holds id = true :=
      IntFormat.holds_iff.mpr ⟨Int.natCast_nonneg _, (IntFormat.le_max_iff rfl).mpr small⟩
    have told : content.graphId? = some (id : Int) := by
      cases named
      cases formatted
      rfl
    rw [entry, List.append_assoc, List.append_assoc, int_encode fits, past_encode, past_encode,
      graph_append formatted, told]
    rfl

theorem skips_behindEntry : Skips behindEntry (Format.entry .numbersOnly) := by
  rintro _ _ @⟨id, _, _, content, graphBytes, _, short, _, _⟩ rest
  unfold behindEntry
  simp only [List.append_assoc, past_encode, word_encode rfl short, List.drop_left]

theorem skips_pack : Skips pack (Format.pack .numbersOnly) := by
  rintro _ _ ⟨commands, _, _⟩ rest
  rw [pack, List.append_assoc, commandPack_append commands, past_encode]

theorem packScript_append {value : CommandPack} (formatted : Format.pack .numbersOnly bytes value)
    (rest : Bytes) : packScript (bytes ++ rest) = value.ids := by
  cases formatted with
  | intro commands fits named =>
    rw [DecompileResolvers.reference_numbersOnly] at named
    cases named
    rw [packScript, List.append_assoc, commandPack_append commands, int_encode fits]
    rfl

/-- In the bytes of a script the walk finds the IDs of the script. -/
theorem assets_eq {kind : ItemKind} {name : String} {script : Script}
    (formatted : Format.script .numbersOnly name kind bytes script) :
    assets kind bytes = script.ids := by
  cases formatted with
  | library formatted =>
    cases formatted with
    | @intro unknown entries rowBytes few _ rows =>
      have found := collect_rows skips_behindEntry (fun _ _ => entry_append) rows []
      rw [List.append_nil] at found
      rw [assets, List.append_assoc, word_encode rfl few, past_encode, past_encode, found,
        Script.ids, List.flatMap_map]
  | behaviour formatted =>
    have found := graph_append formatted []
    rwa [List.append_nil] at found
  | sequence formatted =>
    cases formatted with
    | @intro instanceType globalIndex unknown packs commands packBytes rowBytes _ _ _ few rows _ =>
      have same : [(Layout.Sequence.instanceType, instanceType),
          (Layout.Sequence.globalIndex, globalIndex), (Layout.Sequence.packCount, packs.length),
          (Layout.Sequence.unknown, unknown)].map Prod.fst = Layout.Sequence.shape.fields := rfl
      rw [assets, List.append_assoc, word_pack .u32 same rfl rfl, past_encode,
        Layout.Shape.get_pack same (by simp) few,
        collect_rows skips_pack (fun _ _ => packScript_append) rows rowBytes]
      rfl

end Walk

end BehaviourScript
