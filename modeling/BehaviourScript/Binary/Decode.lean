/-
This file reads a binary back into a script. Every read stays within the bytes,
reserved bits must be zero, and chains end behind the first record that says so.
States come back as `State_0`, `State_1` and so on.
-/

import BehaviourScript.Binary.Decoder
import BehaviourScript.Binary.Encode
import BehaviourScript.Item

namespace BehaviourScript

namespace Decode

open Decoder

/-- How many states a behaviour may have. -/
def stateLimit : Nat := 256

/-- The name of the state at a place. -/
def stateName (index : Nat) : String := "State_" ++ toString index

/-- An attribute that no source text was read for. -/
def attr (kind : Attribute.Kind) : Attribute := ⟨kind, .dummy⟩

/-- A number that no source text was read for. -/
def number (value : Int) : Expr := .literal value

/-- An `Unknown` attribute, unless its value is zero. -/
def unknownAttribute (value : Nat) : List Attribute :=
  if value = 0 then [] else [attr (.unknown (number value))]

/-- Reads a command and whether another follows. -/
def command : Decoder (Command × Bool) := do
  let word ← header .command .u32 Layout.Command.reserved
  let args ← times (Layout.Command.argCount.get word) (int .i32)
  let id := UInt16.ofNat (Layout.Command.id.get word)
  return (⟨id, args.map number, .dummy⟩, Layout.Command.hasNext.flag word)

/-- Reads a row of commands. -/
def commands : Decoder (List Command) := chain fun _ => command

/-- Reads a row of commands behind a flag that says whether there are any. -/
def commandPack : Decoder (List Command) := do
  let flags ← header .commandPack .u16 Layout.Pack.reserved
  if Layout.Pack.hasCommands.flag flags then commands else return []

/-- A jump: where it stands in the binary and the place of the state it leads
to. -/
structure Jump where
  offset : Nat
  target : Nat
  deriving DecidableEq

/-- Reads a jump, if there is one. -/
def jump : Decoder (Option Jump) := do
  let start ← offset
  let target ← int .i16
  if target = noIndex then return none
  else if target < 0 then fail (.nonsense (.jump target) start)
  else return some ⟨start, target.toNat⟩

/-- Reads a condition. A parameter of zero is left out. -/
def condition : Decoder Condition := do
  let id ← nat .u16
  let flags ← header .conditionFlags .u16 Layout.Condition.reserved
  let parameter ← int .i32
  return ⟨UInt16.ofNat id, Layout.Condition.negate.flag flags,
    if parameter = 0 then none else some (number parameter), .dummy⟩

/-- Reads a body and its jump. -/
def body : Decoder (StateBody × Option Jump) := do
  let word ← header .bodyHeader .u16 Layout.Body.reserved
  let target ← jump
  let test ← if Layout.Body.hasCondition.flag word then some <$> condition else pure none
  let row ← if Layout.Body.hasCommands.flag word then commands else pure []
  return (⟨test, row, target.map fun jump => stateName jump.target, .dummy⟩, target)

/-- Reads the value of a control packet setting. -/
def setting (name : String) : Decoder Assign := do
  let value ← nat .u8
  return ⟨name, number value, .dummy⟩

/-- The settings whose bits are set in a mask, in the order of their bits. -/
def maskedSettings (mask : Nat) : List String :=
  (Catalogue.settings.zipIdx.filter fun entry =>
    (Encode.settingField entry.2).flag mask).map Prod.fst

/-- Reads a control packet. -/
def controlPacket : Decoder ControlPacket := do
  let word ← header .controlPacket .u32 Layout.ControlPacket.reserved
  let settings ← (maskedSettings (Layout.ControlPacket.settingsMask.get word)).mapM setting
  let data ← times (Layout.ControlPacket.dataCount.get word) (int .i32)
  return ⟨settings, data.map number⟩

/-- Reads what a state runs, given its header and where that stands: an object
slot as an attribute, or a graph. -/
def stateTarget (resolvers : DecompileResolvers) (word start : Nat) :
    Decoder (List Attribute × Option Reference) := do
  let target ← int .i16
  if Layout.State.usesObjectSlot.flag word then
    if target < 0 then fail (.nonsense (.objectSlot target) start)
    else return ([attr (.useObjectSlot (number target))], none)
  else if target = noIndex then return ([], none)
  else if target < 0 then fail (.nonsense (.stateTarget target) start)
  else
    let reference ← lift (Outcome.ofResolution (resolvers.reference .stateGraph target))
    return ([], some reference)

/-- A state with its jumps, as it is read from a chain. -/
structure StateRecord where
  state : State
  jumps : List Jump

/-- Reads the state at a place and whether another follows. -/
def state (resolvers : DecompileResolvers) (index : Nat) : Decoder (StateRecord × Bool) := do
  let start ← offset
  if index = stateLimit then fail (.nonsense .stateCount start)
  let word ← header .stateHeader .u16 Layout.State.reserved
  let (slot, target) ← stateTarget resolvers word start
  let packet ←
    if Layout.State.hasControlPacket.flag word then
      (fun packet => [attr (.controlPacket packet)]) <$> controlPacket
    else pure []
  let nonBlocking := if Layout.State.nonBlocking.flag word then [attr .nonBlocking] else []
  let skipFirst := if Layout.State.skipFirstBody.flag word then [attr .skipFirstBody] else []
  let bodies ← times (Layout.State.bodyCount.get word) body
  let attributes := slot ++ packet ++ nonBlocking ++ skipFirst
  let jumps := bodies.filterMap Prod.snd
  return (⟨⟨attributes, stateName index, target, bodies.map Prod.fst, .dummy⟩, jumps⟩,
    Layout.State.hasNext.flag word)

/-- The fields of an assigner that are not zero, in the order of their
nibbles. -/
def assignerFields (word : Nat) : List Assign :=
  (Catalogue.assignerFields.zip Layout.Assigner.nibbles).filterMap fun (name, nibble) =>
    if nibble.get word = 0 then none else some ⟨name, number (nibble.get word), .dummy⟩

/-- Reads an assigner. -/
def assigner (resolvers : DecompileResolvers) : Decoder Assigner := do
  let id ← int .u16
  let object ← lift (Outcome.ofResolution (resolvers.reference .globalObject id))
  let word ← nat .u16
  return ⟨object, assignerFields word, .dummy⟩

/-- Reads a starter. -/
def starter (resolvers : DecompileResolvers) : Decoder Starter := do
  let count ← nat .u16
  let assigners ← times count (assigner resolvers)
  return ⟨assigners, .dummy⟩

/-- The records of a behaviour's graph, before its jumps are followed. -/
structure GraphRecords where
  offset : Nat
  header : Nat
  starter : Option Starter
  states : List StateRecord

/-- Reads the records of a behaviour's graph. -/
def graphRecords (resolvers : DecompileResolvers) : Decoder GraphRecords := do
  let start ← offset
  let word ← header .behaviourHeader .u32 Layout.Graph.reserved
  let setup ←
    if Layout.Graph.hasStarter.flag word then some <$> starter resolvers else pure none
  let states ← chain (state resolvers)
  return ⟨start, word, setup, states⟩

namespace GraphRecords

/-- The first jump that leads to no state. -/
def lostJump? (records : GraphRecords) : Option Jump :=
  (records.states.flatMap StateRecord.jumps).find? fun jump =>
    records.states.length ≤ jump.target

/-- The behaviour that records make, with more attributes in front of its own.
Its jumps and its start must lead to states. -/
def behaviour (records : GraphRecords) (name : String) (attributes : List Attribute) :
    Outcome Behaviour :=
  let start := Layout.Graph.startState.get records.header
  match records.lostJump? with
  | some jump => .error (.format (.nonsense (.jump jump.target) jump.offset))
  | none =>
    if start < records.states.length then
      .ok {
        attributes := attributes
          ++ [attr (.priority (number (Layout.Graph.priority.get records.header))),
            attr (.startFrom (stateName start))]
          ++ unknownAttribute (Layout.Graph.unknown.get records.header)
        name := name
        consts := []
        starter := records.starter
        states := records.states.map StateRecord.state
        span := .dummy }
    else .error (.format (.nonsense (.startState start) records.offset))

end GraphRecords

/-- Reads a behaviour. -/
def behaviour (resolvers : DecompileResolvers) (name : String) (attributes : List Attribute) :
    Decoder Behaviour := do
  let records ← graphRecords resolvers
  lift (records.behaviour name attributes)

/-- What a behaviour of a library is called, and the attribute that keeps its
ID if the host has no identifier for it. -/
def entryName (resolvers : DecompileResolvers) (id : Nat) :
    Outcome (String × List Attribute) := do
  match ← Outcome.ofResolution (resolvers.graphIdentifier id) with
  | some name => return (name, [])
  | none => return (ItemKind.behaviour.fallbackName id, [attr (.globalIndex (number id))])

/-- Reads a behaviour of a library, which must be as long as it says. -/
def entry (resolvers : DecompileResolvers) : Decoder Behaviour := do
  let id ← nat .u32
  let declared ← nat .u32
  let start ← offset
  let (name, attributes) ← lift (entryName resolvers id)
  let graph ← behaviour resolvers name attributes
  let stop ← offset
  if stop - start = declared then return graph
  else fail (.lengthMismatch id declared (stop - start))

/-- Reads a library. -/
def library (resolvers : DecompileResolvers) (name : String) : Decoder Library := do
  let count ← nat .u16
  let unknown ← nat .u16
  let behaviours ← times count (entry resolvers)
  return ⟨unknownAttribute unknown, name, [], behaviours, .dummy⟩

/-- Reads a pack. -/
def pack (resolvers : DecompileResolvers) : Decoder CommandPack := do
  let row ← commandPack
  let id ← int .u16
  let script ← lift (Outcome.ofResolution (resolvers.reference .graph id))
  return ⟨script, row, .dummy⟩

/-- Reads a sequence. -/
def sequence (resolvers : DecompileResolvers) (name : String) : Decoder Sequence := do
  let word ← nat .u32
  let packs ← times (Layout.Sequence.packCount.get word) (pack resolvers)
  let row ← commandPack
  let attributes :=
    [attr (.globalIndex (number (Layout.Sequence.globalIndex.get word))),
      attr (.instanceType (number (Layout.Sequence.instanceType.get word)))]
    ++ unknownAttribute (Layout.Sequence.unknown.get word)
  return ⟨attributes, name, [], packs, row, .dummy⟩

/-- Reads a script of a kind. -/
def script (resolvers : DecompileResolvers) (kind : ItemKind) (name : String) :
    Decoder Script :=
  match kind with
  | .library => .library <$> library resolvers name
  | .behaviour => .behaviour <$> behaviour resolvers name []
  | .sequence => .sequence <$> sequence resolvers name

end Decode

/-- The script of a kind that bytes are. Its name must be an identifier. -/
def decode (kind : ItemKind) (bytes : Bytes) (name : String) (resolvers : DecompileResolvers) :
    Outcome Script :=
  if isIdentifier name then (Decode.script resolvers kind name).run bytes
  else .error (.resolution (.invalidName .graph name))

end BehaviourScript
