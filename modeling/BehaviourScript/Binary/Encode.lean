/-
This file writes an analysed script as the binary that the engine loads.
Expressions are evaluated, references become IDs, and every number is checked
against the range of its place before it is written. Nothing is cut off.
-/

import BehaviourScript.Error
import BehaviourScript.Scope

namespace BehaviourScript

namespace Quantity

/-- Takes a value that is in a quantity's range. -/
def fit (quantity : Quantity) (value : Int) : Outcome Int :=
  if quantity.holds value then .ok value
  else .error (.semantic (.outOfRange quantity value))

/-- Evaluates an expression to a value in a quantity's range. -/
def measure (quantity : Quantity) (env : Env) (expr : Expr) : Outcome Int := do
  quantity.fit (← Outcome.ofSemantic (env.eval expr))

end Quantity

/-- What stands where a state or a target is missing. -/
def noIndex : Int := -1

namespace Encode

open Outcome

/-- The bytes of one command; `hasNext` says whether another follows. -/
def command (env : Env) (hasNext : Bool) (command : Command) : Outcome Bytes := do
  let argCount ← (Quantity.argumentCount command.id).fit command.args.length
  let args ← command.args.mapM ((Quantity.argument command.id).measure env)
  let word := Layout.pack
    [(Layout.Command.id, command.id.toNat), (Layout.Command.argCount, argCount.toNat),
      (Layout.Command.hasNext, hasNext.toNat)]
  return IntFormat.u32.encode word ++ args.flatMap IntFormat.i32.encode

/-- The bytes of a row of commands. -/
def commands (env : Env) : List Command → Outcome Bytes
  | [] => .ok []
  | first :: rest => do
    let head ← command env (!rest.isEmpty) first
    let tail ← commands env rest
    return head ++ tail

/-- The bytes of a row of commands behind a flag that says whether there are
any. -/
def commandPack (env : Env) (row : List Command) : Outcome Bytes := do
  let bytes ← commands env row
  return IntFormat.u16.encode (Layout.Pack.hasCommands.putFlag (!row.isEmpty)) ++ bytes

/-- The place of a state in a behaviour. The first of several of one name
counts. -/
def stateIndex (states : List State) (name : String) (position : Position) : Outcome Nat :=
  match states.findIdx? (·.name == name) with
  | some index => .ok index
  | none => .error (.semantic (.undefinedState name position))

/-- The bytes of a condition. A missing parameter is zero. -/
def condition (env : Env) (condition : Condition) : Outcome Bytes := do
  let parameter ←
    match condition.parameter with
    | some expr => (Quantity.conditionParameter condition.id).measure env expr
    | none => pure 0
  return IntFormat.u16.encode condition.id.toNat
    ++ IntFormat.u16.encode (Layout.Condition.negate.putFlag condition.negate)
    ++ IntFormat.i32.encode parameter

/-- The bytes of a body. -/
def body (env : Env) (states : List State) (body : StateBody) : Outcome Bytes := do
  let header := Layout.pack
    [(Layout.Body.hasCondition, body.condition.isSome.toNat),
      (Layout.Body.hasCommands, (!body.commands.isEmpty).toNat)]
  let jump ←
    match body.jump with
    | some target => Int.ofNat <$> stateIndex states target body.span.start
    | none => pure noIndex
  let test ←
    match body.condition with
    | some test => condition env test
    | none => pure []
  let row ← commands env body.commands
  return IntFormat.u16.encode header ++ IntFormat.i16.encode jump ++ test ++ row

/-- The bit and the value of a control packet setting. -/
def setting (env : Env) (setting : Assign) : Outcome (Nat × Int) := do
  match Catalogue.settingBit? setting.name with
  | none => throw (.semantic (.unknownSetting setting.name setting.span.start))
  | some bit => return (bit, ← (Quantity.setting setting.name).measure env setting.value)

/-- The field of a setting's bit in the mask. -/
def settingField (bit : Nat) : Layout.Field := ⟨bit, 1⟩

/-- The bits of all settings. -/
def settingBits : List Nat := List.range Catalogue.settings.length

/-- The bytes of a control packet. The values of the settings are in the order
of their bits, and the last value of a setting counts. -/
def controlPacket (env : Env) (packet : ControlPacket) : Outcome Bytes := do
  let given ← packet.settings.mapM (setting env)
  let values := given.foldl (fun values entry => Assoc.set entry.1 entry.2 values) []
  let mask := Layout.pack
    (settingBits.map fun bit => (settingField bit, (Assoc.contains bit values).toNat))
  let dataCount ← Quantity.dataCount.fit packet.data.length
  let header := Layout.pack
    [(Layout.ControlPacket.settingsMask, mask),
      (Layout.ControlPacket.dataCount, dataCount.toNat)]
  let data ← packet.data.mapM (Quantity.dataWord.measure env)
  return IntFormat.u32.encode header
    ++ (settingBits.filterMap (Assoc.get? · values)).flatMap IntFormat.u8.encode
    ++ data.flatMap IntFormat.i32.encode

/-- What the attributes of a state say. -/
structure StateSettings where
  skipFirstBody : Bool := false
  nonBlocking : Bool := false
  slot : Option Int := none
  packet : Option ControlPacket := none

/-- Takes in one attribute of a state. The last of several counts. -/
def stateSetting (env : Env) (settings : StateSettings) (attr : Attribute) :
    Outcome StateSettings :=
  match attr.kind with
  | .skipFirstBody => .ok { settings with skipFirstBody := true }
  | .nonBlocking => .ok { settings with nonBlocking := true }
  | .useObjectSlot expr => do
    let slot ← ofSemantic (env.eval expr)
    return { settings with slot := some slot }
  | .controlPacket packet => .ok { settings with packet := some packet }
  | _ => .ok settings

/-- What a state runs: the object slot, or else the graph it names, or else
nothing. -/
def stateTarget (resolvers : CompileResolvers) (slot : Option Int) (state : State) :
    Outcome Int :=
  match slot, state.target with
  | some slot, _ => (Quantity.stateTarget state.name).fit slot
  | none, some reference => do
    let id ← ofResolution (resolvers.reference .stateGraph reference)
    (Quantity.stateTarget state.name).fit id
  | none, none => .ok noIndex

/-- The bytes of a state; `hasNext` says whether another follows. -/
def state (resolvers : CompileResolvers) (env : Env) (states : List State) (hasNext : Bool)
    (state : State) : Outcome Bytes := do
  let bodyCount ← (Quantity.bodyCount state.name).fit state.bodies.length
  let settings ← state.attributes.foldlM (stateSetting env) {}
  let target ← stateTarget resolvers settings.slot state
  let header := Layout.pack
    [(Layout.State.bodyCount, bodyCount.toNat),
      (Layout.State.skipFirstBody, settings.skipFirstBody.toNat),
      (Layout.State.nonBlocking, settings.nonBlocking.toNat),
      (Layout.State.usesObjectSlot, settings.slot.isSome.toNat),
      (Layout.State.hasControlPacket, settings.packet.isSome.toNat),
      (Layout.State.hasNext, hasNext.toNat)]
  let packet ←
    match settings.packet with
    | some packet => controlPacket env packet
    | none => pure []
  let bodies ← state.bodies.mapM (body env states)
  return IntFormat.u16.encode header ++ IntFormat.i16.encode target ++ packet ++ bodies.flatten

/-- The bytes of a row of states of a behaviour. -/
def states (resolvers : CompileResolvers) (env : Env) (all : List State) :
    List State → Outcome Bytes
  | [] => .ok []
  | first :: rest => do
    let head ← state resolvers env all (!rest.isEmpty) first
    let tail ← states resolvers env all rest
    return head ++ tail

/-- The nibble of an assigner's field. -/
def assignerNibble? (name : String) : Option Layout.Field :=
  Assoc.get? name (Catalogue.assignerFields.zip Layout.Assigner.nibbles)

/-- The nibble and the value of an assigner's field. -/
def assignerField (env : Env) (field : Assign) : Outcome (Layout.Field × Nat) := do
  match assignerNibble? field.name with
  | none => throw (.semantic (.unknownAssignerField field.name field.span.start))
  | some nibble =>
    let value ← (Quantity.assignerField field.name).measure env field.value
    return (nibble, value.toNat)

/-- The bytes of an assigner. -/
def assigner (resolvers : CompileResolvers) (env : Env) (assigner : Assigner) :
    Outcome Bytes := do
  let id ← ofResolution (resolvers.reference .globalObject assigner.object)
  let object ← (Quantity.object assigner.object).fit id
  let fields ← assigner.fields.mapM (assignerField env)
  return IntFormat.u16.encode object ++ IntFormat.u16.encode (Layout.pack fields)

/-- The bytes of a starter. -/
def starter (resolvers : CompileResolvers) (env : Env) (starter : Starter) : Outcome Bytes := do
  let count ← Quantity.assignerCount.fit starter.assigners.length
  let assigners ← starter.assigners.mapM (assigner resolvers env)
  return IntFormat.u16.encode count ++ assigners.flatten

/-- What the attributes of a behaviour say. -/
structure GraphSettings where
  startState : Nat := 0
  priority : Nat := 0
  unknown : Nat := 0

/-- Takes in one attribute of a behaviour. The last of several counts. -/
def graphSetting (env : Env) (behaviour : Behaviour) (settings : GraphSettings)
    (attr : Attribute) : Outcome GraphSettings :=
  match attr.kind with
  | .startFrom name => do
    let index ← stateIndex behaviour.states name attr.span.start
    return { settings with startState := index }
  | .priority expr => do
    let value ← (Quantity.priority behaviour.name).measure env expr
    return { settings with priority := value.toNat }
  | .unknown expr => do
    let value ← (Quantity.behaviourUnknown behaviour.name).measure env expr
    return { settings with unknown := value.toNat }
  | _ => .ok settings

/-- The bytes of a behaviour. -/
def behaviour (resolvers : CompileResolvers) (env : Env) (behaviour : Behaviour) :
    Outcome Bytes := do
  let _ ← (Quantity.stateCount behaviour.name).fit behaviour.states.length
  let settings ← behaviour.attributes.foldlM (graphSetting env behaviour) {}
  let header := Layout.pack
    [(Layout.Graph.startState, settings.startState), (Layout.Graph.priority, settings.priority),
      (Layout.Graph.hasStarter, behaviour.starter.isSome.toNat),
      (Layout.Graph.unknown, settings.unknown)]
  let setup ←
    match behaviour.starter with
    | some setup => starter resolvers env setup
    | none => pure []
  let rows ← states resolvers env behaviour.states behaviour.states
  return IntFormat.u32.encode header ++ setup ++ rows

/-- The expression of the first `Unknown` attribute. -/
def unknown? (attributes : List Attribute) : Option Expr :=
  attributes.findSome? fun attr =>
    match attr.kind with
    | .unknown expr => some expr
    | _ => none

/-- The expression of the first `GlobalIndex` attribute. -/
def globalIndex? (attributes : List Attribute) : Option Expr :=
  attributes.findSome? fun attr =>
    match attr.kind with
    | .globalIndex expr => some expr
    | _ => none

/-- The ID of a behaviour's graph: what its attribute says, or else what the
host knows by its name. -/
def graphId (resolvers : CompileResolvers) (env : Env) (behaviour : Behaviour) :
    Outcome Int := do
  let id ←
    match globalIndex? behaviour.attributes with
    | some expr => ofSemantic (env.eval expr)
    | none => ofResolution (resolvers.id .graph behaviour.name)
  (Quantity.graphId behaviour.name).fit id

/-- The bytes of the behaviours of a library, each behind its ID and its
length. No two may share an ID; `taken` are the IDs before these. -/
def entries (resolvers : CompileResolvers) (table : SymbolTable) :
    (taken : List (Int × String)) → List Behaviour → Outcome Bytes
  | _, [] => .ok []
  | taken, first :: rest => do
    let env := table.behaviourEnv first.name
    let id ← graphId resolvers env first
    match Assoc.get? id taken with
    | some holder =>
      throw (.semantic (.duplicateGraphId id first.name holder first.span.start))
    | none =>
      let graph ← behaviour resolvers env first
      let length ← (Quantity.graphLength first.name).fit graph.length
      let others ← entries resolvers table ((id, first.name) :: taken) rest
      return IntFormat.u32.encode id ++ IntFormat.u32.encode length ++ graph ++ others

/-- The bytes of a library. -/
def library (resolvers : CompileResolvers) (table : SymbolTable) (library : Library) :
    Outcome Bytes := do
  let count ← (Quantity.behaviourCount library.name).fit library.behaviours.length
  let unknown ←
    match unknown? library.attributes with
    | some expr => (Quantity.libraryUnknown library.name).measure table.rootEnv expr
    | none => pure 0
  let graphs ← entries resolvers table [] library.behaviours
  return IntFormat.u16.encode count ++ IntFormat.u16.encode unknown ++ graphs

/-- What the attributes of a sequence say. -/
structure SequenceSettings where
  instanceType : Nat := 0
  globalIndex : Nat := 0
  unknown : Nat := 0

/-- Takes in one attribute of a sequence. The last of several counts. -/
def sequenceSetting (env : Env) (name : String) (settings : SequenceSettings)
    (attr : Attribute) : Outcome SequenceSettings :=
  match attr.kind with
  | .instanceType expr => do
    let value ← (Quantity.instanceType name).measure env expr
    return { settings with instanceType := value.toNat }
  | .globalIndex expr => do
    let value ← (Quantity.globalIndex name).measure env expr
    return { settings with globalIndex := value.toNat }
  | .unknown expr => do
    let value ← (Quantity.sequenceUnknown name).measure env expr
    return { settings with unknown := value.toNat }
  | _ => .ok settings

/-- The bytes of a pack: its commands and the script they run along with. -/
def pack (resolvers : CompileResolvers) (env : Env) (pack : CommandPack) : Outcome Bytes := do
  let row ← commandPack env pack.commands
  let id ← ofResolution (resolvers.reference .graph pack.script)
  let script ← (Quantity.script pack.script).fit id
  return row ++ IntFormat.u16.encode script

/-- The bytes of a sequence. -/
def sequence (resolvers : CompileResolvers) (env : Env) (sequence : Sequence) :
    Outcome Bytes := do
  let settings ← sequence.attributes.foldlM (sequenceSetting env sequence.name) {}
  let packCount ← (Quantity.packCount sequence.name).fit sequence.packs.length
  let header := Layout.pack
    [(Layout.Sequence.instanceType, settings.instanceType),
      (Layout.Sequence.globalIndex, settings.globalIndex),
      (Layout.Sequence.packCount, packCount.toNat),
      (Layout.Sequence.unknown, settings.unknown)]
  let packs ← sequence.packs.mapM (pack resolvers env)
  let row ← commandPack env sequence.commands
  return IntFormat.u32.encode header ++ packs.flatten ++ row

end Encode

/-- The binary of a script, whose consts are in a symbol table. -/
def emit (resolvers : CompileResolvers) (table : SymbolTable) : Script → Outcome Bytes
  | .library library => Encode.library resolvers table library
  | .behaviour behaviour => Encode.behaviour resolvers table.rootEnv behaviour
  | .sequence sequence => Encode.sequence resolvers table.rootEnv sequence

end BehaviourScript
