/-
This file writes the binary format down as relations between bytes and what they
stand for, record by record. A relation holds between the words and bytes of a
record and the piece of a script that is read from them, so that what is read
and what is written can be compared with it one by one.
-/

import BehaviourScript.Compiler
import BehaviourScript.Proofs.Binary.Reads

namespace BehaviourScript

open Decode (attr number stateName unknownAttribute)

namespace Format

/-! ### Commands -/

inductive command : Format (Command × Bool)
  | intro {id : UInt16} {args : List Int} {hasNext : Bool} :
      args.length ≤ Layout.Command.argCount.max →
      (∀ arg ∈ args, IntFormat.i32.holds arg = true) →
      command
        (IntFormat.u32.encode (Layout.pack
            [(Layout.Command.id, id.toNat), (Layout.Command.argCount, args.length),
              (Layout.Command.hasNext, hasNext.toNat)])
          ++ args.flatMap IntFormat.i32.encode)
        (⟨id, args.map number, .dummy⟩, hasNext)

/-- A row of commands, which may be empty. -/
def row : Format (List Command) := Links (fun _ => command) 0

/-- A row of commands behind a flag. -/
inductive commandPack : Format (List Command)
  | intro {bytes : Bytes} {commands : List Command} :
      row bytes commands →
      commandPack
        (IntFormat.u16.encode (Layout.Pack.hasCommands.putFlag (!commands.isEmpty)) ++ bytes)
        commands

/-! ### Bodies -/

inductive condition : Format Condition
  | intro {id : UInt16} {negate : Bool} {parameter : Int} :
      IntFormat.i32.holds parameter = true →
      condition
        (IntFormat.u16.encode id.toNat
          ++ IntFormat.u16.encode (Layout.Condition.negate.putFlag negate)
          ++ IntFormat.i32.encode parameter)
        ⟨id, negate, if parameter = 0 then none else some (number parameter), .dummy⟩

/-- What stands for the place of a state, or for none. -/
def jumpWord : Option Nat → Int
  | some index => index
  | none => noIndex

/-- A body and the place of the state it jumps to. -/
inductive body : Format (StateBody × Option Nat)
  | intro {target : Option Nat} {test : Option Condition} {commands : List Command}
      {testBytes rowBytes : Bytes} :
      (∀ index ∈ target, (index : Int) ≤ IntFormat.i16.max) → condition.Optional testBytes test →
      row rowBytes commands →
      body
        (IntFormat.u16.encode (Layout.pack
            [(Layout.Body.hasCondition, test.isSome.toNat),
              (Layout.Body.hasCommands, (!commands.isEmpty).toNat)])
          ++ IntFormat.i16.encode (jumpWord target) ++ testBytes ++ rowBytes)
        (⟨test, commands, target.map stateName, .dummy⟩, target)

/-! ### States -/

/-- The values of the settings whose bits are set, out of settings and their bits. -/
inductive settings (mask : Nat) : List (String × Nat) → Format (List Assign)
  | nil : settings mask [] [] []
  | skip {name : String} {bit : Nat} {entries : List (String × Nat)} {assigns : List Assign}
      {bytes : Bytes} :
      (Encode.settingField bit).flag mask = false → settings mask entries bytes assigns →
      settings mask ((name, bit) :: entries) bytes assigns
  | take {name : String} {bit : Nat} {entries : List (String × Nat)} {assigns : List Assign}
      {word : Int} {front behind : Bytes} :
      (Encode.settingField bit).flag mask = true → int .u8 front word →
      settings mask entries behind assigns →
      settings mask ((name, bit) :: entries) (front ++ behind)
        (⟨name, number word, .dummy⟩ :: assigns)

inductive controlPacket : Format ControlPacket
  | intro {mask : Nat} {assigns : List Assign} {data : List Int} {bytes : Bytes} :
      mask ≤ Layout.ControlPacket.settingsMask.max →
      settings mask Catalogue.settings.zipIdx bytes assigns →
      data.length ≤ Layout.ControlPacket.dataCount.max →
      (∀ word ∈ data, IntFormat.i32.holds word = true) →
      controlPacket
        (IntFormat.u32.encode (Layout.pack
            [(Layout.ControlPacket.settingsMask, mask),
              (Layout.ControlPacket.dataCount, data.length)])
          ++ bytes ++ data.flatMap IntFormat.i32.encode)
        ⟨assigns, data.map number⟩

/-- What a state runs: whether the word is an object slot, the word, and the attributes and the
reference that it is read as. -/
inductive target (resolvers : DecompileResolvers) :
    Bool → Int → List Attribute → Option Reference → Prop
  | slot {slot : Int} :
      0 ≤ slot → slot ≤ IntFormat.i16.max →
      target resolvers true slot [attr (.useObjectSlot (number slot))] none
  | nothing : target resolvers false noIndex [] none
  | graph {id : Int} {reference : Reference} :
      0 ≤ id → id ≤ IntFormat.i16.max → resolvers.reference .stateGraph id = .ok reference →
      target resolvers false id [] (some reference)

theorem target.holds {resolvers : DecompileResolvers} {slot : Bool} {word : Int}
    {attributes : List Attribute} {reference : Option Reference}
    (formatted : target resolvers slot word attributes reference) :
    IntFormat.i16.holds word = true := by
  have low : IntFormat.i16.min ≤ 0 := by decide
  cases formatted with
  | slot natural high => exact IntFormat.holds_iff.mpr ⟨Int.le_trans low natural, high⟩
  | nothing => decide
  | graph natural high _ => exact IntFormat.holds_iff.mpr ⟨Int.le_trans low natural, high⟩

/-- The attributes of a state behind its slot. -/
def stateAttributes (packet : Option ControlPacket) (nonBlocking skipFirst : Bool) :
    List Attribute :=
  packet.toList.map (fun packet => attr (.controlPacket packet))
    ++ (if nonBlocking then [attr .nonBlocking] else [])
    ++ if skipFirst then [attr .skipFirstBody] else []

/-- A state at a place, with the places of the states that it jumps to. -/
inductive state (resolvers : DecompileResolvers) (index : Nat) : Format ((State × List Nat) × Bool)
  | intro {slot skipFirst nonBlocking hasNext : Bool} {word : Int} {slotAttributes : List Attribute}
      {reference : Option Reference} {packet : Option ControlPacket}
      {bodies : List (StateBody × Option Nat)} {packetBytes bodyBytes : Bytes} :
      index ≠ Decode.stateLimit → target resolvers slot word slotAttributes reference →
      controlPacket.Optional packetBytes packet → body.Rows bodyBytes bodies →
      bodies.length ≤ Layout.State.bodyCount.max →
      state resolvers index
        (IntFormat.u16.encode (Layout.pack
            [(Layout.State.bodyCount, bodies.length),
              (Layout.State.skipFirstBody, skipFirst.toNat),
              (Layout.State.nonBlocking, nonBlocking.toNat),
              (Layout.State.usesObjectSlot, slot.toNat),
              (Layout.State.hasControlPacket, packet.isSome.toNat),
              (Layout.State.hasNext, hasNext.toNat)])
          ++ IntFormat.i16.encode word ++ packetBytes ++ bodyBytes)
        ((⟨slotAttributes ++ stateAttributes packet nonBlocking skipFirst, stateName index, reference,
          bodies.map Prod.fst, .dummy⟩, bodies.filterMap Prod.snd), hasNext)

/-! ### Behaviours -/

inductive assigner (resolvers : DecompileResolvers) : Format Assigner
  | intro {id : Int} {object : Reference} {word : Nat} :
      IntFormat.u16.holds id = true → resolvers.reference .globalObject id = .ok object →
      word < IntFormat.u16.modulus →
      assigner resolvers (IntFormat.u16.encode id ++ IntFormat.u16.encode word)
        ⟨object, Decode.assignerFields word, .dummy⟩

inductive starter (resolvers : DecompileResolvers) : Format Starter
  | intro {assigners : List Assigner} {bytes : Bytes} :
      assigners.length < IntFormat.u16.modulus → (assigner resolvers).Rows bytes assigners →
      starter resolvers (IntFormat.u16.encode assigners.length ++ bytes) ⟨assigners, .dummy⟩

/-- A behaviour of a name, with more attributes in front of its own. -/
inductive behaviour (resolvers : DecompileResolvers) (name : String)
    (attributes : List Attribute) : Format Behaviour
  | intro {start priority unknown : Nat} {setup : Option Starter}
      {states : List (State × List Nat)} {setupBytes stateBytes : Bytes} :
      start < states.length → start ≤ Layout.Graph.startState.max →
      priority ≤ Layout.Graph.priority.max → unknown ≤ Layout.Graph.unknown.max →
      (starter resolvers).Optional setupBytes setup → Links (state resolvers) 0 stateBytes states →
      (∀ entry ∈ states, ∀ target ∈ entry.2, target < states.length) →
      behaviour resolvers name attributes
        (IntFormat.u32.encode (Layout.pack
            [(Layout.Graph.startState, start), (Layout.Graph.priority, priority),
              (Layout.Graph.hasStarter, setup.isSome.toNat), (Layout.Graph.unknown, unknown)])
          ++ setupBytes ++ stateBytes)
        { attributes := attributes
            ++ [attr (.priority (number priority)), attr (.startFrom (stateName start))]
            ++ unknownAttribute unknown
          name := name
          consts := []
          starter := setup
          states := states.map Prod.fst
          span := .dummy }

/-! ### Whole scripts -/

/-- A behaviour of a library with the ID of its graph. -/
inductive entry (resolvers : DecompileResolvers) : Format (Nat × Behaviour)
  | intro {id : Nat} {name : String} {attributes : List Attribute} {content : Behaviour}
      {bytes : Bytes} :
      id < IntFormat.u32.modulus → bytes.length < IntFormat.u32.modulus →
      Decode.entryName resolvers id = .ok (name, attributes) →
      behaviour resolvers name attributes bytes content →
      entry resolvers (IntFormat.u32.encode id ++ IntFormat.u32.encode bytes.length ++ bytes)
        (id, content)

inductive library (resolvers : DecompileResolvers) (name : String) : Format Library
  | intro {unknown : Nat} {entries : List (Nat × Behaviour)} {bytes : Bytes} :
      entries.length < IntFormat.u16.modulus → unknown < IntFormat.u16.modulus →
      (entry resolvers).Rows bytes entries →
      library resolvers name
        (IntFormat.u16.encode entries.length ++ IntFormat.u16.encode unknown ++ bytes)
        ⟨unknownAttribute unknown, name, [], entries.map Prod.snd, .dummy⟩

inductive pack (resolvers : DecompileResolvers) : Format CommandPack
  | intro {id : Int} {script : Reference} {commands : List Command} {bytes : Bytes} :
      commandPack bytes commands → IntFormat.u16.holds id = true →
      resolvers.reference .graph id = .ok script →
      pack resolvers (bytes ++ IntFormat.u16.encode id) ⟨script, commands, .dummy⟩

inductive sequence (resolvers : DecompileResolvers) (name : String) : Format Sequence
  | intro {instanceType globalIndex unknown : Nat} {packs : List CommandPack}
      {commands : List Command} {packBytes rowBytes : Bytes} :
      instanceType ≤ Layout.Sequence.instanceType.max →
      globalIndex ≤ Layout.Sequence.globalIndex.max → unknown ≤ Layout.Sequence.unknown.max →
      packs.length ≤ Layout.Sequence.packCount.max → (pack resolvers).Rows packBytes packs →
      commandPack rowBytes commands →
      sequence resolvers name
        (IntFormat.u32.encode (Layout.pack
            [(Layout.Sequence.instanceType, instanceType),
              (Layout.Sequence.globalIndex, globalIndex),
              (Layout.Sequence.packCount, packs.length), (Layout.Sequence.unknown, unknown)])
          ++ packBytes ++ rowBytes)
        ⟨[attr (.globalIndex (number globalIndex)), attr (.instanceType (number instanceType))]
          ++ unknownAttribute unknown, name, [], packs, commands, .dummy⟩

/-- A script of a kind and a name. -/
inductive script (resolvers : DecompileResolvers) (name : String) : ItemKind → Format Script
  | library {bytes : Bytes} {content : Library} :
      library resolvers name bytes content → script resolvers name .library bytes (.library content)
  | behaviour {bytes : Bytes} {content : Behaviour} :
      behaviour resolvers name [] bytes content →
      script resolvers name .behaviour bytes (.behaviour content)
  | sequence {bytes : Bytes} {content : Sequence} :
      sequence resolvers name bytes content →
      script resolvers name .sequence bytes (.sequence content)

end Format

end BehaviourScript
