/-
This file says, without writing anything, what the binary can hold. A record fits
if it has no more items than its counts can tell, if its numbers are in the
ranges of their fields, and if the host knows the names in it. The length of a
record is known from its tree alone: only numbers depend on consts, and these
take the same room whatever they are.
-/

import Mathlib.Algebra.Ring.Nat
import Mathlib.Data.List.Forall2
import Mathlib.Tactic.MkIffOfInductiveProp
import BehaviourScript.Proofs.Canonical.Form

namespace BehaviourScript

open Canonical (pick)

/-! ### Lengths -/

namespace Command

/-- A word for the command and one for each argument. -/
def byteLength (command : Command) : Nat := 4 + 4 * command.args.length

end Command

namespace StateBody

/-- Two short words, the condition and the commands. -/
def byteLength (body : StateBody) : Nat :=
  4 + (if body.condition.isSome then 8 else 0) + (body.commands.map Command.byteLength).sum

end StateBody

namespace ControlPacket

/-- A word, a byte for each setting and a word for each piece of data. -/
def byteLength (packet : ControlPacket) : Nat :=
  4 + packet.settings.length + 4 * packet.data.length

end ControlPacket

namespace State

/-- Two short words, the control packet and the bodies. -/
def byteLength (state : State) : Nat :=
  4 + ((pick Attribute.Kind.controlPacket? state.attributes).map ControlPacket.byteLength).getD 0 +
    (state.bodies.map StateBody.byteLength).sum

end State

namespace Starter

/-- A count and two short words for each assigner. -/
def byteLength (starter : Starter) : Nat := 2 + 4 * starter.assigners.length

end Starter

namespace Behaviour

/-- A word, the starter and the states. -/
def byteLength (behaviour : Behaviour) : Nat :=
  4 + (behaviour.starter.map Starter.byteLength).getD 0 +
    (behaviour.states.map State.byteLength).sum

end Behaviour

namespace Library

/-- A word, and each behaviour behind its ID and its length. -/
def byteLength (library : Library) : Nat :=
  4 + (library.behaviours.map (8 + ·.byteLength)).sum

end Library

namespace CommandPack

/-- A flag, the commands and the script. -/
def byteLength (pack : CommandPack) : Nat := 4 + (pack.commands.map Command.byteLength).sum

end CommandPack

namespace Sequence

/-- A word, the packs, a flag and the commands. -/
def byteLength (sequence : Sequence) : Nat :=
  6 + (sequence.packs.map CommandPack.byteLength).sum +
    (sequence.commands.map Command.byteLength).sum

end Sequence

namespace Script

def byteLength : Script → Nat
  | library content => content.byteLength
  | behaviour content => content.byteLength
  | sequence content => content.byteLength

end Script

/-! ### Numbers and names -/

/-- An expression has a value in a range. -/
def Env.Between (env : Env) (low high : Int) (expr : Expr) : Prop :=
  ∃ value, env.eval expr = .ok value ∧ low ≤ value ∧ value ≤ high

/-- An expression has a value that 32 bits hold. -/
def Env.IsWord (env : Env) (expr : Expr) : Prop := env.Between (-2147483648) 2147483647 expr

/-- A reference has an ID in a range. A symbol has one only if the host knows it. -/
def CompileResolvers.Between (resolvers : CompileResolvers) (capability : Capability)
    (low high : Int) (reference : Reference) : Prop :=
  ∃ id, resolvers.reference capability reference = .ok id ∧ low ≤ id ∧ id ≤ high

/-! ### Records that fit -/

@[mk_iff]
structure Command.Fits (env : Env) (command : Command) : Prop where
  count : command.args.length ≤ 15
  args : ∀ arg ∈ command.args, env.IsWord arg

@[mk_iff]
structure StateBody.Fits (env : Env) (body : StateBody) : Prop where
  parameter : ∀ test ∈ body.condition, ∀ parameter ∈ test.parameter, env.IsWord parameter
  commands : ∀ command ∈ body.commands, command.Fits env

@[mk_iff]
structure ControlPacket.Fits (env : Env) (packet : ControlPacket) : Prop where
  settings : ∀ setting ∈ packet.settings, env.Between 0 255 setting.value
  count : packet.data.length ≤ 255
  data : ∀ word ∈ packet.data, env.IsWord word

@[mk_iff]
structure State.Fits (resolvers : CompileResolvers) (env : Env) (state : State) : Prop where
  count : state.bodies.length ≤ 31
  slot : ∀ slot ∈ pick Attribute.Kind.useObjectSlot? state.attributes, env.Between 0 32767 slot
  target : ∀ target ∈ state.target, resolvers.Between .stateGraph 0 32767 target
  packet : ∀ packet ∈ pick Attribute.Kind.controlPacket? state.attributes, packet.Fits env
  bodies : ∀ body ∈ state.bodies, body.Fits env

@[mk_iff]
structure Assigner.Fits (resolvers : CompileResolvers) (env : Env) (assigner : Assigner) :
    Prop where
  object : resolvers.Between .globalObject 0 65535 assigner.object
  fields : ∀ field ∈ assigner.fields, env.Between 0 15 field.value

@[mk_iff]
structure Starter.Fits (resolvers : CompileResolvers) (env : Env) (starter : Starter) : Prop where
  count : starter.assigners.length ≤ 65535
  assigners : ∀ assigner ∈ starter.assigners, assigner.Fits resolvers env

@[mk_iff]
structure Behaviour.Fits (resolvers : CompileResolvers) (env : Env) (behaviour : Behaviour) :
    Prop where
  count : behaviour.states.length ≤ 256
  priority : ∀ expr ∈ pick Attribute.Kind.priority? behaviour.attributes, env.Between 0 255 expr
  unknown : ∀ expr ∈ pick Attribute.Kind.unknown? behaviour.attributes, env.Between 0 255 expr
  starter : ∀ starter ∈ behaviour.starter, starter.Fits resolvers env
  states : ∀ state ∈ behaviour.states, state.Fits resolvers env

/-- The ID of a behaviour's graph in a library: what its attribute says, or else what the host
knows by its name. -/
def Behaviour.HasGraphId (resolvers : CompileResolvers) (env : Env) (behaviour : Behaviour)
    (id : Int) : Prop :=
  match pick Attribute.Kind.globalIndex? behaviour.attributes with
  | some expr => env.eval expr = .ok id
  | none => resolvers.id .graph behaviour.name = .ok id

/-- The IDs of behaviours are in range and no two are the same. -/
def GraphIdsFit (resolvers : CompileResolvers) (table : SymbolTable)
    (behaviours : List Behaviour) : Prop :=
  ∃ ids : List Int, ids.Nodup ∧ List.Forall₂ (fun behaviour id =>
    behaviour.HasGraphId resolvers (table.behaviourEnv behaviour.name) id ∧
      0 ≤ id ∧ id ≤ 4294967295) behaviours ids

@[mk_iff]
structure Library.Fits (resolvers : CompileResolvers) (table : SymbolTable) (library : Library) :
    Prop where
  count : library.behaviours.length ≤ 65535
  unknown : ∀ expr ∈ pick Attribute.Kind.unknown? library.attributes,
    table.rootEnv.Between 0 65535 expr
  graphIds : GraphIdsFit resolvers table library.behaviours
  behaviours : ∀ behaviour ∈ library.behaviours,
    behaviour.Fits resolvers (table.behaviourEnv behaviour.name) ∧
      behaviour.byteLength < 2 ^ 32

@[mk_iff]
structure CommandPack.Fits (resolvers : CompileResolvers) (env : Env) (pack : CommandPack) :
    Prop where
  commands : ∀ command ∈ pack.commands, command.Fits env
  script : resolvers.Between .graph 0 65535 pack.script

@[mk_iff]
structure Sequence.Fits (resolvers : CompileResolvers) (env : Env) (sequence : Sequence) :
    Prop where
  instanceType : ∀ expr ∈ pick Attribute.Kind.instanceType? sequence.attributes,
    env.Between 0 255 expr
  globalIndex : ∀ expr ∈ pick Attribute.Kind.globalIndex? sequence.attributes,
    env.Between 0 255 expr
  unknown : ∀ expr ∈ pick Attribute.Kind.unknown? sequence.attributes, env.Between 0 255 expr
  count : sequence.packs.length ≤ 255
  packs : ∀ pack ∈ sequence.packs, pack.Fits resolvers env
  commands : ∀ command ∈ sequence.commands, command.Fits env

/-- Everything in a script fits into the binary. -/
def Script.Fits (resolvers : CompileResolvers) (table : SymbolTable) : Script → Prop
  | library content => content.Fits resolvers table
  | behaviour content => content.Fits resolvers table.rootEnv
  | sequence content => content.Fits resolvers table.rootEnv

/-- What can be wrong with a script that passes the checks but does not fit. -/
def Error.IsLimit : Error → Prop
  | semantic (.outOfRange _ _) => True
  | semantic (.duplicateGraphId _ _ _ _) => True
  | resolution (.unresolved _ _) => True
  | _ => False

end BehaviourScript
