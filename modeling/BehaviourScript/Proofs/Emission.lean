/-
This file takes the writing of a binary apart. Where a record has a part that
may be missing, the part is named, and the record is shown to be its parts one
after the other; what a successful write needs is then read off part by part.
-/

import BehaviourScript.Proofs.Outcomes

namespace BehaviourScript

open Outcome

theorem Quantity.fit_eq_ok {quantity : Quantity} {given value : Int} :
    quantity.fit given = .ok value ↔ quantity.holds given = true ∧ given = value := by
  unfold fit
  split
  · next fits => exact ⟨fun same => ⟨fits, Except.ok.inj same⟩, fun same => congrArg _ same.2⟩
  · next tooLarge => exact ⟨nofun, fun same => absurd same.1 tooLarge⟩

theorem Quantity.measure_eq_ok {quantity : Quantity} {env : Env} {expr : Expr} {value : Int} :
    quantity.measure env expr = .ok value ↔
      env.eval expr = .ok value ∧ quantity.holds value = true := by
  unfold measure
  rw [bind_eq_ok]
  constructor
  · rintro ⟨given, evaluated, fitted⟩
    obtain ⟨fits, rfl⟩ := fit_eq_ok.mp fitted
    exact ⟨ofSemantic_eq_ok.mp evaluated, fits⟩
  · rintro ⟨evaluated, fits⟩
    exact ⟨value, ofSemantic_eq_ok.mpr evaluated, fit_eq_ok.mpr ⟨fits, rfl⟩⟩

namespace Encode

/-- The bytes of a part that may be missing. -/
def optional {α : Type} (write : α → Outcome Bytes) : Option α → Outcome Bytes
  | some part => write part
  | none => pure []

/-- The parameter of a condition. -/
def parameter (env : Env) (test : Condition) : Outcome Int :=
  match test.parameter with
  | some expr => (Quantity.conditionParameter test.id).measure env expr
  | none => pure 0

theorem condition_eq (env : Env) (test : Condition) :
    condition env test = do
      let given ← parameter env test
      return IntFormat.u16.encode test.id.toNat
        ++ IntFormat.u16.encode (Layout.Condition.negate.putFlag test.negate)
        ++ IntFormat.i32.encode given := by
  unfold condition parameter
  cases test.parameter <;> rfl

/-- The place of the state that a body jumps to. -/
def jump (states : List State) (content : StateBody) : Outcome Int :=
  match content.jump with
  | some target => Int.ofNat <$> stateIndex states target content.span.start
  | none => pure noIndex

theorem body_eq (env : Env) (states : List State) (content : StateBody) :
    body env states content = do
      let target ← jump states content
      let test ← optional (condition env) content.condition
      let row ← commands env content.commands
      return IntFormat.u16.encode (Layout.pack
          [(Layout.Body.hasCondition, content.condition.isSome.toNat),
            (Layout.Body.hasCommands, (!content.commands.isEmpty).toNat)])
        ++ IntFormat.i16.encode target ++ test ++ row := by
  unfold body jump
  cases content.jump <;> cases content.condition <;> rfl

theorem state_eq (resolvers : CompileResolvers) (env : Env) (all : List State) (hasNext : Bool)
    (content : State) :
    state resolvers env all hasNext content = do
      let bodyCount ← (Quantity.bodyCount content.name).fit content.bodies.length
      let settings ← content.attributes.foldlM (stateSetting env) {}
      let target ← stateTarget resolvers settings.slot content
      let packet ← optional (controlPacket env) settings.packet
      let bodies ← content.bodies.mapM (body env all)
      return IntFormat.u16.encode (Layout.pack
          [(Layout.State.bodyCount, bodyCount.toNat),
            (Layout.State.skipFirstBody, settings.skipFirstBody.toNat),
            (Layout.State.nonBlocking, settings.nonBlocking.toNat),
            (Layout.State.usesObjectSlot, settings.slot.isSome.toNat),
            (Layout.State.hasControlPacket, settings.packet.isSome.toNat),
            (Layout.State.hasNext, hasNext.toNat)])
        ++ IntFormat.i16.encode target ++ packet ++ bodies.flatten := by
  unfold state
  refine congrArg (bind _) (funext fun _ => congrArg (bind _) (funext fun settings => ?_))
  refine congrArg (bind _) (funext fun _ => ?_)
  cases settings.packet <;> rfl

theorem behaviour_eq (resolvers : CompileResolvers) (env : Env) (content : Behaviour) :
    behaviour resolvers env content = do
      let _ ← (Quantity.stateCount content.name).fit content.states.length
      let settings ← content.attributes.foldlM (graphSetting env content) {}
      let setup ← optional (starter resolvers env) content.starter
      let rows ← states resolvers env content.states content.states
      return IntFormat.u32.encode (Layout.pack
          [(Layout.Graph.startState, settings.startState),
            (Layout.Graph.priority, settings.priority),
            (Layout.Graph.hasStarter, content.starter.isSome.toNat),
            (Layout.Graph.unknown, settings.unknown)]) ++ setup ++ rows := by
  unfold behaviour
  refine congrArg (bind _) (funext fun _ => congrArg (bind _) (funext fun settings => ?_))
  cases content.starter <;> rfl

/-- The ID of a behaviour's graph before its range is checked. -/
def namedId (resolvers : CompileResolvers) (env : Env) (content : Behaviour) : Outcome Int :=
  match globalIndex? content.attributes with
  | some expr => ofSemantic (env.eval expr)
  | none => ofResolution (resolvers.id .graph content.name)

theorem graphId_eq (resolvers : CompileResolvers) (env : Env) (content : Behaviour) :
    graphId resolvers env content =
      namedId resolvers env content >>= (Quantity.graphId content.name).fit := by
  unfold graphId namedId
  cases globalIndex? content.attributes <;> rfl

/-- What is written for a library's behaviours is the first of them, behind its ID and its length,
and then the others. -/
theorem entries_cons_eq_ok {resolvers : CompileResolvers} {table : SymbolTable}
    {taken : List (Int × String)} {first : Behaviour} {rest : List Behaviour} {bytes : Bytes}
    (emitted : entries resolvers table taken (first :: rest) = .ok bytes) :
    ∃ id graph others, graphId resolvers (table.behaviourEnv first.name) first = .ok id ∧
      behaviour resolvers (table.behaviourEnv first.name) first = .ok graph ∧
      IntFormat.u32.holds graph.length = true ∧
      entries resolvers table ((id, first.name) :: taken) rest = .ok others ∧
      bytes = IntFormat.u32.encode id ++ IntFormat.u32.encode graph.length ++ graph ++ others := by
  unfold entries at emitted
  rw [bind_eq_ok] at emitted
  obtain ⟨id, found, emitted⟩ := emitted
  cases clash : Assoc.get? id taken with
  | some holder =>
    rw [clash] at emitted
    cases emitted
  | none =>
    rw [clash] at emitted
    simp only [bind_eq_ok, pure_eq_ok] at emitted
    obtain ⟨graph, graphEmitted, length, fitted, others, othersEmitted, same⟩ := emitted
    obtain ⟨short, rfl⟩ := Quantity.fit_eq_ok.mp fitted
    exact ⟨id, graph, others, found, graphEmitted, short, othersEmitted, same.symm⟩

/-- What the attributes of a library say. -/
def libraryUnknown (table : SymbolTable) (content : Library) : Outcome Int :=
  match unknown? content.attributes with
  | some expr => (Quantity.libraryUnknown content.name).measure table.rootEnv expr
  | none => pure 0

theorem library_eq (resolvers : CompileResolvers) (table : SymbolTable) (content : Library) :
    library resolvers table content = do
      let count ← (Quantity.behaviourCount content.name).fit content.behaviours.length
      let unknown ← libraryUnknown table content
      let graphs ← entries resolvers table [] content.behaviours
      return IntFormat.u16.encode count ++ IntFormat.u16.encode unknown ++ graphs := by
  unfold library libraryUnknown
  cases unknown? content.attributes <;> rfl

end Encode

end BehaviourScript
