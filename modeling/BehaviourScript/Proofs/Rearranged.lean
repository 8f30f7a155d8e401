/-
This file proves that the order of attributes, of settings and of an assigner's
fields does not matter. Some attributes are written down as the fold over them
comes by and others are looked for; settings go to the places of their bits, and
fields into the bits of a word. None of this sees an order, because what is given
twice does not pass the checks.
-/

import BehaviourScript.Proofs.Unplaced

namespace BehaviourScript

/-! ### Scripts with attributes, settings and fields in another order -/

inductive ControlPacket.Rearranged : ControlPacket → ControlPacket → Prop
  | intro {packet : ControlPacket} {settings : List Assign} (perm : packet.settings.Perm settings) :
      Rearranged packet { packet with settings := settings }

/-- The same attribute, or a control packet with its settings in another order. -/
inductive Attribute.Rearranged : Attribute → Attribute → Prop
  | same {attr : Attribute} : Rearranged attr attr
  | controlPacket {packet other : ControlPacket} {span : Span} (rearranged : packet.Rearranged other) :
      Rearranged ⟨.controlPacket packet, span⟩ ⟨.controlPacket other, span⟩

/-- Attribute lists in another order, and their control packets too. -/
abbrev AttributesRearranged : List Attribute → List Attribute → Prop :=
  Shuffled Attribute.Rearranged

inductive State.Rearranged : State → State → Prop
  | intro {state : State} {attributes : List Attribute}
      (shuffled : AttributesRearranged state.attributes attributes) :
      Rearranged state { state with attributes := attributes }

inductive Assigner.Rearranged : Assigner → Assigner → Prop
  | intro {assigner : Assigner} {fields : List Assign} (perm : assigner.fields.Perm fields) :
      Rearranged assigner { assigner with fields := fields }

inductive Starter.Rearranged : Starter → Starter → Prop
  | intro {starter : Starter} {assigners : List Assigner}
      (each : List.Forall₂ Assigner.Rearranged starter.assigners assigners) :
      Rearranged starter { starter with assigners := assigners }

inductive Behaviour.Rearranged : Behaviour → Behaviour → Prop
  | intro {behaviour : Behaviour} {attributes : List Attribute} {starter : Option Starter}
      {states : List State} (shuffled : AttributesRearranged behaviour.attributes attributes)
      (setup : Option.Rel Starter.Rearranged behaviour.starter starter)
      (each : List.Forall₂ State.Rearranged behaviour.states states) :
      Rearranged behaviour
        { behaviour with attributes := attributes, starter := starter, states := states }

/-- Two scripts that are the same up to the order of each attribute list, of the settings of each
control packet and of the fields of each assigner. -/
inductive Script.Rearranged : Script → Script → Prop
  | library {content : Library} {attributes : List Attribute} {behaviours : List Behaviour}
      (shuffled : AttributesRearranged content.attributes attributes)
      (each : List.Forall₂ Behaviour.Rearranged content.behaviours behaviours) :
      Rearranged (.library content)
        (.library { content with attributes := attributes, behaviours := behaviours })
  | behaviour {content other : Behaviour} (rearranged : content.Rearranged other) :
      Rearranged (.behaviour content) (.behaviour other)
  | sequence {content : Sequence} {attributes : List Attribute}
      (shuffled : AttributesRearranged content.attributes attributes) :
      Rearranged (.sequence content) (.sequence { content with attributes := attributes })

/-! ### They are alike -/

theorem Assign.like_refl (assign : Assign) : assign.Like Eq assign := like_of_erase rfl

theorem Attribute.Rearranged.like {attr other : Attribute} (rearranged : attr.Rearranged other) :
    attr.Like Eq Eq other := by
  cases rearranged with
  | same => exact Attribute.like_of_erase rfl
  | @controlPacket packet _ _ rearranged =>
    cases rearranged with
    | intro perm =>
      have like : packet.Like Eq packet := ControlPacket.like_of_erase rfl
      exact .controlPacket { like with settings := .ofPerm perm Assign.like_refl }

theorem AttributesRearranged.like {attributes others : List Attribute}
    (rearranged : AttributesRearranged attributes others) :
    Shuffled (Attribute.Like Eq Eq) attributes others :=
  rearranged.imp fun _ _ => Attribute.Rearranged.like

theorem State.Rearranged.like {state other : State} (rearranged : state.Rearranged other) :
    state.Like Eq Eq other := by
  cases rearranged with
  | intro shuffled =>
    have like : state.Like Eq Eq state := State.like_of_erase rfl
    exact { like with attributes := shuffled.like }

theorem Assigner.Rearranged.like {assigner other : Assigner}
    (rearranged : assigner.Rearranged other) : assigner.Like Eq other := by
  cases rearranged with
  | intro perm => exact { object := rfl, fields := .ofPerm perm Assign.like_refl }

theorem Starter.Rearranged.like {starter other : Starter} (rearranged : starter.Rearranged other) :
    starter.Like Eq other := by
  cases rearranged with
  | intro each => exact each.imp fun _ _ => Assigner.Rearranged.like

theorem Behaviour.Rearranged.like {behaviour other : Behaviour}
    (rearranged : behaviour.Rearranged other) : behaviour.Like Eq other := by
  cases rearranged with
  | intro shuffled setup each =>
    have like : behaviour.LikeBy Eq Eq behaviour := Behaviour.likeBy_of_erase rfl
    exact ⟨Eq, biUnique_eq, { like with
      attributes := shuffled.like
      starter := rel_imp setup fun _ _ => Starter.Rearranged.like
      states := each.imp fun _ _ => State.Rearranged.like }⟩

theorem Script.Rearranged.like {script other : Script} (rearranged : script.Rearranged other) :
    script.Like Eq other := by
  cases rearranged with
  | @library content _ _ shuffled each =>
    have like : content.Like Eq content := Library.like_of_erase rfl
    exact .library { like with
      attributes := shuffled.like
      behaviours := each.imp fun _ _ => Behaviour.Rearranged.like }
  | behaviour rearranged => exact .behaviour rearranged.like
  | @sequence content _ shuffled =>
    have like : content.Like Eq content := Sequence.like_of_erase rfl
    exact .sequence { like with attributes := shuffled.like }

/-- Scripts that differ in the order of attributes, settings and fields are analysed alike, with
the same value for every name in every scope, and compile alike: both to the same bytes, or
neither. -/
theorem assemble_rearranged {first second : Script} (rearranged : first.Rearranged second) :
    Alike (fun analysed again => analysed.2.Same again.2) (analyze first) (analyze second) ∧
      ∀ resolvers, Alike Eq (assemble resolvers first) (assemble resolvers second) := by
  have like := rearranged.like
  refine ⟨?_, fun resolvers => ?_⟩
  · exact (like.analyze_alike biUnique_eq).mono fun _ _ analysed => analysed.table.same
  · exact like.assemble_alike biUnique_eq resolvers

/-- A library of one gate, which shuts as soon as it is open. -/
def gates (attributes marks : List Attribute) (fields : List Assign) : Script :=
  .library ⟨[], "Gates", [], [{
    attributes := attributes
    name := "Gate"
    consts := []
    starter := some ⟨[⟨.literal 7, fields, .dummy⟩], .dummy⟩
    states := [⟨[], "Shut", none, [], .dummy⟩,
      ⟨marks, "Open", none, [⟨none, [], some "Shut", .dummy⟩], .dummy⟩]
    span := .dummy }], .dummy⟩

def gateIndex : Attribute := ⟨.globalIndex (.literal 4), .dummy⟩

def gatePriority : Attribute := ⟨.priority (.literal 3), .dummy⟩

def gateStart : Attribute := ⟨.startFrom "Open", .dummy⟩

def gateWait : Attribute := ⟨.nonBlocking, .dummy⟩

def gatePacket (settings : List Assign) : Attribute := ⟨.controlPacket ⟨settings, []⟩, .dummy⟩

def gateSpace : Assign := ⟨"space", .literal 1, .dummy⟩

def gateMotion : Assign := ⟨"motion", .literal 5, .dummy⟩

def gateType : Assign := ⟨"type", .literal 1, .dummy⟩

def gateStatus : Assign := ⟨"status", .literal 2, .dummy⟩

/-- The gate with every list in one order. -/
def listedGates : Script :=
  gates [gateIndex, gatePriority, gateStart] [gateWait, gatePacket [gateSpace, gateMotion]]
    [gateType, gateStatus]

/-- The same gate with every list turned round. -/
def turnedGates : Script :=
  gates [gateStart, gatePriority, gateIndex] [gatePacket [gateMotion, gateSpace], gateWait]
    [gateStatus, gateType]

-- The settings change places inside an attribute that changes places itself.
theorem assemble_rearranged_gates :
    listedGates.Rearranged turnedGates ∧
    assemble .numbersOnly listedGates =
      .ok [1, 0, 0, 0, 4, 0, 0, 0, 28, 0, 0, 0, 1, 3, 1, 0, 1, 0, 7, 0, 1, 2, 0, 2, 255, 255, 65, 1,
        255, 255, 3, 0, 0, 0, 1, 5, 0, 0, 0, 0] ∧
    Alike (fun analysed again => analysed.2.Same again.2)
      (analyze listedGates) (analyze turnedGates) ∧
    ∀ resolvers, Alike Eq (assemble resolvers listedGates) (assemble resolvers turnedGates) := by
  have attributes : AttributesRearranged [gateIndex, gatePriority, gateStart]
      [gateStart, gatePriority, gateIndex] :=
    .ofPerm (List.reverse_perm [gateStart, gatePriority, gateIndex]) fun _ => .same
  have marks : AttributesRearranged [gateWait, gatePacket [gateSpace, gateMotion]]
      [gatePacket [gateMotion, gateSpace], gateWait] :=
    ⟨_, .swap (gatePacket [gateSpace, gateMotion]) gateWait [],
      .cons (.controlPacket (.intro (.swap gateMotion gateSpace []))) (.cons .same .nil)⟩
  have empty : AttributesRearranged [] [] := .ofPerm .nil fun _ => .same
  have rearranged : listedGates.Rearranged turnedGates := by
    refine .library empty (.cons (.intro attributes (.some ?_) ?_) .nil)
    · exact .intro (.cons (.intro (.swap gateStatus gateType [])) .nil)
    · exact .cons (.intro empty) (.cons (.intro marks) .nil)
  exact ⟨rearranged, by decide +kernel, assemble_rearranged rearranged⟩

end BehaviourScript
