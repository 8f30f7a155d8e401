/-
This file says what the attributes of a record come to. The encoder takes them in
one by one, and the last one of a kind counts; since none is given twice, that is
the one attribute of its kind, or the default where there is none.
-/

import BehaviourScript.Proofs.Canonical.Emitted

namespace BehaviourScript

open Outcome

/-! ### Taking in attributes -/

/-- The first attribute of a kind is picked. -/
theorem Canonical.pick_cons {γ : Type} (select : Attribute.Kind → Option γ) (attr : Attribute)
    (rest : List Attribute) :
    pick select (attr :: rest) = (select attr.kind).or (pick select rest) := by
  rw [pick, pick, List.findSome?_cons]
  cases select attr.kind <;> rfl

/-- Where no attribute is given twice, the first of a kind is the only one. -/
theorem pick_eq_none_of_distinct {γ : Type} {select : Attribute.Kind → Option γ} (name : String)
    (named : ∀ kind, (select kind).isSome = true → kind.name = name) {attr : Attribute}
    {rest : List Attribute} (distinct : attr.kind.name ∉ rest.map (·.kind.name))
    (held : (select attr.kind).isSome = true) : Canonical.pick select rest = none := by
  refine List.findSome?_eq_none_iff.mpr fun other member => ?_
  by_contra some
  refine distinct (List.mem_map.mpr ⟨other, member, ?_⟩)
  rw [named _ (Option.isSome_iff_ne_none.mpr some), named _ held]

/-- What a part of the settings is behind an attribute that may decide it. -/
inductive Taken {γ δ : Type} (Given : γ → δ → Prop) : Option γ → δ → δ → Prop
  | kept {before : δ} : Taken Given none before before
  | given {value : γ} {before after : δ} : Given value after → Taken Given (some value) before after

section Folding

variable {σ γ δ : Type} {step : σ → Attribute → Outcome σ} {attributes : List Attribute}
  {first last : σ}

/-- The attribute of a kind decides its part of the settings, wherever it stands. -/
theorem foldlM_taken {select : Attribute.Kind → Option γ} (name : String)
    (named : ∀ kind, (select kind).isSome = true → kind.name = name) (view : σ → δ)
    {Given : γ → δ → Prop}
    (each : ∀ {settings next attr}, step settings attr = .ok next →
      Taken Given (select attr.kind) (view settings) (view next))
    (distinct : (attributes.map (·.kind.name)).Nodup)
    (run : attributes.foldlM step first = .ok last) :
    Taken Given (Canonical.pick select attributes) (view first) (view last) := by
  induction attributes generalizing first with
  | nil =>
    cases run
    exact .kept
  | cons attr rest inductionHypothesis =>
    rw [List.foldlM_cons, bind_eq_ok] at run
    obtain ⟨next, stepped, others⟩ := run
    rw [List.map_cons, List.nodup_cons] at distinct
    have behind := inductionHypothesis distinct.2 others
    have here := each stepped
    rw [Canonical.pick_cons]
    cases held : select attr.kind with
    | none =>
      rw [held] at here
      generalize view next = between at here behind
      cases here
      exact behind
    | some value =>
      rw [held] at here
      rw [pick_eq_none_of_distinct name named distinct.1 (held ▸ rfl)] at behind
      generalize view next = between at here behind
      cases behind
      cases here with
      | given decided => exact .given decided

/-- A flag is set if its attribute is there. -/
theorem foldlM_any (select : Attribute.Kind → Bool) (view : σ → Bool)
    (each : ∀ {settings next attr}, step settings attr = .ok next →
      view next = (view settings || select attr.kind))
    (run : attributes.foldlM step first = .ok last) :
    view last = (view first || attributes.any fun attr => select attr.kind) := by
  induction attributes generalizing first with
  | nil =>
    cases run
    exact (Bool.or_false _).symm
  | cons attr rest inductionHypothesis =>
    rw [List.foldlM_cons, bind_eq_ok] at run
    obtain ⟨next, stepped, others⟩ := run
    rw [inductionHypothesis others, each stepped, List.any_cons, Bool.or_assoc]

end Folding

namespace Taken

/-- A part that is missing by default and held by its attribute. -/
def Held {γ δ : Type} (image : γ → δ) (value : γ) (held : Option δ) : Prop := held = some (image value)

/-- What is taken into an empty place is what is picked. -/
theorem eq_map {γ δ : Type} {image : γ → δ} {picked : Option γ} {last : Option δ}
    (taken : Taken (Held image) picked none last) : last = picked.map image := by
  cases taken with
  | kept => rfl
  | given held => exact held

/-- A number that is the value of its attribute and no larger than its field. -/
def Measured (env : Env) (bound : Nat) (expr : Expr) (held : Nat) : Prop :=
  env.value expr = held ∧ held ≤ bound

theorem measured {quantity : Quantity} (natural : quantity.min = 0) {bound : Nat}
    (greatest : quantity.max = bound) {env : Env} {expr : Expr} {value : Int}
    (done : quantity.measure env expr = .ok value) : Measured env bound expr value.toNat := by
  obtain ⟨same, fits⟩ := Quantity.measure_value done
  rw [Quantity.holds_iff, natural, greatest] at fits
  exact ⟨by omega, by omega⟩

theorem pickValue_eq {env : Env} {bound : Nat} {select : Attribute.Kind → Option Expr}
    {attributes : List Attribute} {last : Nat}
    (taken : Taken (Measured env bound) (Canonical.pick select attributes) 0 last) :
    Canonical.pickValue env select attributes = last ∧ last ≤ bound := by
  unfold Canonical.pickValue
  generalize Canonical.pick select attributes = picked at taken
  cases taken with
  | kept => exact ⟨rfl, Nat.zero_le _⟩
  | given measured => exact measured

/-- A state that is there and at the place of its name. -/
def AtPlace (states : List State) (name : String) (held : Nat) : Prop :=
  Canonical.place states name = held ∧ held < states.length

end Taken

namespace Encode

open Taken

variable {env : Env}

/-! ### States -/

/-- One attribute sets what it holds and nothing else. -/
theorem stateSetting_taken {settings next : StateSettings} {attr : Attribute}
    (stepped : stateSetting env settings attr = .ok next) :
    Taken (Held env.value) attr.kind.useObjectSlot? settings.slot next.slot ∧
      Taken (Held id) attr.kind.controlPacket? settings.packet next.packet ∧
      next.nonBlocking = (settings.nonBlocking || attr.kind = .nonBlocking) ∧
      next.skipFirstBody = (settings.skipFirstBody || attr.kind = .skipFirstBody) := by
  unfold stateSetting at stepped
  cases shape : attr.kind with
  | useObjectSlot expr =>
    rw [shape] at stepped
    simp only [bind_eq_ok, pure_eq_ok, ofSemantic_eq_ok] at stepped
    obtain ⟨slot, evaluated, rfl⟩ := stepped
    exact ⟨.given (congrArg some (env.value_eq evaluated).symm), .kept, by simp, by simp⟩
  | controlPacket packet =>
    rw [shape] at stepped
    cases stepped
    exact ⟨.kept, .given rfl, by simp, by simp⟩
  | _ =>
    rw [shape] at stepped
    cases stepped
    exact ⟨.kept, .kept, by simp, by simp⟩

/-- The settings of a state are what its attributes hold. -/
theorem stateSettings_eq {attributes : List Attribute}
    (distinct : (attributes.map (·.kind.name)).Nodup) {settings : StateSettings}
    (run : attributes.foldlM (stateSetting env) {} = .ok settings) :
    settings =
      { skipFirstBody := attributes.any (·.kind = .skipFirstBody)
        nonBlocking := attributes.any (·.kind = .nonBlocking)
        slot := (Canonical.pick Attribute.Kind.useObjectSlot? attributes).map env.value
        packet := Canonical.pick Attribute.Kind.controlPacket? attributes } := by
  have slot := foldlM_taken "UseObjectSlot" (fun | .useObjectSlot _, _ => rfl) StateSettings.slot
    (fun stepped => (stateSetting_taken stepped).1) distinct run
  have packet := foldlM_taken "ControlPacket" (fun | .controlPacket _, _ => rfl)
    StateSettings.packet (fun stepped => (stateSetting_taken stepped).2.1) distinct run
  have nonBlocking := foldlM_any (· = .nonBlocking) StateSettings.nonBlocking
    (fun stepped => (stateSetting_taken stepped).2.2.1) run
  have skipFirst := foldlM_any (· = .skipFirstBody) StateSettings.skipFirstBody
    (fun stepped => (stateSetting_taken stepped).2.2.2) run
  rw [StateSettings.mk.injEq, eq_map slot, eq_map packet, nonBlocking, skipFirst, Option.map_id]
  exact ⟨rfl, rfl, rfl, rfl⟩

theorem stateSetting_ok {attr : Attribute} (checked : env.checkAttributeKind attr.kind = .ok ())
    (settings : StateSettings) : ∃ next, stateSetting env settings attr = .ok next := by
  unfold stateSetting
  cases shape : attr.kind with
  | useObjectSlot expr =>
    rw [shape] at checked
    obtain ⟨value, evaluated⟩ := Env.checkExpr_eq_ok.mp checked
    exact ⟨_, bind_eq_ok.mpr ⟨value, ofSemantic_eq_ok.mpr evaluated, rfl⟩⟩
  | _ => exact ⟨_, rfl⟩

/-- The attributes of a state never fail; what they hold is measured later. -/
theorem stateSettings_ok {attributes : List Attribute}
    (passes : env.checkAttributes .state attributes = .ok ()) :
    attributes.foldlM (stateSetting env) {} = .ok
      { skipFirstBody := attributes.any (·.kind = .skipFirstBody)
        nonBlocking := attributes.any (·.kind = .nonBlocking)
        slot := (Canonical.pick Attribute.Kind.useObjectSlot? attributes).map env.value
        packet := Canonical.pick Attribute.Kind.controlPacket? attributes } := by
  obtain ⟨distinct, checked⟩ := Env.checkAttributes_eq_ok.mp passes
  obtain ⟨settings, run⟩ := exists_foldlM_eq_ok {} fun attr member settings =>
    stateSetting_ok (checked attr member).2 settings
  rw [run, stateSettings_eq distinct run]

theorem checkControlPacket_of_pick {placement : Placement} {attributes : List Attribute}
    (passes : env.checkAttributes placement attributes = .ok ()) {packet : ControlPacket}
    (picked : packet ∈ Canonical.pick Attribute.Kind.controlPacket? attributes) :
    env.checkControlPacket packet = .ok () := by
  obtain ⟨attr, member, held⟩ := List.exists_of_findSome?_eq_some picked
  have checked := ((Env.checkAttributes_eq_ok.mp passes).2 attr member).2
  cases shape : attr.kind with
  | controlPacket content =>
    rw [shape] at checked held
    cases held
    exact checked
  | _ =>
    rw [shape] at held
    exact nomatch held

/-! ### Behaviours and sequences -/

theorem globalIndex?_eq (attributes : List Attribute) :
    globalIndex? attributes = Canonical.pick Attribute.Kind.globalIndex? attributes := by
  unfold globalIndex? Canonical.pick
  refine congrArg (List.findSome? · attributes) (funext fun attr => ?_)
  cases attr.kind <;> rfl

theorem unknown?_eq (attributes : List Attribute) :
    unknown? attributes = Canonical.pick Attribute.Kind.unknown? attributes := by
  unfold unknown? Canonical.pick
  refine congrArg (List.findSome? · attributes) (funext fun attr => ?_)
  cases attr.kind <;> rfl

/-- One attribute of a behaviour sets what it holds and nothing else. -/
theorem graphSetting_taken {content : Behaviour} {settings next : GraphSettings} {attr : Attribute}
    (stepped : graphSetting env content settings attr = .ok next) :
    Taken (AtPlace content.states) attr.kind.startFrom? settings.startState next.startState ∧
      Taken (Measured env Layout.Graph.priority.max) attr.kind.priority? settings.priority
        next.priority ∧
      Taken (Measured env Layout.Graph.unknown.max) attr.kind.unknown? settings.unknown
        next.unknown := by
  unfold graphSetting at stepped
  cases shape : attr.kind with
  | startFrom name =>
    rw [shape] at stepped
    simp only [bind_eq_ok, pure_eq_ok] at stepped
    obtain ⟨index, found, rfl⟩ := stepped
    exact ⟨.given (stateIndex_place found), .kept, .kept⟩
  | priority expr =>
    rw [shape] at stepped
    simp only [bind_eq_ok, pure_eq_ok] at stepped
    obtain ⟨value, done, rfl⟩ := stepped
    exact ⟨.kept, .given (measured rfl rfl done), .kept⟩
  | unknown expr =>
    rw [shape] at stepped
    simp only [bind_eq_ok, pure_eq_ok] at stepped
    obtain ⟨value, done, rfl⟩ := stepped
    exact ⟨.kept, .kept, .given (measured rfl rfl done)⟩
  | _ =>
    rw [shape] at stepped
    cases stepped
    exact ⟨.kept, .kept, .kept⟩

theorem sequenceSetting_taken {name : String} {settings next : SequenceSettings} {attr : Attribute}
    (stepped : sequenceSetting env name settings attr = .ok next) :
    Taken (Measured env Layout.Sequence.instanceType.max) attr.kind.instanceType?
        settings.instanceType next.instanceType ∧
      Taken (Measured env Layout.Sequence.globalIndex.max) attr.kind.globalIndex?
        settings.globalIndex next.globalIndex ∧
      Taken (Measured env Layout.Sequence.unknown.max) attr.kind.unknown? settings.unknown
        next.unknown := by
  unfold sequenceSetting at stepped
  cases shape : attr.kind with
  | instanceType expr =>
    rw [shape] at stepped
    simp only [bind_eq_ok, pure_eq_ok] at stepped
    obtain ⟨value, done, rfl⟩ := stepped
    exact ⟨.given (measured rfl rfl done), .kept, .kept⟩
  | globalIndex expr =>
    rw [shape] at stepped
    simp only [bind_eq_ok, pure_eq_ok] at stepped
    obtain ⟨value, done, rfl⟩ := stepped
    exact ⟨.kept, .given (measured rfl rfl done), .kept⟩
  | unknown expr =>
    rw [shape] at stepped
    simp only [bind_eq_ok, pure_eq_ok] at stepped
    obtain ⟨value, done, rfl⟩ := stepped
    exact ⟨.kept, .kept, .given (measured rfl rfl done)⟩
  | _ =>
    rw [shape] at stepped
    cases stepped
    exact ⟨.kept, .kept, .kept⟩

section Picked

variable {attributes : List Attribute} (distinct : (attributes.map (·.kind.name)).Nodup)

include distinct

/-- The settings of a graph are what its attributes hold. -/
theorem graphSettings_taken {content : Behaviour} {settings : GraphSettings}
    (run : attributes.foldlM (graphSetting env content) {} = .ok settings) :
    Taken (AtPlace content.states) (Canonical.pick Attribute.Kind.startFrom? attributes) 0
        settings.startState ∧
      Taken (Measured env Layout.Graph.priority.max)
        (Canonical.pick Attribute.Kind.priority? attributes) 0 settings.priority ∧
      Taken (Measured env Layout.Graph.unknown.max)
        (Canonical.pick Attribute.Kind.unknown? attributes) 0 settings.unknown := by
  refine ⟨?_, ?_, ?_⟩
  · exact foldlM_taken "StartFrom" (fun | .startFrom _, _ => rfl) GraphSettings.startState
      (fun stepped => (graphSetting_taken stepped).1) distinct run
  · exact foldlM_taken "Priority" (fun | .priority _, _ => rfl) GraphSettings.priority
      (fun stepped => (graphSetting_taken stepped).2.1) distinct run
  · exact foldlM_taken "Unknown" (fun | .unknown _, _ => rfl) GraphSettings.unknown
      (fun stepped => (graphSetting_taken stepped).2.2) distinct run

theorem graphSettings_picked {content : Behaviour} (nonempty : content.states ≠ [])
    {settings : GraphSettings}
    (run : attributes.foldlM (graphSetting env content) {} = .ok settings) :
    (((Canonical.pick Attribute.Kind.startFrom? attributes).map
        (Canonical.place content.states)).getD 0 = settings.startState ∧
      settings.startState < content.states.length) ∧
    (Canonical.pickValue env Attribute.Kind.priority? attributes = settings.priority ∧
      settings.priority ≤ Layout.Graph.priority.max) ∧
    Canonical.pickValue env Attribute.Kind.unknown? attributes = settings.unknown ∧
      settings.unknown ≤ Layout.Graph.unknown.max := by
  obtain ⟨start, priority, unknown⟩ := graphSettings_taken distinct run
  refine ⟨?_, pickValue_eq priority, pickValue_eq unknown⟩
  generalize Canonical.pick Attribute.Kind.startFrom? attributes = picked at start
  generalize settings.startState = index at start
  cases start with
  | kept => exact ⟨rfl, List.length_pos_iff.mpr nonempty⟩
  | given placed => exact placed

/-- The settings of a sequence are what its attributes hold. -/
theorem sequenceSettings_taken {name : String} {settings : SequenceSettings}
    (run : attributes.foldlM (sequenceSetting env name) {} = .ok settings) :
    Taken (Measured env Layout.Sequence.instanceType.max)
        (Canonical.pick Attribute.Kind.instanceType? attributes) 0 settings.instanceType ∧
      Taken (Measured env Layout.Sequence.globalIndex.max)
        (Canonical.pick Attribute.Kind.globalIndex? attributes) 0 settings.globalIndex ∧
      Taken (Measured env Layout.Sequence.unknown.max)
        (Canonical.pick Attribute.Kind.unknown? attributes) 0 settings.unknown := by
  refine ⟨?_, ?_, ?_⟩
  · exact foldlM_taken "InstanceType" (fun | .instanceType _, _ => rfl)
      SequenceSettings.instanceType (fun stepped => (sequenceSetting_taken stepped).1) distinct run
  · exact foldlM_taken "GlobalIndex" (fun | .globalIndex _, _ => rfl)
      SequenceSettings.globalIndex (fun stepped => (sequenceSetting_taken stepped).2.1) distinct run
  · exact foldlM_taken "Unknown" (fun | .unknown _, _ => rfl) SequenceSettings.unknown
      (fun stepped => (sequenceSetting_taken stepped).2.2) distinct run

theorem sequenceSettings_picked {name : String} {settings : SequenceSettings}
    (run : attributes.foldlM (sequenceSetting env name) {} = .ok settings) :
    (Canonical.pickValue env Attribute.Kind.instanceType? attributes = settings.instanceType ∧
      settings.instanceType ≤ Layout.Sequence.instanceType.max) ∧
    (Canonical.pickValue env Attribute.Kind.globalIndex? attributes = settings.globalIndex ∧
      settings.globalIndex ≤ Layout.Sequence.globalIndex.max) ∧
    Canonical.pickValue env Attribute.Kind.unknown? attributes = settings.unknown ∧
      settings.unknown ≤ Layout.Sequence.unknown.max := by
  obtain ⟨instanceType, globalIndex, unknown⟩ := sequenceSettings_taken distinct run
  exact ⟨pickValue_eq instanceType, pickValue_eq globalIndex, pickValue_eq unknown⟩

end Picked

end Encode

end BehaviourScript
