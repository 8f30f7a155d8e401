/-
This file says what the checks of the analysis come to: a script that passes them
uses no name twice, every expression in it has a value, and every jump leads to
a state. Each check is shown to hold exactly if the statement it stands for
does.
-/

import BehaviourScript.Proofs.Outcomes

namespace BehaviourScript

open Outcome

theorem require_eq_ok {condition : Bool} {error : SemanticError} :
    require condition error = .ok () ↔ condition = true := by
  cases condition with
  | true => exact ⟨fun _ => rfl, fun _ => rfl⟩
  | false => exact ⟨nofun, nofun⟩

theorem andThen_eq_ok {first second : Check} :
    (first >>= fun _ => second) = .ok () ↔ first = .ok () ∧ second = .ok () :=
  bind_eq_ok.trans ⟨fun ⟨_, passed, others⟩ => ⟨passed, others⟩,
    fun ⟨passed, others⟩ => ⟨(), passed, others⟩⟩

/-- Items with names pass if no name comes twice and each passes by itself. -/
theorem checkNamed_eq_ok {α : Type} {name : α → String} {check : Bool → α → Check}
    (fresh : ∀ item, check true item ≠ .ok ()) {seen : List String} {items : List α} :
    checkNamed name check seen items = .ok () ↔
      (items.map name).Nodup ∧ (∀ item ∈ items, name item ∉ seen) ∧
        ∀ item ∈ items, check false item = .ok () := by
  induction items generalizing seen with
  | nil => exact ⟨fun _ => ⟨.nil, nofun, nofun⟩, fun _ => rfl⟩
  | cons item rest inductionHypothesis =>
    rw [checkNamed, andThen_eq_ok, inductionHypothesis, List.map_cons, List.nodup_cons,
      List.forall_mem_cons, List.forall_mem_cons]
    constructor
    · rintro ⟨first, distinct, others, passed⟩
      cases repeated : seen.contains (name item) with
      | true =>
        rw [repeated] at first
        exact absurd first (fresh item)
      | false =>
        rw [repeated] at first
        refine ⟨⟨?_, distinct⟩, ⟨?_, ?_⟩, first, passed⟩
        · intro member
          obtain ⟨other, inRest, equal⟩ := List.mem_map.mp member
          exact others other inRest (equal ▸ List.mem_cons_self)
        · intro member
          rw [List.contains_iff_mem.mpr member] at repeated
          exact nomatch repeated
        · exact fun other inRest member => others other inRest (List.mem_cons_of_mem _ member)
    · rintro ⟨⟨apart, distinct⟩, ⟨unseen, others⟩, first, passed⟩
      have repeated : seen.contains (name item) = false := by
        rw [← Bool.not_eq_true, List.contains_iff_mem]
        exact unseen
      rw [repeated]
      refine ⟨first, distinct, fun other inRest member => ?_, passed⟩
      rcases List.mem_cons.mp member with equal | old
      · exact apart (equal ▸ List.mem_map_of_mem inRest)
      · exact others other inRest old

/-- Nothing was seen before the first item. -/
theorem checkNamed_nil_eq_ok {α : Type} {name : α → String} {check : Bool → α → Check}
    (fresh : ∀ item, check true item ≠ .ok ()) {items : List α} :
    checkNamed name check [] items = .ok () ↔
      (items.map name).Nodup ∧ ∀ item ∈ items, check false item = .ok () := by
  rw [checkNamed_eq_ok fresh]
  exact and_congr_right fun _ => ⟨And.right, fun passed => ⟨fun _ _ => List.not_mem_nil, passed⟩⟩

/-- If items pass by themselves but names come twice, the fault found is that of an item whose name
came before. -/
theorem checkNamed_repeated {α : Type} {name : α → String} {check : Bool → α → Check}
    {fault : α → SemanticError} (refuses : ∀ item, check true item = .error (fault item))
    {seen : List String} {items : List α} (passes : ∀ item ∈ items, check false item = .ok ())
    (repeated : ¬((items.map name).Nodup ∧ ∀ item ∈ items, name item ∉ seen)) :
    ∃ item ∈ items, checkNamed name check seen items = .error (fault item) := by
  induction items generalizing seen with
  | nil => exact absurd ⟨.nil, nofun⟩ repeated
  | cons item rest inductionHypothesis =>
    rw [List.forall_mem_cons] at passes
    by_cases old : name item ∈ seen
    · refine ⟨item, List.mem_cons_self, ?_⟩
      rw [checkNamed, List.contains_iff_mem.mpr old, refuses]
      rfl
    have first : seen.contains (name item) = false := by
      rw [← Bool.not_eq_true, List.contains_iff_mem]
      exact old
    have behind : ¬((rest.map name).Nodup ∧ ∀ other ∈ rest, name other ∉ name item :: seen) := by
      rintro ⟨distinct, fresh⟩
      refine repeated ⟨List.nodup_cons.mpr ⟨fun member => ?_, distinct⟩,
        List.forall_mem_cons.mpr ⟨old, fun other inRest => ?_⟩⟩
      · obtain ⟨other, inRest, same⟩ := List.mem_map.mp member
        exact fresh other inRest (same ▸ List.mem_cons_self)
      · exact fun isOld => fresh other inRest (List.mem_cons_of_mem _ isOld)
    obtain ⟨other, inRest, failed⟩ := inductionHypothesis passes.2 behind
    refine ⟨other, List.mem_cons_of_mem _ inRest, ?_⟩
    rw [checkNamed, first, passes.1]
    exact failed

namespace Env

variable {env : Env}

/-- An expression has a value. -/
def HasValue (env : Env) (expr : Expr) : Prop := ∃ value, env.eval expr = .ok value

theorem checkExpr_eq_ok {expr : Expr} : env.checkExpr expr = .ok () ↔ env.HasValue expr :=
  bind_eq_ok.trans ⟨fun ⟨value, evaluated, _⟩ => ⟨value, evaluated⟩,
    fun ⟨value, evaluated⟩ => ⟨value, evaluated, rfl⟩⟩

theorem checkCommands_eq_ok {commands : List Command} :
    env.checkCommands commands = .ok () ↔
      ∀ command ∈ commands, ∀ arg ∈ command.args, env.HasValue arg := by
  unfold checkCommands
  simp only [forM_eq_ok, checkExpr_eq_ok]

theorem checkControlPacket_eq_ok {packet : ControlPacket} :
    env.checkControlPacket packet = .ok () ↔
      ((packet.settings.map Assign.name).Nodup ∧ ∀ setting ∈ packet.settings,
        (Catalogue.settingBit? setting.name).isSome = true ∧ env.HasValue setting.value) ∧
      ∀ word ∈ packet.data, env.HasValue word := by
  unfold checkControlPacket
  rw [andThen_eq_ok, checkNamed_nil_eq_ok]
  · simp only [andThen_eq_ok, require_eq_ok, forM_eq_ok, checkExpr_eq_ok, Bool.not_false, true_and]
  · intro setting passed
    simp only [andThen_eq_ok, require_eq_ok] at passed
    exact nomatch passed.2.1

theorem checkAttributes_eq_ok {placement : Placement} {attributes : List Attribute} :
    env.checkAttributes placement attributes = .ok () ↔
      (attributes.map (·.kind.name)).Nodup ∧ ∀ attr ∈ attributes,
        placement.allows attr.kind = true ∧ env.checkAttributeKind attr.kind = .ok () := by
  unfold checkAttributes
  rw [checkNamed_nil_eq_ok]
  · simp only [andThen_eq_ok, require_eq_ok, Bool.not_false, true_and]
  · intro attr passed
    simp only [andThen_eq_ok, require_eq_ok] at passed
    exact nomatch passed.2.1

theorem checkAssigner_eq_ok {assigner : Assigner} :
    env.checkAssigner assigner = .ok () ↔
      (assigner.fields.map Assign.name).Nodup ∧ ∀ field ∈ assigner.fields,
        field.name ∈ Catalogue.assignerFields ∧ env.HasValue field.value := by
  unfold checkAssigner
  rw [checkNamed_nil_eq_ok]
  · simp only [andThen_eq_ok, require_eq_ok, checkExpr_eq_ok, Bool.not_false, Bool.and_true,
      List.contains_iff_mem]
  · intro field passed
    simp only [andThen_eq_ok, require_eq_ok, Bool.not_true, Bool.and_false] at passed
    exact nomatch passed.1

theorem checkBody_eq_ok {states : List String} {body : StateBody} :
    env.checkBody states body = .ok () ↔
      (∀ test ∈ body.condition, ∀ parameter ∈ test.parameter, env.HasValue parameter) ∧
      (∀ command ∈ body.commands, ∀ arg ∈ command.args, env.HasValue arg) ∧
      ∀ target ∈ body.jump, target ∈ states := by
  unfold checkBody
  simp only [andThen_eq_ok, forMOption_eq_ok, checkExpr_eq_ok, checkCommands_eq_ok, require_eq_ok,
    List.contains_iff_mem]
  cases body.condition with
  | none => exact and_congr_left fun _ => ⟨fun _ => nofun, fun _ => nofun⟩
  | some test =>
    exact and_congr_left fun _ => ⟨fun each _ found => by cases found; exact each,
      fun each => each test rfl⟩

theorem checkState_eq_ok {states : List String} {state : State} :
    env.checkState states state = .ok () ↔
      env.checkAttributes .state state.attributes = .ok () ∧
      ¬(state.usesObjectSlot = true ∧ state.target.isSome = true) ∧
      ∀ body ∈ state.bodies, env.checkBody states body = .ok () := by
  unfold checkState
  simp only [andThen_eq_ok, require_eq_ok, forM_eq_ok, Bool.not_eq_true', Bool.and_eq_false_iff,
    not_and_or, Bool.not_eq_true]

theorem checkStart_eq_ok {states : List String} {attr : Attribute} :
    checkStart states attr = .ok () ↔ ∀ name, attr.kind = .startFrom name → name ∈ states := by
  unfold checkStart
  cases attr.kind with
  | startFrom name =>
    simp only [require_eq_ok, List.contains_iff_mem, Attribute.Kind.startFrom.injEq]
    exact ⟨fun member _ same => same ▸ member, fun each => each name rfl⟩
  | _ => exact ⟨fun _ => nofun, fun _ => rfl⟩

theorem checkBehaviour_eq_ok {placement : Placement} {behaviour : Behaviour} :
    env.checkBehaviour placement behaviour = .ok () ↔
      env.checkAttributes placement behaviour.attributes = .ok () ∧
      (behaviour.states.map State.name).Nodup ∧
      (∀ attr ∈ behaviour.attributes, ∀ name, attr.kind = .startFrom name →
        name ∈ behaviour.states.map State.name) ∧
      (∀ starter ∈ behaviour.starter, ∀ assigner ∈ starter.assigners,
        env.checkAssigner assigner = .ok ()) ∧
      ∀ state ∈ behaviour.states,
        env.checkState (behaviour.states.map State.name) state = .ok () := by
  have named : checkNamed State.name (fun repeated state =>
      require (!repeated) (.duplicateState state.name state.span.start)) [] behaviour.states =
        .ok () ↔ (behaviour.states.map State.name).Nodup := by
    rw [checkNamed_nil_eq_ok]
    · exact ⟨And.left, fun distinct => ⟨distinct, fun _ _ => rfl⟩⟩
    · exact fun _ => nofun
  unfold checkBehaviour
  simp only [andThen_eq_ok, named, forM_eq_ok, forMOption_eq_ok, checkStart_eq_ok]

theorem checkSequence_eq_ok {sequence : Sequence} :
    env.checkSequence sequence = .ok () ↔
      env.checkAttributes .sequence sequence.attributes = .ok () ∧
      (∀ pack ∈ sequence.packs, ∀ command ∈ pack.commands, ∀ arg ∈ command.args,
        env.HasValue arg) ∧
      ∀ command ∈ sequence.commands, ∀ arg ∈ command.args, env.HasValue arg := by
  unfold checkSequence
  simp only [andThen_eq_ok, forM_eq_ok, checkCommands_eq_ok]

end Env

theorem SymbolTable.checkLibrary_eq_ok {table : SymbolTable} {library : Library} :
    table.checkLibrary library = .ok () ↔
      table.rootEnv.checkAttributes .library library.attributes = .ok () ∧
      (library.behaviours.map Behaviour.name).Nodup ∧
      ∀ behaviour ∈ library.behaviours,
        (table.behaviourEnv behaviour.name).checkBehaviour .libraryBehaviour behaviour = .ok () := by
  unfold checkLibrary
  rw [andThen_eq_ok, checkNamed_nil_eq_ok]
  · simp only [andThen_eq_ok, require_eq_ok, Bool.not_false, true_and]
  · intro behaviour passed
    simp only [andThen_eq_ok, require_eq_ok] at passed
    exact nomatch passed.1

end BehaviourScript
