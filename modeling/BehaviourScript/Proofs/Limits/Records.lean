/-
This file goes through the records of a behaviour and shows for each that, once
the checks have passed, it is written exactly if it fits, and in as many bytes as
its tree says. The checks see to it that every expression has a value, that
every jump finds its state and that settings and fields are known, so nothing
but the limits is left to fail.
-/

import BehaviourScript.Proofs.Canonical.Scripts
import BehaviourScript.Proofs.Limits.Decides

namespace BehaviourScript

open Outcome

/-! ### Lengths of rows -/

theorem IntFormat.length_flatMap_encode (format : IntFormat) (values : List Int) :
    (values.flatMap format.encode).length = format.width * values.length := by
  induction values with
  | nil => rfl
  | cons value rest inductionHypothesis =>
    rw [List.flatMap_cons, List.length_append, inductionHypothesis, length_encode,
      List.length_cons, Nat.mul_succ, Nat.add_comm]

theorem length_flatten_of_forall₂ {α : Type} {length : α → Nat} {items : List α}
    {parts : List Bytes}
    (written : List.Forall₂ (fun item bytes => bytes.length = length item) items parts) :
    parts.flatten.length = (items.map length).sum := by
  induction written with
  | nil => rfl
  | cons first _ inductionHypothesis =>
    rw [List.flatten_cons, List.length_append, first, inductionHypothesis, List.map_cons,
      List.sum_cons]

namespace Encode

variable {env : Env} (resolvers : CompileResolvers)

/-! ### Commands and bodies -/

/-- A command is written if its arguments are few and in range, and its length is known. -/
theorem command_decides {content : Command} (hasNext : Bool)
    (values : ∀ arg ∈ content.args, env.HasValue arg) :
    Decides (content.Fits env) (·.length = content.byteLength) (command env hasNext content) := by
  have count := (Quantity.argumentCount content.id).count_decides 15 rfl rfl content.args.length
  have args := Decides.mapM fun arg member => (Quantity.argument content.id).measure_decides
    (-2147483648) 2147483647 rfl rfl (values arg member)
  unfold command
  refine Decides.congr (count.bind fun _ _ => args.map fun words measured => ?_)
    (content.fits_iff env).symm
  rw [List.length_append, IntFormat.length_encode, IntFormat.length_flatMap_encode,
    ← measured.length_eq]
  rfl

/-- A row of commands is written if each of them is. -/
theorem commands_decides {row : List Command}
    (values : ∀ command ∈ row, ∀ arg ∈ command.args, env.HasValue arg) :
    Decides (∀ command ∈ row, command.Fits env)
      (·.length = (row.map Command.byteLength).sum) (commands env row) := by
  induction row with
  | nil => exact .passes nofun rfl
  | cons first rest inductionHypothesis =>
    rw [List.forall_mem_cons] at values
    have head := command_decides (!rest.isEmpty) values.1
    have tail := inductionHypothesis values.2
    unfold commands
    refine Decides.congr (head.bind fun headBytes headLength =>
      tail.map fun tailBytes tailLength => ?_) List.forall_mem_cons.symm
    rw [List.length_append, headLength, tailLength, List.map_cons, List.sum_cons]

theorem commandPack_decides {row : List Command}
    (values : ∀ command ∈ row, ∀ arg ∈ command.args, env.HasValue arg) :
    Decides (∀ command ∈ row, command.Fits env)
      (·.length = 2 + (row.map Command.byteLength).sum) (commandPack env row) := by
  unfold commandPack
  refine (commands_decides values).map fun bytes length => ?_
  rw [List.length_append, IntFormat.length_encode, length]
  rfl

theorem condition_decides {test : Condition}
    (values : ∀ parameter ∈ test.parameter, env.HasValue parameter) :
    Decides (∀ parameter ∈ test.parameter, env.IsWord parameter) (·.length = 8)
      (condition env test) := by
  have measured : Decides (∀ parameter ∈ test.parameter, env.IsWord parameter) (fun _ => True)
      (parameter env test) := by
    unfold parameter
    cases given : test.parameter with
    | none => exact .passes nofun trivial
    | some expr =>
      have word := (Quantity.conditionParameter test.id).measure_decides (-2147483648) 2147483647
        rfl rfl (values expr given)
      refine (word.mono fun _ _ _ => trivial).congr ?_
      simp only [Option.mem_some_iff, forall_eq', Env.IsWord]
  rw [condition_eq]
  refine measured.map fun word _ => ?_
  simp only [List.length_append, IntFormat.length_encode]
  rfl

theorem stateIndex_decides {states : List State} {name : String}
    (member : name ∈ states.map State.name) (position : Position) :
    Decides True (fun _ => True) (stateIndex states name position) := by
  have found : states.findIdx? (·.name == name) = some (Canonical.place states name) :=
    List.findIdx?_eq_some_iff_findIdx_eq.mpr ⟨place_lt member, rfl⟩
  unfold stateIndex
  rw [found]
  exact .passes trivial trivial

theorem jump_decides {states : List State} {content : StateBody}
    (jumps : ∀ target ∈ content.jump, target ∈ states.map State.name) :
    Decides True (fun _ => True) (jump states content) := by
  unfold jump
  cases given : content.jump with
  | none => exact .passes trivial trivial
  | some target =>
    have placed := stateIndex_decides (jumps target given) content.span.start
    dsimp only
    rw [map_eq_pure_bind]
    exact placed.map fun _ _ => trivial

/-- A body that passes the checks is written if its condition and commands fit. -/
theorem body_decides {states : List State} {content : StateBody}
    (passes : env.checkBody (states.map State.name) content = .ok ()) :
    Decides (content.Fits env) (·.length = content.byteLength) (body env states content) := by
  obtain ⟨parameters, arguments, jumps⟩ := Env.checkBody_eq_ok.mp passes
  have test := Decides.optional fun test member => condition_decides (parameters test member)
  rw [body_eq]
  refine Decides.congr ((jump_decides jumps).bind fun _ _ => test.bind fun testBytes testLength =>
    (commands_decides arguments).map fun row rowLength => ?_)
    ((and_iff_right trivial).trans (content.fits_iff env).symm)
  simp only [List.length_append, IntFormat.length_encode, testLength, rowLength]
  unfold StateBody.byteLength
  cases content.condition <;> rfl

/-! ### Control packets -/

theorem setting_decides {given : Assign}
    (known : (Catalogue.settingBit? given.name).isSome = true)
    (hasValue : env.HasValue given.value) :
    Decides (env.Between 0 255 given.value) (fun result => setting env given = .ok result)
      (setting env given) := by
  suffices whole : Decides (env.Between 0 255 given.value) (fun _ => True) (setting env given) from
    whole.self
  obtain ⟨bit, found⟩ := Option.isSome_iff_exists.mp known
  have measured := (Quantity.setting given.name).measure_decides 0 255 rfl rfl hasValue
  unfold setting
  rw [found]
  exact measured.map fun _ _ => trivial

/-- What is assigned has as many values as there are settings, if all are known and none is given
twice. -/
theorem length_assigned {settings : List Assign} (distinct : (settings.map Assign.name).Nodup)
    (known : ∀ item ∈ settings, (Catalogue.settingBit? item.name).isSome = true) :
    (Catalogue.settings.filterMap (Canonical.assigned env settings)).length = settings.length := by
  have held (name : String) :
      (Canonical.assigned env settings name).isSome = true ↔ name ∈ settings.map Assign.name := by
    rw [Canonical.assigned, Option.isSome_map, List.find?_isSome, List.mem_map]
    simp only [beq_iff_eq]
  have listed (name : String) (member : name ∈ settings.map Assign.name) :
      name ∈ Catalogue.settings := by
    obtain ⟨item, inSettings, rfl⟩ := List.mem_map.mp member
    obtain ⟨bit, found⟩ := Option.isSome_iff_exists.mp (known item inSettings)
    obtain ⟨inside, same, _⟩ := List.idxOf?_eq_some_iff.mp found
    exact same ▸ List.getElem_mem inside
  have same : (Catalogue.settings.filter fun name =>
      (Canonical.assigned env settings name).isSome).Perm (settings.map Assign.name) := by
    refine (List.perm_ext_iff_of_nodup (List.Pairwise.filter _ (by decide)) distinct).mpr ?_
    intro name
    rw [List.mem_filter, held]
    exact ⟨And.right, fun member => ⟨listed name member, member⟩⟩
  rw [List.length_filterMap_eq_countP, List.countP_eq_length_filter, same.length_eq,
    List.length_map]

/-- The settings that are written are those that were given, in the order of their bits. -/
theorem filterMap_collected {settings : List Assign} {given : List (Nat × Int)}
    (emitted : List.Forall₂ (fun item result => setting env item = .ok result) settings given)
    (distinct : (settings.map Assign.name).Nodup) :
    settingBits.filterMap (Assoc.get? ·
      (given.foldl (fun values entry => Assoc.set entry.1 entry.2 values) [])) =
      Catalogue.settings.filterMap (Canonical.assigned env settings) := by
  have names : Catalogue.settings = Catalogue.settings.zipIdx.map Prod.fst := rfl
  rw [filterMap_settingBits, names, List.filterMap_map]
  refine List.filterMap_congr fun entry member => ?_
  exact (get?_collected emitted distinct (mem_zipIdx_settings entry member).2 []).trans
    Option.or_none

/-- A packet that passes the checks is written if its settings and data words are in range. -/
theorem controlPacket_decides {packet : ControlPacket}
    (passes : env.checkControlPacket packet = .ok ()) :
    Decides (packet.Fits env) (·.length = packet.byteLength) (controlPacket env packet) := by
  obtain ⟨⟨distinct, settings⟩, words⟩ := Env.checkControlPacket_eq_ok.mp passes
  have given := Decides.mapM fun item member =>
    setting_decides (settings item member).1 (settings item member).2
  have count := Quantity.dataCount.count_decides 255 rfl rfl packet.data.length
  have data := Decides.mapM fun word member => Quantity.dataWord.measure_decides
    (-2147483648) 2147483647 rfl rfl (words word member)
  unfold controlPacket
  refine Decides.congr (given.bind fun values collected => count.bind fun _ _ =>
    data.map fun row measured => ?_) (packet.fits_iff env).symm
  rw [List.length_append, List.length_append, IntFormat.length_encode,
    IntFormat.length_flatMap_encode, IntFormat.length_flatMap_encode, ← measured.length_eq,
    filterMap_collected collected distinct,
    length_assigned distinct fun item member => (settings item member).1]
  simp only [ControlPacket.byteLength, IntFormat.width, Nat.one_mul]

/-! ### Attributes -/

/-- What holds of every attribute of a kind holds of the one that is picked, since no attribute is
given twice. -/
theorem forall_pick_iff {γ : Type} {select : Attribute.Kind → Option γ} (name : String)
    (named : ∀ kind, (select kind).isSome = true → kind.name = name) {attributes : List Attribute}
    (distinct : (attributes.map (·.kind.name)).Nodup) {property : γ → Prop} :
    (∀ attr ∈ attributes, ∀ value ∈ select attr.kind, property value) ↔
      ∀ value ∈ Canonical.pick select attributes, property value := by
  induction attributes with
  | nil => exact iff_of_true nofun nofun
  | cons attr rest inductionHypothesis =>
    rw [List.map_cons, List.nodup_cons] at distinct
    rw [List.forall_mem_cons, inductionHypothesis distinct.2, Canonical.pick_cons]
    cases held : select attr.kind with
    | none => exact and_iff_right nofun
    | some value =>
      rw [pick_eq_none_of_distinct name named distinct.1 (held ▸ rfl), Option.or_none]
      exact and_iff_left nofun

/-- What the checks have passed has a value when it is picked. -/
theorem hasValue_of_pick (select : Attribute.Kind → Option Expr)
    (checked : ∀ kind, ∀ expr ∈ select kind, env.checkAttributeKind kind = .ok () →
      env.HasValue expr) {placement : Placement} {attributes : List Attribute}
    (passes : env.checkAttributes placement attributes = .ok ()) {expr : Expr}
    (picked : expr ∈ Canonical.pick select attributes) : env.HasValue expr := by
  obtain ⟨attr, member, held⟩ := List.exists_of_findSome?_eq_some picked
  exact checked _ expr held ((Env.checkAttributes_eq_ok.mp passes).2 attr member).2

/-! ### States -/

/-- What a state runs is written if it has an ID that is in range. -/
theorem stateTarget_decides {content : State}
    (passes : env.checkAttributes .state content.attributes = .ok ())
    (apart : ¬(content.usesObjectSlot = true ∧ content.target.isSome = true)) :
    Decides ((∀ slot ∈ Canonical.pick Attribute.Kind.useObjectSlot? content.attributes,
        env.Between 0 32767 slot) ∧
        ∀ target ∈ content.target, resolvers.Between .stateGraph 0 32767 target) (fun _ => True)
      (stateTarget resolvers ((Canonical.pick Attribute.Kind.useObjectSlot?
        content.attributes).map env.value) content) := by
  rw [usesObjectSlot_eq] at apart
  have hasValue (slot : Expr) (picked : slot ∈ Canonical.pick Attribute.Kind.useObjectSlot?
      content.attributes) : env.HasValue slot :=
    hasValue_of_pick Attribute.Kind.useObjectSlot?
      (fun | .useObjectSlot _, _, rfl, passed => Env.checkExpr_eq_ok.mp passed) passes picked
  unfold stateTarget
  cases picked : Canonical.pick Attribute.Kind.useObjectSlot? content.attributes with
  | some slot =>
    cases target : content.target with
    | some reference => exact absurd ⟨picked ▸ rfl, target ▸ rfl⟩ apart
    | none =>
      obtain ⟨value, evaluated⟩ := hasValue slot picked
      have fits := (Quantity.stateTarget content.name).fit_decides 0 32767 rfl rfl value
      rw [Option.map_some, env.value_eq evaluated]
      refine (fits.mono fun _ _ _ => trivial).congr ?_
      simp only [Option.mem_some_iff, forall_eq', env.between_iff evaluated, Option.not_mem_none,
        false_imp_iff, implies_true, and_true]
  | none =>
    cases target : content.target with
    | some reference =>
      have found := (Quantity.stateTarget content.name).reference_decides 0 32767 rfl rfl resolvers
        .stateGraph reference
      refine found.congr ?_
      simp only [Option.mem_some_iff, forall_eq', Option.not_mem_none, false_imp_iff, implies_true,
        true_and]
    | none => exact .passes ⟨nofun, nofun⟩ trivial

/-- A state that passes the checks is written if its parts fit. -/
theorem state_decides {states : List State} (hasNext : Bool) {content : State}
    (passes : env.checkState (states.map State.name) content = .ok ()) :
    Decides (content.Fits resolvers env) (·.length = content.byteLength)
      (state resolvers env states hasNext content) := by
  obtain ⟨attributesPass, apart, bodiesPass⟩ := Env.checkState_eq_ok.mp passes
  have count := (Quantity.bodyCount content.name).count_decides 31 rfl rfl content.bodies.length
  have packet := Decides.optional fun packet picked =>
    controlPacket_decides (checkControlPacket_of_pick attributesPass picked)
  have bodies := Decides.mapM fun body member => body_decides (bodiesPass body member)
  rw [state_eq, stateSettings_ok attributesPass]
  refine Decides.congr (count.bind fun _ _ =>
    (stateTarget_decides resolvers attributesPass apart).bind fun _ _ =>
      packet.bind fun packetBytes packetLength => bodies.map fun parts written => ?_) ?_
  · simp only [List.length_append, IntFormat.length_encode, packetLength,
      length_flatten_of_forall₂ written]
    rfl
  · rw [content.fits_iff resolvers env, and_assoc]

theorem states_decides {all : List State} {row : List State}
    (passes : ∀ content ∈ row, env.checkState (all.map State.name) content = .ok ()) :
    Decides (∀ content ∈ row, content.Fits resolvers env)
      (·.length = (row.map State.byteLength).sum) (states resolvers env all row) := by
  induction row with
  | nil => exact .passes nofun rfl
  | cons first rest inductionHypothesis =>
    rw [List.forall_mem_cons] at passes
    have head := state_decides resolvers (!rest.isEmpty) passes.1
    have tail := inductionHypothesis passes.2
    unfold states
    refine Decides.congr (head.bind fun headBytes headLength =>
      tail.map fun tailBytes tailLength => ?_) List.forall_mem_cons.symm
    rw [List.length_append, headLength, tailLength, List.map_cons, List.sum_cons]

/-! ### Starters -/

theorem assignerField_decides {field : Assign} (known : field.name ∈ Catalogue.assignerFields)
    (hasValue : env.HasValue field.value) :
    Decides (env.Between 0 15 field.value) (fun _ => True) (assignerField env field) := by
  have nibbles : ∀ name ∈ Catalogue.assignerFields, (assignerNibble? name).isSome = true := by
    decide
  obtain ⟨nibble, found⟩ := Option.isSome_iff_exists.mp (nibbles _ known)
  have measured := (Quantity.assignerField field.name).measure_decides 0 15 rfl rfl hasValue
  unfold assignerField
  rw [found]
  exact measured.map fun _ _ => trivial

theorem assigner_decides {content : Assigner} (passes : env.checkAssigner content = .ok ()) :
    Decides (content.Fits resolvers env) (·.length = 4) (assigner resolvers env content) := by
  obtain ⟨_, known⟩ := Env.checkAssigner_eq_ok.mp passes
  have object := (Quantity.object content.object).reference_decides 0 65535 rfl rfl resolvers
    .globalObject content.object
  have fields := Decides.mapM fun field member =>
    assignerField_decides (known field member).1 (known field member).2
  unfold assigner
  rw [← bind_assoc]
  refine Decides.congr (object.bind fun _ _ => fields.map fun _ _ => ?_)
    (content.fits_iff resolvers env).symm
  rw [List.length_append, IntFormat.length_encode, IntFormat.length_encode]
  rfl

/-- A starter that passes the checks is written if its assigners fit and are few. -/
theorem starter_decides {content : Starter}
    (passes : ∀ assigner ∈ content.assigners, env.checkAssigner assigner = .ok ()) :
    Decides (content.Fits resolvers env) (·.length = content.byteLength)
      (starter resolvers env content) := by
  have count := Quantity.assignerCount.count_decides 65535 rfl rfl content.assigners.length
  have assigners := Decides.mapM fun assigner member =>
    assigner_decides resolvers (passes assigner member)
  unfold starter
  refine Decides.congr (count.bind fun _ _ => assigners.map fun parts written => ?_)
    (content.fits_iff resolvers env).symm
  rw [List.length_append, IntFormat.length_encode, length_flatten_of_forall₂ written,
    List.map_const', List.sum_replicate_nat, Nat.mul_comm]
  rfl

/-! ### Behaviours -/

theorem graphSetting_decides {content : Behaviour} {attr : Attribute}
    (checked : env.checkAttributeKind attr.kind = .ok ())
    (starts : ∀ name, attr.kind = .startFrom name → name ∈ content.states.map State.name)
    (settings : GraphSettings) :
    Decides ((∀ expr ∈ attr.kind.priority?, env.Between 0 255 expr) ∧
        ∀ expr ∈ attr.kind.unknown?, env.Between 0 255 expr) (fun _ => True)
      (graphSetting env content settings attr) := by
  unfold graphSetting
  cases shape : attr.kind with
  | startFrom name =>
    have placed := stateIndex_decides (starts name shape) attr.span.start
    refine (placed.map fun _ _ => trivial).congr (iff_of_true trivial ⟨nofun, nofun⟩)
  | priority expr =>
    rw [shape] at checked
    have measured := (Quantity.priority content.name).measure_decides 0 255 rfl rfl
      (Env.checkExpr_eq_ok.mp checked)
    refine (measured.map fun _ _ => trivial).congr ?_
    simp [Attribute.Kind.priority?, Attribute.Kind.unknown?]
  | unknown expr =>
    rw [shape] at checked
    have measured := (Quantity.behaviourUnknown content.name).measure_decides 0 255 rfl rfl
      (Env.checkExpr_eq_ok.mp checked)
    refine (measured.map fun _ _ => trivial).congr ?_
    simp [Attribute.Kind.priority?, Attribute.Kind.unknown?]
  | _ => exact .passes ⟨nofun, nofun⟩ trivial

/-- The settings of a graph are taken if their values are in range. -/
theorem graphSettings_decides {placement : Placement} {content : Behaviour}
    (passes : env.checkAttributes placement content.attributes = .ok ())
    (starts : ∀ attr ∈ content.attributes, ∀ name, attr.kind = .startFrom name →
      name ∈ content.states.map State.name) :
    Decides ((∀ expr ∈ Canonical.pick Attribute.Kind.priority? content.attributes,
        env.Between 0 255 expr) ∧
        ∀ expr ∈ Canonical.pick Attribute.Kind.unknown? content.attributes, env.Between 0 255 expr)
      (fun _ => True) (content.attributes.foldlM (graphSetting env content) {}) := by
  obtain ⟨distinct, checked⟩ := Env.checkAttributes_eq_ok.mp passes
  rw [← forall_pick_iff "Priority" (fun | .priority _, _ => rfl) distinct,
    ← forall_pick_iff "Unknown" (fun | .unknown _, _ => rfl) distinct, ← forall₂_and]
  have whole := Decides.foldlM {} fun attr member settings =>
    graphSetting_decides (checked attr member).2 (starts attr member) settings
  exact whole.mono fun _ _ _ => trivial

/-- A behaviour that passes the checks is written if its parts fit. -/
theorem behaviour_decides {placement : Placement} {content : Behaviour}
    (passes : env.checkBehaviour placement content = .ok ()) :
    Decides (content.Fits resolvers env) (·.length = content.byteLength)
      (behaviour resolvers env content) := by
  obtain ⟨attributesPass, _, starts, assignersPass, statesPass⟩ :=
    Env.checkBehaviour_eq_ok.mp passes
  have count := (Quantity.stateCount content.name).count_decides 256 rfl rfl content.states.length
  have settings := graphSettings_decides attributesPass starts
  have setup := Decides.optional fun setup given =>
    starter_decides resolvers (assignersPass setup given)
  rw [behaviour_eq]
  refine Decides.congr (count.bind fun _ _ => settings.bind fun _ _ =>
    setup.bind fun setupBytes setupLength =>
      (states_decides resolvers statesPass).map fun rows rowsLength => ?_) ?_
  · simp only [List.length_append, IntFormat.length_encode, setupLength, rowsLength]
    rfl
  · rw [content.fits_iff resolvers env, and_assoc]

end Encode

end BehaviourScript
