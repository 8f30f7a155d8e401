/-
This file carries likeness through the encoder: of two scripts that are alike and
pass the checks, either both are written, as the same bytes, or neither is. The
checks matter where order is given up. Attributes and settings are taken in one
by one, and that their order does not count rests on none being given twice.
-/

import BehaviourScript.Proofs.Canonical.Attributes
import BehaviourScript.Proofs.Likeness.Checks

namespace BehaviourScript

open Outcome

variable {Consts States : String → String → Prop}

/-! ### What is chosen from a row -/

section Choice

variable {α β γ δ κ : Type}

/-- If at most one item of a row is chosen, its place does not matter. -/
theorem findSome?_perm {select : α → Option γ} {key : α → κ} {chosen : κ}
    (keyed : ∀ item, (select item).isSome = true → key item = chosen) {items others : List α}
    (perm : items.Perm others) (distinct : (items.map key).Nodup) :
    items.findSome? select = others.findSome? select := by
  induction perm with
  | nil => rfl
  | cons item _ inductionHypothesis =>
    rw [List.map_cons, List.nodup_cons] at distinct
    rw [List.findSome?_cons, List.findSome?_cons, inductionHypothesis distinct.2]
  | swap item other rest =>
    rw [List.map_cons, List.map_cons, List.nodup_cons] at distinct
    simp only [List.findSome?_cons]
    cases first : select item with
    | none => rfl
    | some value =>
      cases second : select other with
      | none => rfl
      | some image =>
        have same : key other = key item :=
          (keyed other (second ▸ rfl)).trans (keyed item (first ▸ rfl)).symm
        exact absurd (same ▸ List.mem_cons_self) distinct.1
  | trans perm _ firstHypothesis secondHypothesis =>
    rw [firstHypothesis distinct, secondHypothesis ((perm.map key).nodup_iff.mp distinct)]

/-- What is chosen by a key from rows that are alike is alike, in whatever order they stand. -/
theorem Shuffled.findSome?_rel {Same : α → β → Prop} {Chosen : γ → δ → Prop} {items : List α}
    {others : List β} (shuffled : Shuffled Same items others) {select : α → Option γ}
    {again : β → Option δ} {key : α → κ} (chosen : κ)
    (keyed : ∀ item, (select item).isSome = true → key item = chosen)
    (distinct : (items.map key).Nodup)
    (each : ∀ item image, Same item image → Option.Rel Chosen (select item) (again image)) :
    Option.Rel Chosen (items.findSome? select) (others.findSome? again) := by
  obtain ⟨row, perm, rows⟩ := shuffled
  rw [findSome?_perm keyed perm distinct]
  clear perm
  induction rows with
  | nil => exact .none
  | @cons item image _ _ same _ inductionHypothesis =>
    rw [List.findSome?_cons, List.findSome?_cons]
    have here := each item image same
    generalize select item = first at here
    generalize again image = second at here
    cases here with
    | some held => exact .some held
    | none => exact inductionHypothesis

end Choice

namespace Attribute.Kind

/-- The kinds of attributes that hold one expression, by their names. -/
def exprKinds : List (String × (Kind → Option Expr)) :=
  [("GlobalIndex", globalIndex?), ("Priority", priority?), ("InstanceType", instanceType?),
    ("UseObjectSlot", useObjectSlot?), ("Unknown", unknown?)]

theorem name_of_exprKinds {name : String} {select : Kind → Option Expr}
    (known : (name, select) ∈ exprKinds) {kind : Kind} (held : (select kind).isSome = true) :
    kind.name = name := by
  simp only [exprKinds, List.mem_cons, Prod.mk.injEq, List.not_mem_nil, or_false] at known
  rcases known with ⟨rfl, rfl⟩ | ⟨rfl, rfl⟩ | ⟨rfl, rfl⟩ | ⟨rfl, rfl⟩ | ⟨rfl, rfl⟩ <;>
    cases kind <;> first | rfl | cases held

namespace Like

variable {kind image : Kind} (like : kind.Like Consts States image)

include like

/-- Attributes that are alike hold expressions that are alike. -/
theorem expr_rel {name : String} {select : Kind → Option Expr}
    (known : (name, select) ∈ exprKinds) :
    Option.Rel (Expr.Like Consts) (select kind) (select image) := by
  simp only [exprKinds, List.mem_cons, Prod.mk.injEq, List.not_mem_nil, or_false] at known
  rcases known with ⟨-, rfl⟩ | ⟨-, rfl⟩ | ⟨-, rfl⟩ | ⟨-, rfl⟩ | ⟨-, rfl⟩ <;>
    cases like <;> first | exact .none | exact .some (by assumption)

theorem startFrom?_rel : Option.Rel States kind.startFrom? image.startFrom? := by
  cases like with
  | startFrom states => exact .some states
  | _ => exact .none

theorem controlPacket?_rel :
    Option.Rel (ControlPacket.Like Consts) kind.controlPacket? image.controlPacket? := by
  cases like with
  | controlPacket packet => exact .some packet
  | _ => exact .none

theorem skipFirstBody_iff : kind = .skipFirstBody ↔ image = .skipFirstBody := by
  cases like <;> simp

theorem nonBlocking_iff : kind = .nonBlocking ↔ image = .nonBlocking := by
  cases like <;> simp

end Like

end Attribute.Kind

/-- What the attribute of a kind holds, in two rows that are alike. -/
theorem pick_like {γ : Type} {Chosen : γ → γ → Prop} {select : Attribute.Kind → Option γ}
    (name : String) (named : ∀ kind, (select kind).isSome = true → kind.name = name)
    (each : ∀ kind image, kind.Like Consts States image →
      Option.Rel Chosen (select kind) (select image)) {attributes others : List Attribute}
    (like : Shuffled (Attribute.Like Consts States) attributes others)
    (distinct : (attributes.map (·.kind.name)).Nodup) :
    Option.Rel Chosen (Canonical.pick select attributes) (Canonical.pick select others) :=
  like.findSome?_rel name (fun attr => named attr.kind) distinct fun _ _ => each _ _

/-- The expression that the attribute of a kind holds, in two rows that are alike. -/
theorem pick_expr_like (name : String) (select : Attribute.Kind → Option Expr)
    (known : (name, select) ∈ Attribute.Kind.exprKinds) {attributes others : List Attribute}
    (like : Shuffled (Attribute.Like Consts States) attributes others)
    (distinct : (attributes.map (·.kind.name)).Nodup) :
    Option.Rel (Expr.Like Consts) (Canonical.pick select attributes)
      (Canonical.pick select others) :=
  pick_like name (fun _ => Attribute.Kind.name_of_exprKinds known)
    (fun _ _ same => same.expr_rel known) like distinct

/-! ### Rows in another order -/

/-- The answers along a row come in the order of the row. -/
theorem Shuffled.mapM_alike {α β γ : Type} {Same : α → β → Prop} {items : List α} {others : List β}
    (shuffled : Shuffled Same items others) {first : α → Outcome γ} {second : β → Outcome γ}
    (each : ∀ item other, Same item other → Alike Eq (first item) (second other)) :
    Alike List.Perm (items.mapM first) (others.mapM second) := by
  obtain ⟨row, perm, rows⟩ := shuffled
  have carry {items row : List α} (perm : items.Perm row) {values : List γ}
      (run : items.mapM first = .ok values) :
      ∃ results, row.mapM first = .ok results ∧ values.Perm results := by
    obtain ⟨results, same, order⟩ := List.perm_comp_forall₂ perm.symm (mapM_eq_ok.mp run)
    exact ⟨results, mapM_eq_ok.mpr same, order.symm⟩
  refine .of_exists (fun values run => ?_) fun results run => ?_
  · obtain ⟨results, again, order⟩ := carry perm run
    exact ⟨results, (Alike.forall₂_mapM rows each).eq_ok again, order⟩
  · obtain ⟨values, again, _⟩ := carry perm.symm ((Alike.forall₂_mapM rows each).symm.eq_ok run)
    exact ⟨values, again⟩

/-- Taking in the items of a row succeeds if each item can be taken in, whatever was taken in
before. -/
theorem Shuffled.exists_foldlM_iff {α β σ τ : Type} {Same : α → β → Prop} {items : List α}
    {others : List β} (shuffled : Shuffled Same items others) {step : σ → α → Outcome σ}
    {again : τ → β → Outcome τ}
    (each : ∀ state other item image, Same item image →
      ((∃ next, step state item = .ok next) ↔ ∃ next, again other image = .ok next))
    (first : σ) (second : τ) :
    (∃ last, items.foldlM step first = .ok last) ↔
      ∃ last, others.foldlM again second = .ok last := by
  constructor
  · rintro ⟨last, run⟩
    refine exists_foldlM_eq_ok second ((shuffled.forall_mem_iff fun item image same => ?_).mp
      (exists_step_of_foldlM run))
    exact ⟨fun ⟨state, taken⟩ other => (each state other item image same).mp taken,
      fun taken => ⟨first, (each first second item image same).mpr (taken second)⟩⟩
  · rintro ⟨last, run⟩
    refine exists_foldlM_eq_ok first ((shuffled.forall_mem_iff fun item image same => ?_).mpr
      (exists_step_of_foldlM run))
    exact ⟨fun taken => ⟨second, (each first second item image same).mp (taken first)⟩,
      fun ⟨other, taken⟩ state => (each state other item image same).mpr taken⟩

/-- Settings that are taken from rows that are alike are taken or refused alike. -/
theorem Shuffled.foldlM_alike {α β σ : Type} {Same : α → β → Prop} {items : List α}
    {others : List β} (shuffled : Shuffled Same items others) {step : σ → α → Outcome σ}
    {again : σ → β → Outcome σ} {start : σ}
    (each : ∀ state other item image, Same item image →
      Alike (fun _ _ => True) (step state item) (again other image))
    (agree : ∀ last final, items.foldlM step start = .ok last →
      others.foldlM again start = .ok final → last = final) :
    Alike Eq (items.foldlM step start) (others.foldlM again start) := by
  have both := shuffled.exists_foldlM_iff (fun state other item image same =>
    (each state other item image same).exists_ok_iff) start start
  refine .of_exists (fun last run => ?_) fun final run => both.mpr ⟨final, run⟩
  obtain ⟨final, rerun⟩ := both.mp ⟨last, run⟩
  exact ⟨final, rerun, agree last final run rerun⟩

/-- Where the attributes that decide a part agree, so do the parts. -/
theorem Taken.agree {γ δ : Type} {Given Again : γ → δ → Prop} {Chosen : γ → γ → Prop}
    {picked other : Option γ} {before last final : δ} (taken : Taken Given picked before last)
    (again : Taken Again other before final) (rel : Option.Rel Chosen picked other)
    (each : ∀ value image, Chosen value image → ∀ held found, Given value held →
      Again image found → held = found) : last = final := by
  cases taken with
  | kept =>
    cases rel
    cases again
    rfl
  | given held =>
    cases rel with
    | some same =>
      cases again with
      | given found => exact each _ _ same _ _ held found

/-- The fields of a word do not get into each other's way. -/
theorem Layout.pack_perm {fields others : List (Field × Nat)} (perm : fields.Perm others) :
    pack fields = pack others := by
  refine perm.foldr_eq' (fun first _ second _ word => ?_) 0
  rw [← Nat.or_assoc, ← Nat.or_assoc, Nat.or_comm (second.1.put second.2)]

namespace Encode

/-- What the attributes of two states say. -/
structure StateSettings.Like (Consts : String → String → Prop) (first second : StateSettings) :
    Prop where
  skipFirstBody : first.skipFirstBody = second.skipFirstBody
  nonBlocking : first.nonBlocking = second.nonBlocking
  slot : first.slot = second.slot
  packet : Option.Rel (ControlPacket.Like Consts) first.packet second.packet
  distinct : ∀ packet ∈ first.packet, (packet.settings.map Assign.name).Nodup

/-! ### Numbers -/

/-- Quantities of one range are fitted alike. -/
theorem fit_alike (quantity other : Quantity) (low : quantity.min = other.min)
    (high : quantity.max = other.max) (value : Int) :
    Alike Eq (quantity.fit value) (other.fit value) := by
  unfold Quantity.fit Quantity.holds
  rw [low, high]
  split
  · exact .ok rfl
  · exact .error

/-- A state has a name exactly if its image has the name's image. -/
theorem map_name_like (unique : Relator.BiUnique States) {states others : List State}
    (like : List.Forall₂ (State.Like Consts States) states others) {name image : String}
    (names : States name image) :
    states.map (·.name == name) = others.map (·.name == image) := by
  refine map_eq_of_forall₂ like fun state other same => ?_
  rw [Bool.eq_iff_iff, beq_iff_eq, beq_iff_eq]
  exact Relator.rel_eq unique same.name names

theorem place_like (unique : Relator.BiUnique States) {states others : List State}
    (like : List.Forall₂ (State.Like Consts States) states others) {name image : String}
    (names : States name image) :
    Canonical.place states name = Canonical.place others image := by
  have places := congrArg (List.findIdx id) (map_name_like unique like names)
  rwa [List.findIdx_map, List.findIdx_map] at places

/-- States that are alike are found at the same places. -/
theorem stateIndex_like (unique : Relator.BiUnique States) {states others : List State}
    (like : List.Forall₂ (State.Like Consts States) states others) {name image : String}
    (names : States name image) (position other : Position) :
    Alike Eq (stateIndex states name position) (stateIndex others image other) := by
  have places := congrArg (List.findIdx? id) (map_name_like unique like names)
  rw [List.findIdx?_map, List.findIdx?_map] at places
  change states.findIdx? (·.name == name) = others.findIdx? (·.name == image) at places
  unfold stateIndex
  rw [places]
  cases others.findIdx? (·.name == image) with
  | none => exact .error
  | some index => exact .ok rfl

/-- A part that may be missing is written alike. -/
theorem optional_like {α : Type} {Same : α → α → Prop} {part other : Option α}
    (rel : Option.Rel Same part other) {write again : α → Outcome Bytes}
    (each : ∀ value ∈ part, ∀ image, Same value image → Alike Eq (write value) (again image)) :
    Alike Eq (optional write part) (optional again other) := by
  cases rel with
  | some same => exact each _ rfl _ same
  | none => exact .ok rfl

section Envs

variable {first second : Env} (env : first.Like Consts second)

include env

theorem measure_like (quantity : Quantity) {expr image : Expr} (like : expr.Like Consts image) :
    Alike Eq (quantity.measure first expr) (quantity.measure second image) :=
  (like.eval env).ofSemantic.bindEq fun _ => .refl _

theorem value_like {expr image : Expr} (like : expr.Like Consts image) :
    first.value expr = second.value image := by
  have alike := like.eval env
  unfold Env.value
  generalize first.eval expr = value at alike
  generalize second.eval image = other at alike
  cases alike with
  | ok same => rw [same]
  | error => rfl

/-! ### Commands and bodies -/

/-- Commands that are alike are written as the same bytes. -/
theorem command_like (hasNext : Bool) {row image : Command} (like : row.Like Consts image) :
    Alike Eq (command first hasNext row) (command second hasNext image) := by
  unfold command
  rw [like.id, like.args.length_eq]
  refine (Alike.refl _).bindEq fun _ => ?_
  exact (Alike.forall₂_mapM like.args fun _ _ => measure_like env _).bindEq fun _ => .refl _

theorem commands_like {row others : List Command}
    (like : List.Forall₂ (Command.Like Consts) row others) :
    Alike Eq (commands first row) (commands second others) := by
  induction like with
  | nil => exact .ok rfl
  | cons same rest inductionHypothesis =>
    rw [commands, commands, isEmpty_eq rest]
    exact (command_like env _ same).bindEq fun _ => inductionHypothesis.bindEq fun _ => .refl _

theorem commandPack_like {row others : List Command}
    (like : List.Forall₂ (Command.Like Consts) row others) :
    Alike Eq (commandPack first row) (commandPack second others) := by
  unfold commandPack
  rw [isEmpty_eq like]
  exact (commands_like env like).bindEq fun _ => .refl _

/-- Conditions that are alike are written as the same bytes. -/
theorem condition_like {test image : Condition} (like : test.Like Consts image) :
    Alike Eq (condition first test) (condition second image) := by
  have given : Alike Eq (parameter first test) (parameter second image) := by
    unfold parameter
    rw [like.id]
    have rel := like.parameter
    generalize test.parameter = expr at rel
    generalize image.parameter = other at rel
    cases rel with
    | some same => exact measure_like env _ same
    | none => exact .refl _
  rw [condition_eq, condition_eq, like.id, like.negate]
  exact given.bindEq fun _ => .refl _

/-! ### Control packets -/

theorem setting_like {given image : Assign} (like : given.Like Consts image) :
    Alike Eq (setting first given) (setting second image) := by
  unfold setting
  rw [like.name]
  cases Catalogue.settingBit? image.name with
  | none => exact .error
  | some bit => exact (measure_like env _ like.value).bindEq fun _ => .refl _

/-- The value of a setting does not depend on the order of settings. -/
theorem assigned_like {assigns others : List Assign}
    (like : Shuffled (Assign.Like Consts) assigns others)
    (distinct : (assigns.map Assign.name).Nodup) (name : String) :
    Canonical.assigned first assigns name = Canonical.assigned second others name := by
  have found : Option.Rel (Assign.Like Consts) (assigns.find? (·.name == name))
      (others.find? (·.name == name)) := by
    rw [← List.findSome?_guard, ← List.findSome?_guard]
    refine like.findSome?_rel name ?_ distinct ?_
    · intro assign held
      rw [Option.isSome_guard] at held
      exact beq_iff_eq.mp held
    · intro assign image same
      unfold Option.guard
      simp only [same.name]
      split
      · exact .some same
      · exact .none
  unfold Canonical.assigned
  generalize assigns.find? (·.name == name) = assign at found
  generalize others.find? (·.name == name) = image at found
  cases found with
  | some same => exact congrArg some (value_like env same.value)
  | none => rfl

/-- What is collected for the bits of settings depends on their names only. -/
theorem collected_like {settings others : List Assign}
    (like : Shuffled (Assign.Like Consts) settings others)
    (distinct : (settings.map Assign.name).Nodup) {given again : List (Nat × Int)}
    (run : settings.mapM (setting first) = .ok given)
    (rerun : others.mapM (setting second) = .ok again) :
    ∀ bit ∈ settingBits,
      Assoc.get? bit (given.foldl (fun values entry => Assoc.set entry.1 entry.2 values) []) =
        Assoc.get? bit (again.foldl (fun values entry => Assoc.set entry.1 entry.2 values) []) := by
  have names := like.map_perm fun _ _ => Assign.Like.name
  intro bit member
  obtain ⟨entry, inSettings, rfl⟩ : ∃ entry ∈ Catalogue.settings.zipIdx, entry.2 = bit :=
    List.mem_map.mp (show bit ∈ Catalogue.settings.zipIdx.map Prod.snd from member)
  have known := (mem_zipIdx_settings entry inSettings).2
  rw [get?_collected (mapM_eq_ok.mp run) distinct known,
    get?_collected (mapM_eq_ok.mp rerun) (names.nodup_iff.mp distinct) known,
    assigned_like env like distinct]

/-- Packets that are alike are written as the same bytes, since the bytes of settings go by their
bits. -/
theorem controlPacket_like {packet image : ControlPacket} (like : packet.Like Consts image)
    (distinct : (packet.settings.map Assign.name).Nodup) :
    Alike Eq (controlPacket first packet) (controlPacket second image) := by
  have settings := like.settings.mapM_alike fun _ _ => setting_like env
  unfold controlPacket
  rw [like.data.length_eq]
  refine settings.bindRun fun given again run rerun _ => ?_
  have collected := collected_like env like.settings distinct run rerun
  generalize given.foldl (fun values entry => Assoc.set entry.1 entry.2 values) [] = values
    at collected ⊢
  generalize again.foldl (fun values entry => Assoc.set entry.1 entry.2 values) [] = others
    at collected ⊢
  have mask : (settingBits.map fun bit => (settingField bit, (Assoc.contains bit values).toNat)) =
      settingBits.map fun bit => (settingField bit, (Assoc.contains bit others).toNat) :=
    List.map_congr_left fun bit member => by rw [Assoc.contains, Assoc.contains, collected bit member]
  have bytes : settingBits.filterMap (Assoc.get? · values) =
      settingBits.filterMap (Assoc.get? · others) := List.filterMap_congr collected
  simp only [mask, bytes]
  refine (Alike.refl _).bindEq fun _ => ?_
  exact (Alike.forall₂_mapM like.data fun _ _ => measure_like env _).bindEq fun _ => .refl _

section States

variable (unique : Relator.BiUnique States) {all others : List State}
  (states : List.Forall₂ (State.Like Consts States) all others)

include unique states

omit env in
theorem jump_like {content image : StateBody} (like : content.Like Consts States image) :
    Alike Eq (jump all content) (jump others image) := by
  have rel := like.jump
  unfold jump
  generalize content.jump = target at rel
  generalize image.jump = other at rel
  cases rel with
  | some names => exact (stateIndex_like unique states names _ _).map _
  | none => exact .refl _

/-- Bodies that are alike are written as the same bytes. -/
theorem body_like {content image : StateBody} (like : content.Like Consts States image) :
    Alike Eq (body first all content) (body second others image) := by
  rw [body_eq, body_eq, isSome_eq like.condition, isEmpty_eq like.commands]
  refine (jump_like unique states like).bindEq fun _ => ?_
  refine (optional_like like.condition fun _ _ _ => condition_like env).bindEq fun _ => ?_
  exact (commands_like env like.commands).bindEq fun _ => .refl _

/-! ### States -/

omit unique states env in
theorem stateTarget_like (resolvers : CompileResolvers) (slot : Option Int) {content image : State}
    (target : content.target = image.target) :
    Alike Eq (stateTarget resolvers slot content) (stateTarget resolvers slot image) := by
  unfold stateTarget
  rw [target]
  cases slot with
  | some slot => exact fit_alike (.stateTarget content.name) (.stateTarget image.name) rfl rfl slot
  | none =>
    cases image.target with
    | some reference =>
      exact (Alike.refl _).bindEq fun id =>
        fit_alike (.stateTarget content.name) (.stateTarget image.name) rfl rfl id
    | none => exact .ok rfl

omit unique states in
/-- The settings of a state do not depend on the order of its attributes. -/
theorem stateSettings_like {attributes images : List Attribute}
    (like : Shuffled (Attribute.Like Consts States) attributes images)
    (passes : first.checkAttributes .state attributes = .ok ()) :
    Alike (StateSettings.Like Consts) (attributes.foldlM (stateSetting first) {})
      (images.foldlM (stateSetting second) {}) := by
  have distinct := (Env.checkAttributes_eq_ok.mp passes).1
  have slot := pick_expr_like "UseObjectSlot" Attribute.Kind.useObjectSlot?
    (by simp [Attribute.Kind.exprKinds]) like distinct
  have packet := pick_like "ControlPacket" (fun | .controlPacket _, _ => rfl)
    (fun _ _ => Attribute.Kind.Like.controlPacket?_rel) like distinct
  rw [stateSettings_ok passes,
    stateSettings_ok ((attributes_check_iff env .state like).mp passes)]
  refine .ok ⟨?_, ?_, ?_, packet, fun packet picked => ?_⟩
  · exact like.any_eq fun _ _ same => decide_eq_decide.mpr same.skipFirstBody_iff
  · exact like.any_eq fun _ _ same => decide_eq_decide.mpr same.nonBlocking_iff
  · exact map_eq_of_rel slot fun _ _ => value_like env
  · have checked := checkControlPacket_of_pick passes picked
    exact (Env.checkControlPacket_eq_ok.mp checked).1.1

/-- States that are alike are written as the same bytes. -/
theorem state_like (resolvers : CompileResolvers) (hasNext : Bool) {content image : State}
    (like : content.Like Consts States image)
    (passes : first.checkAttributes .state content.attributes = .ok ()) :
    Alike Eq (state resolvers first all hasNext content)
      (state resolvers second others hasNext image) := by
  rw [state_eq, state_eq, like.bodies.length_eq]
  refine (fit_alike (.bodyCount content.name) (.bodyCount image.name) rfl rfl _).bindEq fun _ => ?_
  refine (stateSettings_like env like.attributes passes).bind fun settings again same => ?_
  rw [same.slot, same.skipFirstBody, same.nonBlocking, isSome_eq same.packet]
  refine (stateTarget_like resolvers again.slot like.target).bindEq fun _ => ?_
  refine (optional_like same.packet fun packet held _ alike =>
    controlPacket_like env alike (same.distinct packet held)).bindEq fun _ => ?_
  exact (Alike.forall₂_mapM like.bodies fun _ _ => body_like env unique states).bindEq
    fun _ => .refl _

theorem states_like (resolvers : CompileResolvers) {row images : List State}
    (like : List.Forall₂ (State.Like Consts States) row images)
    (passes : ∀ content ∈ row, first.checkAttributes .state content.attributes = .ok ()) :
    Alike Eq (Encode.states resolvers first all row)
      (Encode.states resolvers second others images) := by
  induction like with
  | nil => exact .ok rfl
  | cons same rest inductionHypothesis =>
    rw [List.forall_mem_cons] at passes
    rw [Encode.states, Encode.states, isEmpty_eq rest]
    exact (state_like env unique states resolvers _ same passes.1).bindEq fun _ =>
      (inductionHypothesis passes.2).bindEq fun _ => .refl _

end States

/-! ### Starters -/

theorem assignerField_like {field image : Assign} (like : field.Like Consts image) :
    Alike Eq (assignerField first field) (assignerField second image) := by
  unfold assignerField
  rw [like.name]
  cases assignerNibble? image.name with
  | none => exact .error
  | some nibble => exact (measure_like env _ like.value).bindEq fun _ => .refl _

/-- Assigners that are alike are written as the same bytes. -/
theorem assigner_like (resolvers : CompileResolvers) {content image : Assigner}
    (like : content.Like Consts image) :
    Alike Eq (assigner resolvers first content) (assigner resolvers second image) := by
  have fields := like.fields.mapM_alike fun _ _ => assignerField_like env
  unfold assigner
  rw [like.object]
  refine (Alike.refl _).bindEq fun _ => (Alike.refl _).bindEq fun _ => ?_
  refine fields.bind fun _ _ order => ?_
  rw [Layout.pack_perm order]
  exact .refl _

theorem starter_like (resolvers : CompileResolvers) {content image : Starter}
    (like : content.Like Consts image) :
    Alike Eq (starter resolvers first content) (starter resolvers second image) := by
  unfold starter
  rw [List.Forall₂.length_eq like]
  refine (Alike.refl _).bindEq fun _ => ?_
  exact (Alike.forall₂_mapM like fun _ _ => assigner_like env resolvers).bindEq fun _ => .refl _

/-! ### Behaviours -/

theorem graphSetting_like (unique : Relator.BiUnique States) {content image : Behaviour}
    (like : content.LikeBy Consts States image) (settings other : GraphSettings)
    {attr again : Attribute} (same : attr.Like Consts States again) :
    Alike (fun _ _ => True) (graphSetting first content settings attr)
      (graphSetting second image other again) := by
  obtain ⟨kind, span⟩ := attr
  obtain ⟨otherKind, otherSpan⟩ := again
  change kind.Like Consts States otherKind at same
  unfold graphSetting
  rw [like.name]
  cases same with
  | startFrom names =>
    exact (stateIndex_like unique like.states names _ _).bindEq fun _ => .ok trivial
  | priority value => exact (measure_like env _ value).bindEq fun _ => .ok trivial
  | unknown value => exact (measure_like env _ value).bindEq fun _ => .ok trivial
  | _ => exact .ok trivial

/-- The values of two numbers that are alike are the same. -/
theorem measured_like {expr image : Expr} (like : expr.Like Consts image) {bound : Nat}
    {held again : Nat} (measured : Taken.Measured first bound expr held)
    (other : Taken.Measured second bound image again) : held = again :=
  Int.ofNat.inj (measured.1.symm.trans ((value_like env like).trans other.1))

/-- The settings of a graph do not depend on the order of its attributes. -/
theorem graphSettings_like (unique : Relator.BiUnique States) {content image : Behaviour}
    (like : content.LikeBy Consts States image)
    (distinct : (content.attributes.map (·.kind.name)).Nodup) :
    Alike Eq (content.attributes.foldlM (graphSetting first content) {})
      (image.attributes.foldlM (graphSetting second image) {}) := by
  have names := like.attributes.map_perm fun _ _ => Attribute.Kind.Like.name_eq
  have start := pick_like "StartFrom" (fun | .startFrom _, _ => rfl)
    (fun _ _ => Attribute.Kind.Like.startFrom?_rel) like.attributes distinct
  have priority := pick_expr_like "Priority" Attribute.Kind.priority?
    (by simp [Attribute.Kind.exprKinds]) like.attributes distinct
  have unknown := pick_expr_like "Unknown" Attribute.Kind.unknown?
    (by simp [Attribute.Kind.exprKinds]) like.attributes distinct
  refine like.attributes.foldlM_alike (fun settings other _ _ =>
    graphSetting_like env unique like settings other) fun last final run rerun => ?_
  have taken := graphSettings_taken distinct run
  have again := graphSettings_taken (names.nodup_iff.mp distinct) rerun
  have starts := taken.1.agree again.1 start fun _ _ states _ _ placed other =>
    placed.1.symm.trans ((place_like unique like.states states).trans other.1)
  have priorities := taken.2.1.agree again.2.1 priority fun _ _ same _ _ => measured_like env same
  have unknowns := taken.2.2.agree again.2.2 unknown fun _ _ same _ _ => measured_like env same
  cases last
  cases final
  simp only at starts priorities unknowns
  rw [starts, priorities, unknowns]

/-- Behaviours that are alike are written as the same bytes. -/
theorem behaviour_like (unique : Relator.BiUnique States) (resolvers : CompileResolvers)
    {content image : Behaviour} (like : content.LikeBy Consts States image)
    (distinct : (content.attributes.map (·.kind.name)).Nodup)
    (passes : ∀ state ∈ content.states, first.checkAttributes .state state.attributes = .ok ()) :
    Alike Eq (behaviour resolvers first content) (behaviour resolvers second image) := by
  rw [behaviour_eq, behaviour_eq, like.name, like.states.length_eq, isSome_eq like.starter]
  refine (Alike.refl _).bindEq fun _ => ?_
  refine (graphSettings_like env unique like distinct).bindEq fun _ => ?_
  refine (optional_like like.starter fun _ _ _ => starter_like env resolvers).bindEq fun _ => ?_
  exact (states_like env unique like.states resolvers like.states passes).bindEq fun _ => .refl _

theorem behaviour_like_of_checked (unique : Relator.BiUnique States)
    (resolvers : CompileResolvers) {content image : Behaviour}
    (like : content.LikeBy Consts States image) {placement : Placement}
    (passes : first.checkBehaviour placement content = .ok ()) :
    Alike Eq (behaviour resolvers first content) (behaviour resolvers second image) := by
  obtain ⟨attributesPass, _, _, _, statesPass⟩ := Env.checkBehaviour_eq_ok.mp passes
  exact behaviour_like env unique resolvers like (Env.checkAttributes_eq_ok.mp attributesPass).1
    fun state member => (Env.checkState_eq_ok.mp (statesPass state member)).1

/-- Behaviours that are alike have the same graph ID. -/
theorem graphId_like (resolvers : CompileResolvers) {content image : Behaviour}
    (like : content.LikeBy Consts States image)
    (distinct : (content.attributes.map (·.kind.name)).Nodup) :
    Alike Eq (graphId resolvers first content) (graphId resolvers second image) := by
  have picked := pick_expr_like "GlobalIndex" Attribute.Kind.globalIndex?
    (by simp [Attribute.Kind.exprKinds]) like.attributes distinct
  have named : Alike Eq (namedId resolvers first content) (namedId resolvers second image) := by
    unfold namedId
    rw [globalIndex?_eq, globalIndex?_eq, like.name]
    generalize Canonical.pick Attribute.Kind.globalIndex? content.attributes = expr at picked
    generalize Canonical.pick Attribute.Kind.globalIndex? image.attributes = other at picked
    cases picked with
    | some same => exact (same.eval env).ofSemantic
    | none => exact .refl _
  rw [graphId_eq, graphId_eq, like.name]
  exact named.bindEq fun _ => .refl _

/-! ### Sequences -/

theorem sequenceSetting_like (name : String) (settings other : SequenceSettings)
    {attr again : Attribute} (same : attr.Like Consts States again) :
    Alike (fun _ _ => True) (sequenceSetting first name settings attr)
      (sequenceSetting second name other again) := by
  obtain ⟨kind, span⟩ := attr
  obtain ⟨otherKind, otherSpan⟩ := again
  change kind.Like Consts States otherKind at same
  unfold sequenceSetting
  cases same with
  | instanceType value => exact (measure_like env _ value).bindEq fun _ => .ok trivial
  | globalIndex value => exact (measure_like env _ value).bindEq fun _ => .ok trivial
  | unknown value => exact (measure_like env _ value).bindEq fun _ => .ok trivial
  | _ => exact .ok trivial

theorem sequenceSettings_like (name : String) {attributes images : List Attribute}
    (like : Shuffled (Attribute.Like Consts States) attributes images)
    (distinct : (attributes.map (·.kind.name)).Nodup) :
    Alike Eq (attributes.foldlM (sequenceSetting first name) {})
      (images.foldlM (sequenceSetting second name) {}) := by
  have names := like.map_perm fun _ _ => Attribute.Kind.Like.name_eq
  have instanceType := pick_expr_like "InstanceType" Attribute.Kind.instanceType?
    (by simp [Attribute.Kind.exprKinds]) like distinct
  have globalIndex := pick_expr_like "GlobalIndex" Attribute.Kind.globalIndex?
    (by simp [Attribute.Kind.exprKinds]) like distinct
  have unknown := pick_expr_like "Unknown" Attribute.Kind.unknown?
    (by simp [Attribute.Kind.exprKinds]) like distinct
  refine like.foldlM_alike (fun settings other _ _ =>
    sequenceSetting_like env name settings other) fun last final run rerun => ?_
  have taken := sequenceSettings_taken distinct run
  have again := sequenceSettings_taken (names.nodup_iff.mp distinct) rerun
  have types := taken.1.agree again.1 instanceType fun _ _ same _ _ => measured_like env same
  have indices := taken.2.1.agree again.2.1 globalIndex fun _ _ same _ _ => measured_like env same
  have unknowns := taken.2.2.agree again.2.2 unknown fun _ _ same _ _ => measured_like env same
  cases last
  cases final
  simp only at types indices unknowns
  rw [types, indices, unknowns]

theorem pack_like (resolvers : CompileResolvers) {content image : CommandPack}
    (like : content.Like Consts image) :
    Alike Eq (pack resolvers first content) (pack resolvers second image) := by
  unfold pack
  rw [like.script]
  exact (commandPack_like env like.commands).bindEq fun _ => .refl _

/-- Sequences that are alike are written as the same bytes. -/
theorem sequence_like (resolvers : CompileResolvers) {content image : Sequence}
    (like : content.Like Consts image)
    (distinct : (content.attributes.map (·.kind.name)).Nodup) :
    Alike Eq (sequence resolvers first content) (sequence resolvers second image) := by
  unfold sequence
  rw [like.name, like.packs.length_eq]
  refine (sequenceSettings_like env image.name like.attributes distinct).bindEq fun _ => ?_
  refine (Alike.refl _).bindEq fun _ => ?_
  refine (Alike.forall₂_mapM like.packs fun _ _ => pack_like env resolvers).bindEq fun _ => ?_
  exact (commandPack_like env like.commands).bindEq fun _ => .refl _

end Envs

/-! ### Libraries -/

section Tables

variable {first second : SymbolTable} (tables : first.Like Consts second)

include tables

/-- Entries that are alike are written as the same bytes, with the same IDs taken before them. -/
theorem entries_like (resolvers : CompileResolvers) {behaviours images : List Behaviour}
    (like : List.Forall₂ (Behaviour.Like Consts) behaviours images)
    (passes : ∀ behaviour ∈ behaviours,
      (first.behaviourEnv behaviour.name).checkBehaviour .libraryBehaviour behaviour = .ok ())
    (taken : List (Int × String)) :
    Alike Eq (entries resolvers first taken behaviours)
      (entries resolvers second taken images) := by
  induction like generalizing taken with
  | nil => exact .ok rfl
  | @cons head image _ _ same _ inductionHypothesis =>
    rw [List.forall_mem_cons] at passes
    obtain ⟨States, unique, same⟩ := same
    have distinct := (Env.checkAttributes_eq_ok.mp (Env.checkBehaviour_eq_ok.mp passes.1).1).1
    have env := tables.behaviourEnv head.name
    unfold entries
    simp only [← same.name]
    refine (graphId_like env resolvers same distinct).bindEq fun id => ?_
    cases Assoc.get? id taken with
    | some holder => exact .error
    | none =>
      refine (behaviour_like_of_checked env unique resolvers same passes.1).bindEq fun _ => ?_
      exact (Alike.refl _).bindEq fun _ => (inductionHypothesis passes.2 _).bindEq fun _ => .refl _

/-- Libraries that are alike are written as the same bytes. -/
theorem library_like (resolvers : CompileResolvers) {content image : Library}
    (like : content.Like Consts image) (passes : first.checkLibrary content = .ok ()) :
    Alike Eq (library resolvers first content) (library resolvers second image) := by
  obtain ⟨attributesPass, _, behavioursPass⟩ := SymbolTable.checkLibrary_eq_ok.mp passes
  have picked := pick_expr_like "Unknown" Attribute.Kind.unknown?
    (by simp [Attribute.Kind.exprKinds]) like.attributes
    (Env.checkAttributes_eq_ok.mp attributesPass).1
  have unknown : Alike Eq (libraryUnknown first content) (libraryUnknown second image) := by
    unfold libraryUnknown
    rw [unknown?_eq, unknown?_eq, like.name]
    generalize Canonical.pick Attribute.Kind.unknown? content.attributes = expr at picked
    generalize Canonical.pick Attribute.Kind.unknown? image.attributes = other at picked
    cases picked with
    | some same => exact measure_like tables.rootEnv _ same
    | none => exact .refl _
  rw [library_eq, library_eq, like.name, like.behaviours.length_eq]
  refine (Alike.refl _).bindEq fun _ => unknown.bindEq fun _ => ?_
  exact (entries_like tables resolvers like.behaviours behavioursPass []).bindEq fun _ => .refl _

end Tables

end Encode

/-! ### Scripts -/

/-- Scripts that are alike are written as the same bytes, or neither is written. -/
theorem Script.Like.emit_alike {script image : Script} (like : script.Like Consts image)
    {first second : SymbolTable} (tables : first.Like Consts second)
    (passes : first.check script = .ok ()) (resolvers : CompileResolvers) :
    Alike Eq (emit resolvers first script) (emit resolvers second image) := by
  cases like with
  | library like => exact Encode.library_like tables resolvers like passes
  | behaviour like =>
    obtain ⟨States, unique, like⟩ := like
    exact Encode.behaviour_like_of_checked tables.rootEnv unique resolvers like passes
  | sequence like =>
    have attributesPass := (Env.checkSequence_eq_ok.mp passes).1
    exact Encode.sequence_like tables.rootEnv resolvers like
      (Env.checkAttributes_eq_ok.mp attributesPass).1

end BehaviourScript
