/-
This file shows that what the encoder writes for a script is the binary format of
its canonical form. The checks of the analysis come in where a name that is
given twice would be read in two ways.
-/

import BehaviourScript.Proofs.Binary.Format
import BehaviourScript.Proofs.Binary.Words
import BehaviourScript.Proofs.Canonical.Form
import BehaviourScript.Proofs.Checks
import BehaviourScript.Proofs.Emission

namespace BehaviourScript

open Outcome

/-! ### Values -/

theorem Env.value_eq {env : Env} {expr : Expr} {value : Int} (evaluated : env.eval expr = .ok value) :
    env.value expr = value := by
  rw [Env.value, evaluated]
  rfl

theorem CompileResolvers.idOf_eq {resolvers : CompileResolvers} {capability : Capability}
    {reference : Reference} {ident : Int}
    (found : resolvers.reference capability reference = .ok ident) :
    resolvers.idOf capability reference = ident := by
  rw [CompileResolvers.idOf, found]
  rfl

theorem Quantity.holds_iff {quantity : Quantity} {value : Int} :
    quantity.holds value = true ↔ quantity.min ≤ value ∧ value ≤ quantity.max := by
  rw [holds, Bool.and_eq_true, decide_eq_true_eq, decide_eq_true_eq]

/-- What is measured is the value, and it is in range. -/
theorem Quantity.measure_value {quantity : Quantity} {env : Env} {expr : Expr} {value : Int}
    (measured : quantity.measure env expr = .ok value) :
    env.value expr = value ∧ quantity.holds value = true := by
  obtain ⟨evaluated, fits⟩ := measure_eq_ok.mp measured
  exact ⟨env.value_eq evaluated, fits⟩

theorem Quantity.mapM_measure_values {quantity : Quantity} {env : Env} {args : List Expr}
    {values : List Int} (measured : args.mapM (quantity.measure env) = .ok values) :
    values = args.map env.value ∧ ∀ value ∈ values, quantity.holds value = true := by
  have each := mapM_eq_ok.mp measured
  clear measured
  induction each with
  | nil => exact ⟨rfl, nofun⟩
  | cons first _ inductionHypothesis =>
    obtain ⟨same, fits⟩ := measure_value first
    obtain ⟨others, fitting⟩ := inductionHypothesis
    rw [List.map_cons, same, ← others]
    exact ⟨rfl, List.forall_mem_cons.mpr ⟨fits, fitting⟩⟩

namespace Encode

variable {env : Env}

/-! ### Commands and bodies -/

/-- What is written for a command is of the format, for the command in canonical form. -/
theorem command_formatted {hasNext : Bool} {content : Command} {bytes : Bytes}
    (emitted : command env hasNext content = .ok bytes) :
    Format.command bytes (Canonical.command env content, hasNext) := by
  unfold command at emitted
  simp only [bind_eq_ok, pure_eq_ok] at emitted
  obtain ⟨count, fitted, values, measured, rfl⟩ := emitted
  obtain ⟨few, rfl⟩ := Quantity.fit_eq_ok.mp fitted
  obtain ⟨rfl, fitting⟩ := Quantity.mapM_measure_values measured
  have length : content.args.length = (content.args.map env.value).length := (List.length_map _).symm
  have written : Format.command _ (⟨content.id, (content.args.map env.value).map Decode.number,
      .dummy⟩, hasNext) := .intro (by
    rw [← length]
    exact Int.ofNat_le.mp (Quantity.holds_iff.mp few).2) fitting
  rw [List.map_map, ← length] at written
  exact written

/-- What is written for a row of commands is of the format. -/
theorem row_formatted {row : List Command} {bytes : Bytes} (emitted : commands env row = .ok bytes) :
    Format.row bytes (row.map (Canonical.command env)) := by
  unfold Format.row
  generalize 0 = index
  induction row generalizing bytes index with
  | nil =>
    cases emitted
    exact .nil
  | cons first rest inductionHypothesis =>
    unfold commands at emitted
    simp only [bind_eq_ok, pure_eq_ok] at emitted
    obtain ⟨head, headEmitted, tail, tailEmitted, rfl⟩ := emitted
    refine .cons ?_ (inductionHypothesis tailEmitted _)
    rw [List.isEmpty_map]
    exact command_formatted headEmitted

theorem commandPack_formatted {row : List Command} {bytes : Bytes}
    (emitted : commandPack env row = .ok bytes) :
    Format.commandPack bytes (row.map (Canonical.command env)) := by
  unfold commandPack at emitted
  simp only [bind_eq_ok, pure_eq_ok] at emitted
  obtain ⟨tail, tailEmitted, rfl⟩ := emitted
  have written := Format.commandPack.intro (row_formatted tailEmitted)
  rwa [List.isEmpty_map] at written

/-- What is written for a condition is of the format. A missing parameter is written as zero. -/
theorem condition_formatted {test : Condition} {bytes : Bytes}
    (emitted : condition env test = .ok bytes) :
    Format.condition bytes (Canonical.condition env test) := by
  rw [condition_eq] at emitted
  simp only [bind_eq_ok, pure_eq_ok] at emitted
  obtain ⟨given, measured, rfl⟩ := emitted
  have parameter : IntFormat.i32.holds given = true ∧
      (Canonical.condition env test).parameter =
        if given = 0 then none else some (Decode.number given) := by
    unfold parameter at measured
    unfold Canonical.condition
    cases shape : test.parameter with
    | none =>
      rw [shape] at measured
      cases measured
      exact ⟨by decide, rfl⟩
    | some expr =>
      rw [shape] at measured
      obtain ⟨same, fits⟩ := Quantity.measure_value measured
      refine ⟨fits, ?_⟩
      simp only [Option.map_some, same, Option.filter_some]
      by_cases zero : given = 0
      · simp [zero]
      · simp [zero]
  have written : Format.condition _ ⟨test.id, test.negate, _, .dummy⟩ := .intro parameter.1
  rw [← parameter.2] at written
  exact written

/-- What is written for a part that may be missing is of the format. -/
theorem optional_formatted {α : Type} {write : α → Outcome Bytes} {image : α → α}
    {format : Format α} {part : Option α}
    (each : ∀ value ∈ part, ∀ {bytes}, write value = .ok bytes → format bytes (image value))
    {bytes : Bytes} (emitted : optional write part = .ok bytes) :
    format.Optional bytes (part.map image) := by
  cases part with
  | none =>
    cases emitted
    exact .absent
  | some value => exact .present (each value rfl emitted)

/-- What is written for a row is of the format, item by item. -/
theorem rows_formatted {α β : Type} {write : α → Outcome Bytes} {image : α → β}
    {format : Format β} {row : List α}
    (each : ∀ value ∈ row, ∀ {bytes}, write value = .ok bytes → format bytes (image value))
    {parts : List Bytes}
    (emitted : List.Forall₂ (fun value bytes => write value = .ok bytes) row parts) :
    format.Rows parts.flatten (row.map image) := by
  induction emitted with
  | nil => exact .nil
  | cons first _ inductionHypothesis =>
    rw [List.forall_mem_cons] at each
    exact .cons (each.1 first) (inductionHypothesis each.2)

/-- The place of a state is where its name is found first. -/
theorem stateIndex_place {states : List State} {name : String} {position : Position} {index : Nat}
    (found : stateIndex states name position = .ok index) :
    Canonical.place states name = index ∧ index < states.length := by
  unfold stateIndex at found
  split at found
  · next shape =>
    cases found
    have both := List.findIdx?_eq_some_iff_findIdx_eq.mp shape
    exact ⟨both.2, both.1⟩
  · exact nomatch found

/-- What is written for a jump is the place of the state. -/
theorem jump_formatted {states : List State} (few : states.length ≤ Decode.stateLimit)
    {content : StateBody} {word : Int} (found : jump states content = .ok word) :
    (∀ index ∈ content.jump.map (Canonical.place states), (index : Int) ≤ IntFormat.i16.max) ∧
      Format.jumpWord (content.jump.map (Canonical.place states)) = word := by
  unfold jump at found
  cases shape : content.jump with
  | none =>
    rw [shape] at found
    cases found
    exact ⟨nofun, rfl⟩
  | some target =>
    rw [shape] at found
    simp only [map_eq_pure_bind, bind_eq_ok, pure_eq_ok] at found
    obtain ⟨index, placed, rfl⟩ := found
    obtain ⟨rfl, inside⟩ := stateIndex_place placed
    refine ⟨?_, rfl⟩
    rintro index ⟨⟩
    have bound : (Canonical.place states target : Int) ≤ 256 := by
      unfold Decode.stateLimit at few
      omega
    exact Int.le_trans bound (by decide)

/-- What is written for a body is of the format. -/
theorem body_formatted {states : List State} (few : states.length ≤ Decode.stateLimit)
    {content : StateBody} {bytes : Bytes} (emitted : body env states content = .ok bytes) :
    Format.body bytes
      (Canonical.body env states content, content.jump.map (Canonical.place states)) := by
  rw [body_eq] at emitted
  simp only [bind_eq_ok, pure_eq_ok] at emitted
  obtain ⟨word, found, testBytes, testEmitted, rowBytes, rowEmitted, rfl⟩ := emitted
  obtain ⟨near, rfl⟩ := jump_formatted few found
  have test := optional_formatted (fun _ _ _ => condition_formatted) testEmitted
  have written := Format.body.intro near test (row_formatted rowEmitted)
  rw [Option.isSome_map, List.isEmpty_map, Option.map_map] at written
  exact written

/-! ### Control packets -/

theorem setting_value {given : Assign} {result : Nat × Int} (emitted : setting env given = .ok result) :
    Catalogue.settingBit? given.name = some result.1 ∧ env.value given.value = result.2 ∧
      IntFormat.u8.holds result.2 = true := by
  unfold setting at emitted
  cases bit : Catalogue.settingBit? given.name with
  | none =>
    rw [bit] at emitted
    exact nomatch emitted
  | some place =>
    rw [bit] at emitted
    simp only [bind_eq_ok, pure_eq_ok] at emitted
    obtain ⟨value, measured, rfl⟩ := emitted
    obtain ⟨same, fits⟩ := Quantity.measure_value measured
    exact ⟨rfl, same, fits⟩

/-- No two settings share a bit. -/
theorem settingBit?_injective {first second : String} {bit : Nat}
    (firstBit : Catalogue.settingBit? first = some bit)
    (secondBit : Catalogue.settingBit? second = some bit) : first = second := by
  obtain ⟨inside, firstSame, _⟩ := List.idxOf?_eq_some_iff.mp firstBit
  obtain ⟨_, secondSame, _⟩ := List.idxOf?_eq_some_iff.mp secondBit
  exact firstSame.symm.trans secondSame

/-- What is collected for a bit is what is assigned to its name, if no name is given twice. -/
theorem get?_collected {settings : List Assign} {given : List (Nat × Int)}
    (emitted : List.Forall₂ (fun item result => setting env item = .ok result) settings given)
    (distinct : (settings.map Assign.name).Nodup) {name : String} {bit : Nat}
    (known : Catalogue.settingBit? name = some bit) (values : List (Nat × Int)) :
    Assoc.get? bit (given.foldl (fun values entry => Assoc.set entry.1 entry.2 values) values) =
      (Canonical.assigned env settings name).or (Assoc.get? bit values) := by
  induction emitted generalizing values with
  | nil => rfl
  | @cons item result settings given first others inductionHypothesis =>
    obtain ⟨found, same, fits⟩ := setting_value first
    rw [List.map_cons, List.nodup_cons] at distinct
    rw [List.foldl_cons, inductionHypothesis distinct.2]
    by_cases equal : item.name = name
    · have place : bit = result.1 := by
        rw [equal, known] at found
        exact Option.some.inj found
      rw [Canonical.assigned_cons_self env equal, Canonical.assigned_eq_none env (equal ▸ distinct.1),
        place, Assoc.get?_set_self, same]
      rfl
    · have place : bit ≠ result.1 := fun bits =>
        equal (settingBit?_injective found (bits ▸ known))
      rw [Canonical.assigned_cons_other env equal, Assoc.get?_set_other place]

/-- Values whose bits are set in a mask are written in the order of the bits. -/
theorem settings_formatted {mask : Nat} (values : Nat → Option Int) {entries : List (String × Nat)}
    (held : ∀ entry ∈ entries, (settingField entry.2).flag mask = (values entry.2).isSome)
    (fits : ∀ entry ∈ entries, ∀ word ∈ values entry.2, IntFormat.u8.holds word = true) :
    Format.settings mask entries
      ((entries.filterMap fun entry => values entry.2).flatMap IntFormat.u8.encode)
      (entries.filterMap fun entry => (values entry.2).map fun word =>
        ⟨entry.1, Decode.number word, .dummy⟩) := by
  induction entries with
  | nil => exact .nil
  | cons entry rest inductionHypothesis =>
    rw [List.forall_mem_cons] at held fits
    have behind := inductionHypothesis held.2 fits.2
    rw [List.filterMap_cons, List.filterMap_cons]
    cases value : values entry.2 with
    | none => exact .skip (by rw [held.1, value]; rfl) behind
    | some word => exact .take (by rw [held.1, value]; rfl) ⟨fits.1 word value, rfl⟩ behind

theorem holds_collected {settings : List Assign} {given : List (Nat × Int)}
    (emitted : List.Forall₂ (fun item result => setting env item = .ok result) settings given)
    {values : List (Nat × Int)}
    (fits : ∀ bit, ∀ word ∈ Assoc.get? bit values, IntFormat.u8.holds word = true) (bit : Nat) :
    ∀ word ∈ Assoc.get? bit
      (given.foldl (fun values entry => Assoc.set entry.1 entry.2 values) values),
      IntFormat.u8.holds word = true := by
  induction emitted generalizing values with
  | nil => exact fits bit
  | @cons item result settings given first others inductionHypothesis =>
    refine inductionHypothesis fun asked word found => ?_
    by_cases same : asked = result.1
    · rw [same, Assoc.get?_set_self] at found
      cases found
      exact (setting_value first).2.2
    · rw [Assoc.get?_set_other same] at found
      exact fits asked word found

section Mask

variable (contains : Nat → Bool)

theorem mask_fields :
    (settingBits.map fun bit => (settingField bit, (contains bit).toNat)).map Prod.fst =
      Layout.ControlPacket.maskShape.fields := by
  rw [List.map_map]
  rfl

theorem mask_le :
    Layout.pack (settingBits.map fun bit => (settingField bit, (contains bit).toNat)) ≤
      Layout.ControlPacket.settingsMask.max :=
  Nat.le_of_lt_succ (Layout.Shape.pack_lt (mask_fields contains))

/-- The bit of a setting is set if the setting is given. -/
theorem flag_mask {bit : Nat} (member : bit ∈ settingBits) :
    (settingField bit).flag (Layout.pack
      (settingBits.map fun bit => (settingField bit, (contains bit).toNat))) = contains bit := by
  refine Layout.Shape.flag_pack (mask_fields contains) _ (contains bit) ?_ Nat.one_pos
  exact List.mem_map_of_mem (f := fun bit => (settingField bit, (contains bit).toNat)) member

end Mask

/-- Settings have the bits of their places. -/
theorem mem_zipIdx_settings :
    ∀ entry ∈ Catalogue.settings.zipIdx,
      entry.2 ∈ settingBits ∧ Catalogue.settingBit? entry.1 = some entry.2 := by
  decide

theorem filterMap_settingBits (values : Nat → Option Int) :
    settingBits.filterMap values = Catalogue.settings.zipIdx.filterMap fun entry => values entry.2 := by
  have places : settingBits = Catalogue.settings.zipIdx.map Prod.snd := rfl
  rw [places, List.filterMap_map]
  rfl

/-- The settings that are read from collected values. -/
def collectedSettings (values : List (Nat × Int)) : List Assign :=
  Catalogue.settings.zipIdx.filterMap fun entry => (Assoc.get? entry.2 values).map fun word =>
    ⟨entry.1, Decode.number word, .dummy⟩

/-- A control packet is written with the values collected, whether or not names are given twice. -/
theorem controlPacket_collected {packet : ControlPacket} {bytes : Bytes}
    (emitted : controlPacket env packet = .ok bytes) :
    ∃ given, List.Forall₂ (fun item result => setting env item = .ok result) packet.settings given ∧
      Format.controlPacket bytes ⟨collectedSettings
        (given.foldl (fun values entry => Assoc.set entry.1 entry.2 values) []),
        packet.data.map fun word => Decode.number (env.value word)⟩ := by
  unfold controlPacket at emitted
  simp only [bind_eq_ok, pure_eq_ok] at emitted
  obtain ⟨given, settings, count, fitted, data, measured, rfl⟩ := emitted
  obtain ⟨few, rfl⟩ := Quantity.fit_eq_ok.mp fitted
  obtain ⟨rfl, fitting⟩ := Quantity.mapM_measure_values measured
  have settings := mapM_eq_ok.mp settings
  have empty (bit : Nat) : ∀ word ∈ Assoc.get? bit ([] : List (Nat × Int)),
      IntFormat.u8.holds word = true := fun _ found => by cases found
  refine ⟨given, settings, ?_⟩
  have holds := holds_collected settings empty
  generalize given.foldl (fun values entry => Assoc.set entry.1 entry.2 values) [] = values at holds
  have given := settings_formatted (Assoc.get? · values) (fun entry member =>
    flag_mask (Assoc.contains · values) (mem_zipIdx_settings entry member).1)
    fun entry _ => holds entry.2
  rw [← filterMap_settingBits (Assoc.get? · values)] at given
  have length : packet.data.length = (packet.data.map env.value).length := (List.length_map _).symm
  have written := Format.controlPacket.intro (mask_le (Assoc.contains · values)) given
    (by rw [← length]; exact Int.ofNat_le.mp (Quantity.holds_iff.mp few).2) fitting
  rw [List.map_map, ← length] at written
  exact written

/-- What is written for a packet is of the format, with its settings in the order of their bits. -/
theorem controlPacket_formatted {packet : ControlPacket}
    (distinct : (packet.settings.map Assign.name).Nodup) {bytes : Bytes}
    (emitted : controlPacket env packet = .ok bytes) :
    Format.controlPacket bytes (Canonical.controlPacket env packet) := by
  obtain ⟨given, settings, written⟩ := controlPacket_collected emitted
  have assigns : collectedSettings
      (given.foldl (fun values entry => Assoc.set entry.1 entry.2 values) []) =
        (Canonical.controlPacket env packet).settings := by
    have names : Catalogue.settings = Catalogue.settings.zipIdx.map Prod.fst := rfl
    unfold collectedSettings Canonical.controlPacket
    rw [names, List.filterMap_map]
    refine List.filterMap_congr fun entry member => ?_
    rw [get?_collected settings distinct (mem_zipIdx_settings entry member).2 [], Assoc.get?_nil,
      Option.or_none]
    rfl
  rw [assigns] at written
  exact written

end Encode

end BehaviourScript
