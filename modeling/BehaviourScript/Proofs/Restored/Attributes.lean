/-
This file does the same for control packets and for the attributes of records. A
packet's mask has the bits of the settings that were read, and no others, so the
settings bring the mask back. Attributes that were read stand once each and
where they may.
-/

import BehaviourScript.Proofs.Restored.Bodies

namespace BehaviourScript

open Outcome

/-! ### Control packets -/

/-- The settings of a packet are known, and none comes twice. -/
def ControlPacket.Known (packet : ControlPacket) : Prop :=
  (packet.settings.map Assign.name).Nodup ∧
    ∀ setting ∈ packet.settings, setting.name ∈ Catalogue.settings

namespace Restored

variable {env : Env} {bytes : Bytes}

/-- The settings of a packet that was read are some of the known ones, in their order. -/
theorem settings_names {mask : Nat} {entries : List (String × Nat)} {assigns : List Assign}
    (formatted : Format.settings mask entries bytes assigns) :
    (assigns.map Assign.name).Sublist (entries.map Prod.fst) := by
  induction formatted with
  | nil => exact .slnil
  | skip _ _ inductionHypothesis => exact inductionHypothesis.cons _
  | take _ _ _ inductionHypothesis => exact inductionHypothesis.cons_cons _

theorem settings_values {mask : Nat} {entries : List (String × Nat)} {assigns : List Assign}
    (formatted : Format.settings mask entries bytes assigns) :
    ∀ assign ∈ assigns, ∃ word, IntFormat.u8.holds word = true ∧
      assign.value = Decode.number word := by
  induction formatted with
  | nil => exact nofun
  | skip _ _ inductionHypothesis => exact inductionHypothesis
  | take _ read _ inductionHypothesis =>
    exact List.forall_mem_cons.mpr ⟨⟨_, read.1, rfl⟩, inductionHypothesis⟩

/-- A setting is given a value exactly if its bit is set, and the bytes are those of the values. -/
theorem settings_assigned {mask : Nat} {entries : List (String × Nat)} {assigns : List Assign}
    (formatted : Format.settings mask entries bytes assigns)
    (distinct : (entries.map Prod.fst).Nodup) :
    (∀ entry ∈ entries,
      (Canonical.assigned env (assigns.map (Assign.mapExpr Expr.reread)) entry.1).isSome =
        (Encode.settingField entry.2).flag mask) ∧
    bytes = (entries.filterMap fun entry =>
      Canonical.assigned env (assigns.map (Assign.mapExpr Expr.reread)) entry.1).flatMap
        IntFormat.u8.encode := by
  induction formatted with
  | nil => exact ⟨nofun, rfl⟩
  | @skip name bit entries assigns bytes clear others inductionHypothesis =>
    rw [List.map_cons, List.nodup_cons] at distinct
    obtain ⟨flags, written⟩ := inductionHypothesis distinct.2
    have absent : Canonical.assigned env (assigns.map (Assign.mapExpr Expr.reread)) name = none := by
      refine Canonical.assigned_eq_none env fun member => distinct.1 ?_
      rw [List.map_map] at member
      exact (settings_names others).subset member
    refine ⟨List.forall_mem_cons.mpr ⟨by rw [absent, clear]; rfl, flags⟩, ?_⟩
    rw [List.filterMap_cons, absent]
    exact written
  | @take name bit entries assigns word front behind set read others inductionHypothesis =>
    rw [List.map_cons, List.nodup_cons] at distinct
    obtain ⟨flags, written⟩ := inductionHypothesis distinct.2
    obtain ⟨fits, rfl⟩ := read
    have value : env.value (Decode.number word).reread = word :=
      env.value_eq (Expr.eval_reread_number env ((Quantity.setting name).natAbs_lt fits))
    have own : Canonical.assigned env ((⟨name, Decode.number word, .dummy⟩ :: assigns).map
        (Assign.mapExpr Expr.reread)) name = some word :=
      (Canonical.assigned_cons_self env rfl _).trans (congrArg some value)
    have other : ∀ entry ∈ entries, Canonical.assigned env
        ((⟨name, Decode.number word, .dummy⟩ :: assigns).map (Assign.mapExpr Expr.reread)) entry.1 =
          Canonical.assigned env (assigns.map (Assign.mapExpr Expr.reread)) entry.1 := by
      intro entry member
      refine Canonical.assigned_cons_other env (fun same : name = entry.1 => ?_) _
      exact distinct.1 (List.mem_map.mpr ⟨entry, member, same.symm⟩)
    refine ⟨List.forall_mem_cons.mpr ⟨by rw [own, set]; rfl, fun entry member => ?_⟩, ?_⟩
    · rw [other entry member]
      exact flags entry member
    · rw [List.filterMap_cons, own, List.filterMap_congr other]
      exact congrArg (IntFormat.u8.encode word ++ ·) written

/-- Settings have bits, and names that can be written. -/
theorem settings_known : ∀ name ∈ Catalogue.settings,
    (Catalogue.settingBit? name).isSome = true ∧ isIdentifier name = true := by
  decide +kernel

/-- A known setting is written into the byte of its bit. -/
theorem setting_encoded {assign : Assign} (known : assign.name ∈ Catalogue.settings) {word : Int}
    (fits : IntFormat.u8.holds word = true) (same : assign.value = Decode.number word) :
    ∃ result, Encode.setting env (assign.mapExpr Expr.reread) = .ok result := by
  obtain ⟨bit, place⟩ := Option.isSome_iff_exists.mp (settings_known _ known).1
  refine ⟨(bit, word), ?_⟩
  unfold Encode.setting Assign.mapExpr
  dsimp only
  rw [place, same]
  show (Quantity.measure _ env _ >>= _) = _
  rw [(Quantity.setting assign.name).measure_reread fits]
  rfl

/-- A mask is packed from its bits. -/
theorem pack_mask {mask : Nat} (small : mask ≤ Layout.ControlPacket.settingsMask.max)
    {contains : Nat → Bool}
    (same : ∀ bit ∈ Encode.settingBits, contains bit = (Encode.settingField bit).flag mask) :
    Layout.pack (Encode.settingBits.map fun bit =>
      (Encode.settingField bit, (contains bit).toNat)) = mask := by
  have fields : (Encode.settingBits.map fun bit => (Encode.settingField bit, (contains bit).toNat)) =
      Layout.ControlPacket.maskShape.fields.map fun field => (field, field.get mask) := by
    show _ = (Encode.settingBits.map Encode.settingField).map _
    rw [List.map_map]
    refine List.map_congr_left fun bit member => ?_
    rw [same bit member, Layout.Field.toNat_flag _ rfl]
    rfl
  rw [fields]
  exact Layout.ControlPacket.maskShape.pack_get (Nat.lt_succ_of_le small) (Nat.and_zero _)

section Packet

variable {packet : ControlPacket} (formatted : Format.controlPacket bytes packet)

include formatted

/-- A packet that was read has known settings, each once. -/
theorem controlPacket_known : packet.Known := by
  cases formatted with
  | intro _ settings _ _ =>
    have names := settings_names settings
    have all : Catalogue.settings.zipIdx.map Prod.fst = Catalogue.settings := rfl
    rw [all] at names
    exact ⟨names.nodup (by decide), fun setting member => names.subset (List.mem_map_of_mem member)⟩

theorem controlPacket_words :
    (∀ setting ∈ packet.settings, setting.value.IsWord) ∧ ∀ word ∈ packet.data, word.IsWord := by
  cases formatted with
  | intro _ settings _ fits =>
    refine ⟨fun setting member => ?_, fun expr member => ?_⟩
    · obtain ⟨word, holds, same⟩ := settings_values settings setting member
      exact same ▸ (Quantity.setting setting.name).isWord holds
    · obtain ⟨word, given, rfl⟩ := List.mem_map.mp member
      exact Quantity.dataWord.isWord (fits word given)

/-- A packet is written as it was read, with the bits of the settings that it has. -/
theorem controlPacket_encoded :
    Encode.controlPacket env (packet.mapExpr Expr.reread) = .ok bytes := by
  have known := controlPacket_known formatted
  cases formatted with
  | @intro mask assigns data written small settings few fits =>
    have distinct : ((assigns.map (Assign.mapExpr Expr.reread)).map Assign.name).Nodup := by
      rw [List.map_map]
      exact known.1
    have each : ∀ assign ∈ assigns.map (Assign.mapExpr Expr.reread),
        ∃ result, Encode.setting env assign = .ok result := by
      intro assign member
      obtain ⟨original, inAssigns, rfl⟩ := List.mem_map.mp member
      obtain ⟨word, holds, same⟩ := settings_values settings original inAssigns
      exact setting_encoded (known.2 original inAssigns) holds same
    obtain ⟨given, emitted⟩ := exists_mapM_eq_ok each
    obtain ⟨flags, bytesEq⟩ := @settings_assigned env _ _ _ _ settings (by decide)
    have collected {name : String} {bit : Nat} (place : Catalogue.settingBit? name = some bit) :=
      (Encode.get?_collected (mapM_eq_ok.mp emitted) distinct place []).trans Option.or_none
    unfold Encode.controlPacket
    simp only [bind_eq_ok, pure_eq_ok]
    refine ⟨given, emitted, data.length, ?_, data, Quantity.dataWord.mapM_measure_reread fits env, ?_⟩
    · unfold ControlPacket.mapExpr
      rw [List.length_map, List.length_map]
      exact Quantity.fit_count rfl (Int.ofNat_le.mpr few)
    · generalize given.foldl (fun values entry => Assoc.set entry.1 entry.2 values) [] = values
        at collected
      have held : ∀ entry ∈ Catalogue.settings.zipIdx, Assoc.get? entry.2 values =
          Canonical.assigned env (assigns.map (Assign.mapExpr Expr.reread)) entry.1 :=
        fun entry member => collected (Encode.mem_zipIdx_settings entry member).2
      have bits : ∀ bit ∈ Encode.settingBits,
          Assoc.contains bit values = (Encode.settingField bit).flag mask := by
        intro bit member
        have places : Encode.settingBits = Catalogue.settings.zipIdx.map Prod.snd := rfl
        rw [places] at member
        obtain ⟨entry, inSettings, rfl⟩ := List.mem_map.mp member
        rw [← flags entry inSettings, ← held entry inSettings]
        rfl
      rw [pack_mask small bits, Encode.filterMap_settingBits (Assoc.get? · values),
        List.filterMap_congr held, ← bytesEq]
      rfl

end Packet

end Restored

/-! ### Attributes -/

namespace Attribute

theorem Kind.name_mapExpr (change : Expr → Expr) (kind : Kind) :
    (kind.mapExpr change).name = kind.name := by
  cases kind <;> rfl

/-- Where an attribute may stand does not depend on its expressions. -/
theorem Kind.allows_mapExpr (change : Expr → Expr) (placement : Placement) (kind : Kind) :
    placement.allows (kind.mapExpr change) = placement.allows kind := by
  cases kind <;> rfl

theorem Kind.startFrom_of_mapExpr {change : Expr → Expr} {state : String} :
    ∀ kind : Kind, kind.mapExpr change = .startFrom state → kind = .startFrom state
  | startFrom _, same => same

/-- An attribute as the decoder gives it. -/
structure Plain (attr : Attribute) : Prop where
  words : ∀ expr ∈ attr.exprs, expr.IsWord
  starts : ∀ name, attr.kind = .startFrom name → isIdentifier name = true
  packets : ∀ packet, attr.kind = .controlPacket packet → packet.Known

namespace Plain

variable {attr : Attribute} (plain : attr.Plain)

include plain

theorem spellable : attr.Spellable := by
  obtain ⟨words, starts, packets⟩ := plain
  unfold exprs at words
  unfold Spellable
  cases shape : attr.kind with
  | controlPacket packet =>
    rw [shape] at words
    obtain ⟨settings, data⟩ := List.forall_mem_append.mp words
    refine List.forall_mem_append.mpr ⟨?_, ?_⟩
    · intro argument member
      obtain ⟨setting, inSettings, rfl⟩ := List.mem_map.mp member
      have named := Restored.settings_known _ ((packets packet shape).2 setting inSettings)
      exact ⟨named.2, (settings _ (List.mem_map_of_mem inSettings)).spellable⟩
    · intro argument member
      obtain ⟨word, inData, rfl⟩ := List.mem_map.mp member
      exact (data word inData).spellable
  | startFrom name =>
    intro argument member
    rw [List.mem_singleton.mp member]
    exact starts name shape
  | nonBlocking => exact nofun
  | skipFirstBody => exact nofun
  | _ =>
    rw [shape] at words
    intro argument member
    rw [List.mem_singleton.mp member]
    exact (words _ List.mem_cons_self).spellable

theorem checked (env : Env) : env.checkAttributeKind (attr.kind.mapExpr Expr.reread) = .ok () := by
  obtain ⟨words, starts, packets⟩ := plain
  unfold exprs at words
  cases shape : attr.kind with
  | controlPacket packet =>
    rw [shape] at words
    obtain ⟨settings, data⟩ := List.forall_mem_append.mp words
    obtain ⟨distinct, known⟩ := packets packet shape
    refine Env.checkControlPacket_eq_ok.mpr ⟨⟨?_, ?_⟩, ?_⟩
    · unfold ControlPacket.mapExpr
      rw [List.map_map]
      exact distinct
    · intro setting member
      obtain ⟨original, inSettings, rfl⟩ := List.mem_map.mp member
      exact ⟨(Restored.settings_known _ (known original inSettings)).1,
        (settings _ (List.mem_map_of_mem inSettings)).hasValue env⟩
    · intro word member
      obtain ⟨original, inData, rfl⟩ := List.mem_map.mp member
      exact (data original inData).hasValue env
  | startFrom name => rfl
  | nonBlocking => rfl
  | skipFirstBody => rfl
  | _ =>
    rw [shape] at words
    exact Env.checkExpr_eq_ok.mpr ((words _ List.mem_cons_self).hasValue env)

end Plain

/-- Attributes as the decoder gives them: in the order of the kinds of a record, which are allowed
where it stands. -/
structure Listed (placement : Placement) (names : List String) (attributes : List Attribute) :
    Prop where
  plain : ∀ attr ∈ attributes, attr.Plain
  allowed : ∀ attr ∈ attributes, placement.allows attr.kind = true
  order : (attributes.map (·.kind.name)).Sublist names

namespace Listed

variable {placement : Placement} {names others : List String} {first second : List Attribute}

theorem nil : Listed placement names [] := ⟨nofun, nofun, List.nil_sublist _⟩

theorem single (kind : Kind) (plain : (Decode.attr kind).Plain)
    (allowed : placement.allows kind = true) : Listed placement [kind.name] [Decode.attr kind] where
  plain := List.forall_mem_singleton.mpr plain
  allowed := List.forall_mem_singleton.mpr allowed
  order := .refl _

/-- Attributes of two lists of names follow each other if the names do. -/
theorem append (front : Listed placement names first) (behind : Listed placement others second) :
    Listed placement (names ++ others) (first ++ second) where
  plain := List.forall_mem_append.mpr ⟨front.plain, behind.plain⟩
  allowed := List.forall_mem_append.mpr ⟨front.allowed, behind.allowed⟩
  order := List.map_append ▸ front.order.append behind.order

theorem checked (listed : Listed placement names first) (distinct : names.Nodup) (env : Env) :
    env.checkAttributes placement (first.map (Attribute.mapExpr Expr.reread)) = .ok () := by
  refine Env.checkAttributes_eq_ok.mpr ⟨?_, ?_⟩
  · rw [List.map_map]
    have same : ((fun attr : Attribute => attr.kind.name) ∘ Attribute.mapExpr Expr.reread) =
        fun attr => attr.kind.name := funext fun attr => attr.kind.name_mapExpr Expr.reread
    rw [same]
    exact listed.order.nodup distinct
  · intro attr member
    obtain ⟨original, given, rfl⟩ := List.mem_map.mp member
    exact ⟨(original.kind.allows_mapExpr _ _).trans (listed.allowed original given),
      (listed.plain original given).checked env⟩

end Listed

end Attribute

/-- Two attributes and one that is left out if it is zero are taken in one after the other. -/
theorem Restored.foldlM_attributes {σ : Type} {step : σ → Attribute → Outcome σ}
    {first second : Attribute.Kind} {unknown : Nat} {start final : σ} (middle known : σ)
    (firstStep : step start (Decode.attr (first.mapExpr Expr.reread)) = .ok middle)
    (secondStep : step middle (Decode.attr (second.mapExpr Expr.reread)) = .ok known)
    (zero : unknown = 0 → known = final)
    (thirdStep : step known (Decode.attr (.unknown (Decode.number unknown).reread)) = .ok final) :
    (([Decode.attr first, Decode.attr second] ++ Decode.unknownAttribute unknown).map
      (Attribute.mapExpr Expr.reread)).foldlM step start = .ok final := by
  rw [List.map_append, List.foldlM_append, bind_eq_ok]
  refine ⟨known, ?_, ?_⟩
  · rw [List.map_cons, List.map_cons, List.map_nil, List.foldlM_cons, bind_eq_ok]
    refine ⟨middle, firstStep, ?_⟩
    rw [List.foldlM_cons, bind_eq_ok]
    exact ⟨known, secondStep, rfl⟩
  · unfold Decode.unknownAttribute
    split
    · next none =>
      rw [zero none]
      rfl
    · rw [List.map_cons, List.map_nil, List.foldlM_cons, bind_eq_ok]
      exact ⟨final, thirdStep, rfl⟩

end BehaviourScript
